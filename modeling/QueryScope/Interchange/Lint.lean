import QueryScope.Lint.Engine
import QueryScope.Interchange.Errors
import QueryScope.Interchange.Bson
/-!
# Interchange form of lint inputs and findings

A finding is exported as `{code, kind, category, action, source, message, arguments}`. Lint
metadata is written `{"status": "available", "value": v}`, `{"status": "unavailable",
"value": failure}` or `{"status": "notApplicable"}`, and read in the shorter request form
`{"available": v}`, `{"unavailable": failure}` or `"notApplicable"`.
-/

namespace QueryScope

/-- The exported form of a finding. -/
def Insight.export (i : Insight) : Json :=
  .obj [("action", .str i.kind.action.id), ("arguments", .strs i.arguments),
    ("category", .str i.kind.category.id), ("code", .str i.kind.code), ("kind", .str i.kind.id),
    ("message", .str i.message), ("source", i.source.toJson)]

namespace Metadata

/-- The form of a piece of metadata. -/
def toJson {α : Type} (f : α → Json) : Metadata α → Json
  | .available v => .obj [("status", .str "available"), ("value", f v)]
  | .unavailable e => .obj [("status", .str "unavailable"), ("value", e.toJson)]
  | .notApplicable => .obj [("status", .str "notApplicable")]

/-- Read a piece of metadata in its request form; a missing piece is not applicable. -/
def ofJson? {α : Type} (f : Json → Option α) : Option Json → Option (Metadata α)
  | none | some (.str "notApplicable") => some .notApplicable
  | some j =>
    match j.get? "available", j.get? "unavailable" with
    | some v, _ => (f v).map .available
    | none, some e => (CatalogError.ofJson? e).map .unavailable
    | none, none => none

end Metadata

/-- The form of lint metadata. -/
def LintInput.toJson (i : LintInput) : Json :=
  .obj [("collections", i.collections.toJson Json.strs), ("databases", i.databases.toJson Json.strs),
    ("explain", i.explain.toJson fun p => .str p.id), ("schema", i.schema.toJson Schema.toJson)]

/-- Read lint metadata in its request form. -/
def LintInput.ofJson? (j : Json) : Option LintInput := do
  let strings := Json.mapArr Json.str?
  let schema ← Metadata.ofJson? Schema.read? (j.get? "schema")
  let databases ← Metadata.ofJson? strings (j.get? "databases")
  let collections ← Metadata.ofJson? strings (j.get? "collections")
  let explain ← Metadata.ofJson? (fun p => p.str?.bind ExplainPlan.ofId?) (j.get? "explain")
  pure { schema, databases, collections, explain }

end QueryScope
