import QueryScope.Interchange.Bson
import QueryScope.Shell.Query
/-!
# Interchange form of writing contexts and written queries

A context is `{prettyPrint, automaticallyRun, expansions}`, each optional; an expansion is
`{"bson_type": type, "default_value": constant or null}`. A written query is
`{"state": s, "text": t}`, without `text` when nothing was written.
-/

namespace QueryScope

/-- Read a stand-in for a variable. -/
def Shell.Expansion.ofJson? (j : Json) : Option Shell.Expansion := do
  let t ← Bson.read? (← j.need "bson_type")
  let d ← match j.get? "default_value" with
    | none | some .null => some none
    | some v => (Constant.read? v).map some
  pure ⟨t, d⟩

/-- Read a writing context; `null` is the default context. -/
def Shell.Context.ofJson? : Json → Option Shell.Context
  | .null => some {}
  | j => do
    let pretty ← j.flag? "prettyPrint"
    let autoRun ← j.flag? "automaticallyRun"
    let expansions ← match j.get? "expansions" with
      | none | some .null => some []
      | some (.obj ms) => ms.mapM fun (k, v) => (Shell.Expansion.ofJson? v).map (k, ·)
      | some _ => none
    pure (Shell.Context.mk pretty autoRun expansions)

/-- The form of a written query. -/
def Shell.Rendered.toJson (r : Shell.Rendered) : Json :=
  match r.text? with
  | some t => .obj [("state", .str r.state), ("text", .str t)]
  | Option.none => .obj [("state", .str r.state)]

end QueryScope
