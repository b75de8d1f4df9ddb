import QueryScope.Interchange.Catalog
import QueryScope.Host.Spelling
import QueryScope.Query.Cluster
import QueryScope.Query.Schema
import QueryScope.Lint.InsightKind
import QueryScope.Bson.Assignable
/-!
# Requests on plain values

The answers about types, constants, namespaces, operators, commands, cluster versions,
explain outputs, kinds of findings, dialects and failures. Each request reads its fields,
and answers `none` when a field is missing or does not read.
-/

namespace QueryScope

namespace Requests

/-- What is known about one type. -/
def typeFacts (t : Bson) : Json :=
  .obj [("normalized", t.toJson), ("display", .str t.display),
    ("nullable_display", .str t.renderNullable), ("is_nullable", .bool t.isNullable),
    ("cardinality", .str (toString t.cardinality)), ("flatten", t.flatten.toJson),
    ("non_nullable", t.toNonNullable.toJson), ("base", t.base.toJson), ("java", .str t.javaText),
    ("self_assignable", .bool (Bson.assignable t t)), ("to_nullable", t.nullable.toJson)]

/-- What is known about two types together. -/
def pairFacts (a b : Bson) : Json :=
  .obj [("a_to_b", .bool (Bson.assignable a b)), ("b_to_a", .bool (Bson.assignable b a)),
    ("merge_ab", (Bson.merge a b).toJson), ("merge_ba", (Bson.merge b a).toJson),
    ("union", (Bson.union [a, b]).toJson), ("equal", .bool (a == b))]

/-- The type and whether a schema has a field at each path. -/
def pathFacts (s : Schema) (paths : List String) : Json :=
  .arr (paths.map fun p =>
    .obj [("path", .str p), ("type", (s.typeOf p).toJson), ("has_field", .bool (s.hasField p))])

/-- What is known about a namespace. -/
def namespaceFacts (ns : Namespace) : Json :=
  .obj [("display", .str ns.text), ("valid", .bool ns.isValid)]

/-- What is known about a constant. -/
def constantFacts (c : Constant) : Json :=
  .obj [("bson_type", c.bson.toJson), ("display", .str c.text),
    ("as_i32", Json.ofOption Json.int c.asInt32?), ("as_str", Json.optStr c.asString?)]

/-- What is known about an operator. -/
def operatorFacts (o : Operator) : Json :=
  .obj [("name", .str o.label), ("canonical", .str o.spelling), ("display", .str o.spelling),
    ("role", .str o.role.label), ("combinator", .bool o.isCombinator)]

/-- What is known about a command. -/
def commandFacts (c : Command) : Json :=
  .obj [("canonical", .str c.spelling), ("uses_indexes", .bool c.usesIndexes),
    ("returns_cursor", .bool c.returnsCursor), ("updates_documents", .bool c.updatesDocuments)]

/-- What is known about a kind of finding with its arguments. -/
def insightKindFacts (k : InsightKind) (args : List String) : Json :=
  .obj [("code", .str k.code), ("template", .str k.template), ("message", .str (k.message args)),
    ("category", .str k.category.id), ("action", .str k.action.id)]

/-- What is known about a dialect; a parseable one also describes its parser. -/
def dialectFacts (d : Dialect) : Json :=
  let base : List (String × Json) :=
    [("id", .str d.id), ("display", .str d.id), ("parseable", .bool d.isParseable),
      ("renders_executable_text", .bool d.rendersExecutableText), ("debug", .str d.label)]
  if d.isParseable then
    .obj (base ++ [("object", .obj [("id", .str d.id),
      ("debug", .str ("Dialect \x7b id: " ++ d.label ++ " \x7d")), ("parser", .str d.id),
      ("int_type", .str Bson.int32.javaText)])])
  else .obj base

/-- What is known about a failure: kind, message, recoverability, severity. -/
def failureFacts (kind message : String) (recoverable : Bool) (severity : Severity) :
    List (String × Json) :=
  [("error", .str kind), ("message", .str message), ("recoverable", .bool recoverable),
    ("severity", .str severity.label)]

/-- The answer to `namespace`. -/
def namespaceAnswer (req : Json) : Option Json :=
  match req.get? "text" with
  | some t => do
    let s ← t.str?
    match Namespace.parse s with
    | .ok ns => pure (.obj [("database", .str ns.database), ("collection", .str ns.collection),
        ("display", .str ns.text), ("valid", .bool ns.isValid)])
    | .error e => pure (Json.failure e.label e.message)
  | none => do
    let db ← req.text? "database"
    let coll ← req.text? "collection"
    pure (namespaceFacts ⟨db, coll⟩)

/-- The answer to `error_info` for a metadata, lowering or lint failure. -/
def failureAnswer (req : Json) : Option Json :=
  match req.get? "read_model", req.get? "lowering", req.get? "lint" with
  | some j, _, _ => do
    let e ← CatalogError.ofJson? j
    pure (.obj (failureFacts e.label e.message e.recoverable e.severity ++
      [("serialized", e.toJson)]))
  | none, some j, _ => do
    let e ← LoweringError.ofJson? j
    pure (.obj (failureFacts e.label e.message e.recoverable e.severity ++
      [("serialized", e.toJson)]))
  | none, none, some j => do
    let e ← LintError.ofJson? j
    pure (.obj (failureFacts e.label e.message e.recoverable e.severity))
  | none, none, none => none

/-- The answer to a request on plain values, `none` for bad input. -/
def values (op : String) (req : Json) : Option Json :=
  match op with
  | "bson" => do pure (typeFacts (← Bson.read? (← req.need "type")))
  | "bson_pair" => do
    pure (pairFacts (← Bson.read? (← req.need "a")) (← Bson.read? (← req.need "b")))
  | "any_of" => do
    let ts ← Json.mapArr Bson.read? (← req.need "types")
    let t := Bson.union ts
    pure (.obj [("type", t.toJson), ("display", .str t.display)])
  | "type_of" => do
    let ns : Namespace := ⟨"db", "coll"⟩
    let schema ← match req.get? "schema" with
      | none | some .null => some (Schema.empty ns)
      | some j => (Bson.read? j).map (Schema.mk ns)
    let paths ← Json.mapArr Json.str? (← req.need "paths")
    pure (pathFacts schema paths)
  | "parse_type_name" => do pure (typeAnswer (parseTypeName (← req.text? "name")))
  | "field_spec" => do pure (typeAnswer (← FieldSpec.ofJson? (← req.need "spec")).toBson)
  | "namespace" => namespaceAnswer req
  | "constant" => do pure (constantFacts (← Constant.read? (← req.need "value")))
  | "name" => do pure (operatorFacts (Operator.ofSpelling (← req.text? "canonical")))
  | "command" => do pure (commandFacts (← Command.ofLabel? (← req.text? "command")))
  | "cluster" => do
    let v ← req.text? "version"
    pure (.obj [("major_minor", Json.ofOption (fun (m, n) => Json.nats [m, n]) (majorMinor v))])
  | "explain_classify" => do pure (.str (ExplainPlan.classify (← req.need "output")).id)
  | "insight_kind" => do
    let k ← InsightKind.ofId? (← req.text? "kind")
    let args ← match req.get? "arguments" with
      | none | some .null => some []
      | some j => Json.mapArr Json.str? j
    pure (insightKindFacts k args)
  | "type_formats" => do
    let t ← Bson.read? (← req.need "type")
    pure (.obj [("java", .str t.javaText), ("mongosh", .str t.renderNullable)])
  | "dialect" => do pure (dialectFacts (← Dialect.ofId? (← req.text? "dialect")))
  | _ => none

end Requests

end QueryScope
