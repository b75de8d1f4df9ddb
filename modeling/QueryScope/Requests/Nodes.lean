import QueryScope.Interchange.Shell
import QueryScope.Interchange.Errors
import QueryScope.Shell.Index
/-!
# Requests on query trees

The answers about a query tree given as JSON: its views (name, namespace, filters, field
references, walk, index suggestion), its parts (components by kind, references of each
node), and its shell script.
-/

namespace QueryScope

namespace Requests

/-- The sources of a list of nodes. -/
def sources (ns : List Node) : Json := .arr (ns.map (·.source.toJson))

/-- The answer to `node`. -/
def nodeAnswer (req : Json) : Option Json := do
  let n ← Node.read? .exprs (← req.need "node")
  let base : List (String × Json) :=
    [("normalized", n.toJson), ("name", Json.ofOption (fun o => .str o.label) n.operator?),
      ("namespace", Json.ofOption (fun ns => .str ns.text) n.namespace?),
      ("filters", sources n.allFilters), ("field_refs", sources n.fieldReferences),
      ("walk", .ofNat n.walk.length), ("index", .str n.indexCommand)]
  let withDb ← match req.get? "database" with
    | none | some .null => some []
    | some j => do pure [("overwritten", (n.withDatabase (← j.str?)).toJson)]
  let withSchema ← match req.get? "schema" with
    | none | some .null => some []
    | some j => do pure [("injected", (n.withSchema (← Schema.read? j)).toJson)]
  let withTarget ← match req.get? "target" with
    | none | some .null => some []
    | some j => do pure [("targeted", (n.withTargetCluster (← j.str?)).toJson)]
  pure (.obj (base ++ withDb ++ withSchema ++ withTarget))

/-- The facts of a node's field reference. -/
def fieldFacts (r : FieldRef) : Json :=
  .obj [("name", Json.optStr r.path?), ("source", Json.ofOption Origin.toJson r.source?),
    ("renamed", (r.withDisplay "renamed").toJson)]

/-- The facts of a node's value reference. -/
def valueFacts (r : ValueRef) : Json :=
  .obj [("bson_type", Json.ofOption Bson.toJson r.type?),
    ("source", Json.ofOption Origin.toJson r.source?),
    ("constant", Json.ofOption Constant.toJson r.constant?)]

/-- The facts of a node's collection reference. -/
def collectionFacts (r : CollectionRef) : Json :=
  .obj [("namespace", Json.ofOption (fun ns => .str ns.text) r.namespace?),
    ("collection", Json.optStr r.collection?),
    ("or_unknown", .obj [("reference", (r.orElse .unknown).toJson)]),
    ("unknown_or", .obj [("reference", (CollectionRef.unknown.orElse r).toJson)])]

/-- The references of one node. -/
def referenceFacts (n : Node) : Json :=
  .obj [("source", n.source.toJson), ("field", Json.ofOption fieldFacts n.fieldRef?),
    ("value", Json.ofOption valueFacts n.valueRef?),
    ("collection", Json.ofOption collectionFacts n.collectionRef?),
    ("role", Json.ofOption (fun o => .str o.role.label) n.operator?),
    ("explain", Json.optStr (n.explain?.bind ExplainLevel.verbosity))]

/-- A source moved up by a thousand. -/
def Origin.shift : Origin → Origin
  | .expr k => .expr (k + 1000)
  | .erased => .erased

/-- The answer to `node_parts`. -/
def nodePartsAnswer (req : Json) : Option Json := do
  let n ← Node.read? .exprs (← req.need "node")
  let kinds := n.components.map Component.kind
  let present := ComponentKind.known.filter fun k => (n.componentOfKind? k).isSome
  let withChildren := n.components.filterMap fun c =>
    if c.children.isEmpty then none
    else some (Json.arr [.str c.kind.label, .ofNat c.children.length])
  pure (.obj [("kinds", .strs (kinds.map ComponentKind.label)),
    ("present", .strs (present.map ComponentKind.label)), ("with_children", .arr withChildren),
    ("has", .obj [("filter", .bool (n.has .filter)), ("collection", .bool (n.has .collectionReference)),
      ("field", .bool (n.has .fieldReference)), ("value", .bool (n.has .valueReference))]),
    ("erased", n.erase.toJson), ("shifted", (n.mapSource Origin.shift).toJson),
    ("refs", .arr (n.walk.map referenceFacts))])

/-- The answer to `format_node`. -/
def formatNodeAnswer (req : Json) : Option Json := do
  let n ← Node.read? .exprs (← req.need "node")
  let ctx ← Shell.Context.ofJson? ((req.get? "context").getD .null)
  let n ← match req.get? "explain" with
    | none | some .null => some n
    | some j => do pure (n.withExplain (← ExplainLevel.ofId? (← j.str?)))
  let java ← match req.get? "formatter" with
    | none | some .null => some false
    | some (.str "java") => some true
    | some (.str "mongosh") => some false
    | some _ => none
  if java then
    pure (.obj [("output", Shell.Rendered.none.toJson), ("text", .null)])
  else
    let out := Shell.formatQuery ctx n
    let withText ← req.flag? "with_text"
    let base := [("output", out.toJson), ("index", .str n.indexCommand)]
    pure (.obj (if withText then base ++ [("text", Json.optStr out.text?)] else base))

/-- The answer to a request on query trees, `none` for bad input or another operation. -/
def nodes (op : String) (req : Json) : Option Json :=
  match op with
  | "node" => nodeAnswer req
  | "node_parts" => nodePartsAnswer req
  | "format_node" => formatNodeAnswer req
  | _ => none

end Requests

end QueryScope
