import QueryScope.Query.Node
import QueryScope.Json.Value
/-!
# Interchange form of types, values and query trees

Every type of the query model has one JSON form, written by `toJson` and read back by
`ofJson?`:

* a BSON type is `{"kind": k}` with an `"of"` member for arrays (the element), documents
  (field → type), enums (`members`, `name`), unions (the member list, read through
  `Bson.unionMembers` but kept a union) and computed types (`base`, `expression`);
* a constant is `{"type": t, "value": v}`;
* a node is `{"source", "components"}`, each component an object with one member named after
  its kind; reading a node adds its components in order (`Node.ofComponents`);
* a reference with no data is the string `"Unknown"`.

Sources are expression ids, or `null` in trees whose sources are erased: the expression of a
computed type is such a tree. Reading is bounded by the nesting depth of the document.
-/

namespace QueryScope

/-- How the sources of a tree are written: expression ids, or `null` once erased. -/
inductive SourceMode where
  | exprs
  | erased
deriving DecidableEq

namespace Json

/-- A required member. -/
def need (j : Json) (k : String) : Option Json := j.get? k

/-- The variant name and content of an externally tagged value: a bare name, or an object
with exactly one member. -/
def variant? : Json → Option (String × Json)
  | .str s => some (s, .null)
  | .obj [(k, v)] => some (k, v)
  | _ => none

/-- A signed integer within bounds. -/
def intIn (lo hi : Int) : Json → Option Int
  | .int n => if lo ≤ n ∧ n ≤ hi then some n else none
  | _ => none

/-- A 32-bit signed integer. -/
def int32? (j : Json) : Option Int := intIn (-2147483648) 2147483647 j

/-- A 64-bit signed integer. -/
def int64? (j : Json) : Option Int := intIn (-9223372036854775808) 9223372036854775807 j

/-- A 32-bit unsigned integer. -/
def uint32? (j : Json) : Option Nat := (intIn 0 4294967295 j).map Int.toNat

/-- A 64-bit unsigned integer. -/
def uint64? (j : Json) : Option Nat := (intIn 0 18446744073709551615 j).map Int.toNat

/-- Read every item of an array. -/
def mapArr {α : Type} (f : Json → Option α) (j : Json) : Option (List α) :=
  match j with
  | .arr xs => xs.mapM f
  | _ => none

/-- An optional member: missing or `null` is `none`, otherwise it must read. -/
def optional {α : Type} (f : Json → Option α) (j : Json) (k : String) : Option (Option α) :=
  match j.get? k with
  | none | some .null => some none
  | some v => (f v).map some

end Json

/-! ### Writing -/

/-- The form of a source. -/
def Origin.toJson : Origin → Json
  | .expr n => .ofNat n
  | .erased => .null

/-- The form of a namespace. -/
def Namespace.toJson (ns : Namespace) : Json :=
  .obj [("database", .str ns.database), ("collection", .str ns.collection)]

/-- The form of a double: a number, or `null` when it is not finite. -/
def floatJson (x : Float) : Json := .num x

mutual
/-- The form of a constant value. -/
def Constant.toJson : Constant → Json
  | .null => .obj [("type", .str "null")]
  | .boolean b => .obj [("type", .str "boolean"), ("value", .bool b)]
  | .int32 n => .obj [("type", .str "int32"), ("value", .int n)]
  | .int64 n => .obj [("type", .str "int64"), ("value", .int n)]
  | .double x => .obj [("type", .str "double"), ("value", floatJson x)]
  | .decimal s => .obj [("type", .str "decimal"), ("value", .str s)]
  | .string s => .obj [("type", .str "string"), ("value", .str s)]
  | .date n => .obj [("type", .str "date"), ("value", .int n)]
  | .objectId s => .obj [("type", .str "objectId"), ("value", .str s)]
  | .enumConstant c k =>
    .obj [("type", .str "enum"), ("value", .obj [("class", .str c), ("constant", .str k)])]
  | .array xs => .obj [("type", .str "array"), ("value", .arr (Constant.toJsonList xs))]

/-- The forms of a list of constants. -/
def Constant.toJsonList : List Constant → List Json
  | [] => []
  | x :: xs => Constant.toJson x :: Constant.toJsonList xs
end

/-- The form of a field reference. -/
def FieldRef.toJson : FieldRef → Json
  | .unknown => .str "Unknown"
  | .named k s p d =>
    let tag := match k with
      | .fromSchema => "FromSchema"
      | .computed => "Computed"
      | .inferred => "Inferred"
    .tagged tag (.obj [("source", s.toJson), ("field_name", .str p), ("display_name", .str d)])

/-- The constructor name of a branch. -/
def Branch.label (b : Branch) : String := b.kind.label

mutual
/-- The form of a type. -/
def Bson.toJson : Bson → Json
  | .null => .obj [("kind", .str "null")]
  | .boolean => .obj [("kind", .str "boolean")]
  | .int32 => .obj [("kind", .str "int32")]
  | .int64 => .obj [("kind", .str "int64")]
  | .double => .obj [("kind", .str "double")]
  | .decimal128 => .obj [("kind", .str "decimal128")]
  | .string => .obj [("kind", .str "string")]
  | .objectId => .obj [("kind", .str "objectId")]
  | .uuid => .obj [("kind", .str "uuid")]
  | .date => .obj [("kind", .str "date")]
  | .any => .obj [("kind", .str "any")]
  | .array t => .obj [("kind", .str "array"), ("of", Bson.toJson t)]
  | .object fs => .obj [("kind", .str "object"), ("of", .obj (Bson.toJsonFields fs))]
  | .enumeration ms n =>
    .obj [("kind", .str "enum"), ("of", .obj [("members", .strs ms), ("name", .optStr n)])]
  | .anyOf ms => .obj [("kind", .str "anyOf"), ("of", .arr (Bson.toJsonList ms))]
  | .computed b e =>
    .obj [("kind", .str "computed"),
      ("of", .obj [("base", Bson.toJson b), ("expression", Node.toJson e)])]

/-- The forms of a list of types. -/
def Bson.toJsonList : List Bson → List Json
  | [] => []
  | t :: ts => Bson.toJson t :: Bson.toJsonList ts

/-- The forms of a document's field types. -/
def Bson.toJsonFields : List (String × Bson) → List (String × Json)
  | [] => []
  | (k, t) :: fs => (k, Bson.toJson t) :: Bson.toJsonFields fs

/-- The form of a node. -/
def Node.toJson : Node → Json
  | .mk s cs => .obj [("source", s.toJson), ("components", .arr (Node.toJsonComponents cs))]

/-- The forms of a list of nodes. -/
def Node.toJsonList : List Node → List Json
  | [] => []
  | n :: ns => Node.toJson n :: Node.toJsonList ns

/-- The forms of a list of components. -/
def Node.toJsonComponents : List Component → List Json
  | [] => []
  | c :: cs => Component.toJson c :: Node.toJsonComponents cs

/-- The form of a component. -/
def Component.toJson : Component → Json
  | .collection r => .tagged "CollectionReference" (.obj [("reference", CollectionRef.toJson r)])
  | .field r => .tagged "FieldReference" (.obj [("reference", r.toJson)])
  | .value r => .tagged "ValueReference" (.obj [("reference", ValueRef.toJson r)])
  | .branch b ns => .tagged b.label (.obj [("children", .arr (Node.toJsonList ns))])
  | .limit n => .tagged "Limit" (.obj [("limit", .int n)])
  | .named o => .tagged "Named" (.obj [("name", .str o.label)])
  | .command c => .tagged "Command" (.obj [("command_type", .str c.label)])
  | .dialect d => .tagged "SourceDialect" (.obj [("dialect", .str d.id)])
  | .targetCluster v => .tagged "TargetCluster" (.obj [("version", .str v)])
  | .explain l => .tagged "Explain" (.obj [("explain_type", .str l.id)])

/-- The form of a value reference. -/
def ValueRef.toJson : ValueRef → Json
  | .constant s v t => .tagged "Constant"
      (.obj [("source", s.toJson), ("value", v.toJson), ("bson_type", Bson.toJson t)])
  | .runtime s t => .tagged "Runtime" (.obj [("source", s.toJson), ("bson_type", Bson.toJson t)])
  | .computed s t => .tagged "Computed" (.obj [("source", s.toJson), ("bson_type", Bson.toJson t)])
  | .inferred s v t => .tagged "Inferred"
      (.obj [("source", s.toJson), ("value", v.toJson), ("bson_type", Bson.toJson t)])
  | .unknown => .str "Unknown"

/-- The form of a collection reference. -/
def CollectionRef.toJson : CollectionRef → Json
  | .known d c ns sc => .tagged "Known"
      (.obj [("database_source", Json.ofOption Origin.toJson d), ("collection_source", c.toJson),
        ("namespace", ns.toJson), ("schema", Schema.toJsonOption sc)])
  | .onlyCollection c coll => .tagged "OnlyCollection"
      (.obj [("collection_source", c.toJson), ("collection", .str coll)])
  | .unknown => .str "Unknown"

/-- The form of an optional schema. -/
def Schema.toJsonOption : Option Schema → Json
  | none => .null
  | some s => Schema.toJson s

/-- The form of a collection schema. -/
def Schema.toJson : Schema → Json
  | .mk ns t => .obj [("namespace", ns.toJson), ("schema", Bson.toJson t)]
end

/-! ### Reading -/

/-- Read a source. -/
def Origin.ofJson? : SourceMode → Json → Option Origin
  | .exprs, j => (Json.uint32? j).map .expr
  | .erased, .null => some .erased
  | .erased, _ => none

/-- Read a namespace. -/
def Namespace.ofJson? (j : Json) : Option Namespace := do
  let db ← (← j.need "database").str?
  let coll ← (← j.need "collection").str?
  pure ⟨db, coll⟩

/-- Read a double: any number. -/
def floatOfJson? (j : Json) : Option Float := j.float?

/-- Read a constant value; `fuel` bounds the nesting. -/
def Constant.ofJson? : Nat → Json → Option Constant
  | 0, _ => none
  | fuel + 1, j => do
    let t ← (← j.need "type").str?
    let v := (j.get? "value").getD .null
    match t with
    | "null" => if v.isNull then pure .null else none
    | "boolean" => .boolean <$> v.bool?
    | "int32" => .int32 <$> Json.int32? v
    | "int64" => .int64 <$> Json.int64? v
    | "double" => .double <$> floatOfJson? v
    | "decimal" => .decimal <$> v.str?
    | "string" => .string <$> v.str?
    | "date" => .date <$> Json.int64? v
    | "objectId" => .objectId <$> v.str?
    | "enum" => do
      let c ← (← v.need "class").str?
      let k ← (← v.need "constant").str?
      pure (.enumConstant c k)
    | "array" => .array <$> Json.mapArr (Constant.ofJson? fuel) v
    | _ => none

/-- Read the name of a field reference kind. -/
def FieldKind.ofTag? : String → Option FieldKind
  | "FromSchema" => some .fromSchema
  | "Computed" => some .computed
  | "Inferred" => some .inferred
  | _ => none

/-- Read a field reference. -/
def FieldRef.ofJson? (mode : SourceMode) (j : Json) : Option FieldRef := do
  let (tag, body) ← Json.variant? j
  if tag == "Unknown" then
    if body.isNull then pure .unknown else none
  else
    let k ← FieldKind.ofTag? tag
    let s ← Origin.ofJson? mode (← body.need "source")
    let p ← (← body.need "field_name").str?
    let d ← (← body.need "display_name").str?
    pure (.named k s p d)

/-- Read a branch by its constructor name. -/
def Branch.ofLabel? (s : String) : Option Branch :=
  Branch.known.find? (·.label == s)

mutual
/-- Read a type; `fuel` bounds the nesting. -/
def Bson.ofJson? : Nat → Json → Option Bson
  | 0, _ => none
  | fuel + 1, j => do
    let kind ← (← j.need "kind").str?
    let content := (j.get? "of").getD .null
    match kind with
    | "null" => if content.isNull then pure .null else none
    | "boolean" => if content.isNull then pure .boolean else none
    | "int32" => if content.isNull then pure .int32 else none
    | "int64" => if content.isNull then pure .int64 else none
    | "double" => if content.isNull then pure .double else none
    | "decimal128" => if content.isNull then pure .decimal128 else none
    | "string" => if content.isNull then pure .string else none
    | "objectId" => if content.isNull then pure .objectId else none
    | "uuid" => if content.isNull then pure .uuid else none
    | "date" => if content.isNull then pure .date else none
    | "any" => if content.isNull then pure .any else none
    | "array" => .array <$> Bson.ofJson? fuel content
    | "object" => do
      let ms ← content.obj?
      let fs ← ms.mapM fun (k, v) => (Bson.ofJson? fuel v).map (k, ·)
      pure (Bson.objectOf fs)
    | "enum" => do
      let ms ← (← content.need "members").arr?
      let names ← ms.mapM Json.str?
      let name ← Json.optional Json.str? content "name"
      pure (Bson.enumOf names name)
    | "anyOf" => do
      let ts ← Json.mapArr (Bson.ofJson? fuel) content
      pure (.anyOf (Bson.unionMembers ts))
    | "computed" => do
      let b ← Bson.ofJson? fuel (← content.need "base")
      let e ← Node.ofJson? .erased fuel (← content.need "expression")
      pure (.computed b e)
    | _ => none

/-- Read a node; `fuel` bounds the nesting. -/
def Node.ofJson? (mode : SourceMode) : Nat → Json → Option Node
  | 0, _ => none
  | fuel + 1, j => do
    let s ← Origin.ofJson? mode (← j.need "source")
    let cs ← Json.mapArr (Component.ofJson? mode fuel) (← j.need "components")
    pure (Node.ofComponents s cs)

/-- Read a component. -/
def Component.ofJson? (mode : SourceMode) : Nat → Json → Option Component
  | 0, _ => none
  | fuel + 1, j => do
    let (tag, body) ← Json.variant? j
    match tag with
    | "CollectionReference" => .collection <$> CollectionRef.ofJson? mode fuel (← body.need "reference")
    | "FieldReference" => .field <$> FieldRef.ofJson? mode (← body.need "reference")
    | "ValueReference" => .value <$> ValueRef.ofJson? mode fuel (← body.need "reference")
    | "Limit" => .limit <$> Json.int32? (← body.need "limit")
    | "Named" => .named <$> (Operator.ofLabel? (← (← body.need "name").str?))
    | "Command" => .command <$> (Command.ofLabel? (← (← body.need "command_type").str?))
    | "SourceDialect" => .dialect <$> (Dialect.ofId? (← (← body.need "dialect").str?))
    | "TargetCluster" => .targetCluster <$> (← body.need "version").str?
    | "Explain" => .explain <$> (ExplainLevel.ofId? (← (← body.need "explain_type").str?))
    | other => do
      let b ← Branch.ofLabel? other
      let ns ← Json.mapArr (Node.ofJson? mode fuel) (← body.need "children")
      pure (.branch b ns)

/-- Read a value reference. -/
def ValueRef.ofJson? (mode : SourceMode) : Nat → Json → Option ValueRef
  | 0, _ => none
  | fuel + 1, j => do
    let (tag, body) ← Json.variant? j
    match tag with
    | "Unknown" => if body.isNull then pure .unknown else none
    | "Constant" | "Inferred" => do
      let s ← Origin.ofJson? mode (← body.need "source")
      let v ← Constant.ofJson? fuel (← body.need "value")
      let t ← Bson.ofJson? fuel (← body.need "bson_type")
      pure (if tag == "Constant" then .constant s v t else .inferred s v t)
    | "Runtime" | "Computed" => do
      let s ← Origin.ofJson? mode (← body.need "source")
      let t ← Bson.ofJson? fuel (← body.need "bson_type")
      pure (if tag == "Runtime" then .runtime s t else .computed s t)
    | _ => none

/-- Read a collection reference. -/
def CollectionRef.ofJson? (mode : SourceMode) : Nat → Json → Option CollectionRef
  | 0, _ => none
  | fuel + 1, j => do
    let (tag, body) ← Json.variant? j
    match tag with
    | "Unknown" => if body.isNull then pure .unknown else none
    | "Known" => do
      let d ← Json.optional (Origin.ofJson? mode) body "database_source"
      let c ← Origin.ofJson? mode (← body.need "collection_source")
      let ns ← Namespace.ofJson? (← body.need "namespace")
      let sc ← match body.get? "schema" with
        | none | some .null => some none
        | some v => (Schema.ofJson? fuel v).map some
      pure (.known d c ns sc)
    | "OnlyCollection" => do
      let c ← Origin.ofJson? mode (← body.need "collection_source")
      let coll ← (← body.need "collection").str?
      pure (.onlyCollection c coll)
    | _ => none

/-- Read a collection schema. -/
def Schema.ofJson? : Nat → Json → Option Schema
  | 0, _ => none
  | fuel + 1, j => do
    let ns ← Namespace.ofJson? (← j.need "namespace")
    let t ← Bson.ofJson? fuel (← j.need "schema")
    pure (.mk ns t)
end

/-- Read a type from a whole document. -/
def Bson.read? (j : Json) : Option Bson := Bson.ofJson? (j.depth + 1) j

/-- Read a constant from a whole document. -/
def Constant.read? (j : Json) : Option Constant := Constant.ofJson? (j.depth + 1) j

/-- Read a node from a whole document. -/
def Node.read? (mode : SourceMode) (j : Json) : Option Node := Node.ofJson? mode (j.depth + 1) j

/-- Read a schema from a whole document. -/
def Schema.read? (j : Json) : Option Schema := Schema.ofJson? (j.depth + 1) j

end QueryScope
