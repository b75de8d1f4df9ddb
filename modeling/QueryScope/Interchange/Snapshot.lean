import QueryScope.Interchange.Document
import QueryScope.Interchange.Catalog
import QueryScope.Catalog.Snapshot
/-!
# Interchange form of metadata snapshots

A snapshot is a record `{buildInfo, databases}`, a database `{name, collections}`, a collection
`{name, fields, explain}` and build information `{version, isAtlas, isEnterprise}`, all keys
camelCase. A record is read from a mapping, whose other keys are ignored, or from a list giving
its fields by position; every field but a name or a version may be left out. A field type is
text (a type name), a list (the element type) or a mapping (the fields of a document), and the
fields of a collection or document are kept sorted by name.

The readers work on any `Document`, so a snapshot reads the same from JSON and from YAML.
-/

namespace QueryScope

section Reading

variable {α : Type} [Document α]

namespace Document

/-- An optional value: absent or null is none. -/
def optional? {β : Type} (f : α → Option β) : Option α → Option (Option β)
  | none => some none
  | some v => if isNull v then some none else (f v).map some

/-- A value with a default when absent. -/
def withDefault? {β : Type} (default : β) (f : α → Option β) : Option α → Option β
  | none => some default
  | some v => f v

/-- A list of values. -/
def list? {β : Type} (f : α → Option β) (d : α) : Option (List β) := do
  (← items? d).mapM f

end Document

/-- Read a field type, at most `fuel` levels deep. -/
def FieldSpec.read? : Nat → α → Option FieldSpec
  | 0, _ => none
  | fuel + 1, d =>
    match Document.untypedText? d with
    | some s => some (.name s)
    | none =>
      if !Document.isCollection d then none
      else match Document.items? d, Document.members? d with
        | some xs, _ => .arrayOf <$> xs.mapM (FieldSpec.read? fuel)
        | none, some ms => do
          let fs ← ms.mapM fun (k, v) => (k, ·) <$> FieldSpec.read? fuel v
          pure (.document (fs.foldl (fun acc (k, s) => FieldSpec.insertSorted k s acc) []))
        | none, none => none

/-- Read the field types of a collection, kept sorted by name. -/
def FieldSpec.readFields? (d : α) : Option (List (String × FieldSpec)) := do
  let fs ← (← Document.members? d).mapM fun (k, v) =>
    (k, ·) <$> FieldSpec.read? (Document.depth v + 1) v
  pure (fs.foldl (fun acc (k, s) => FieldSpec.insertSorted k s acc) [])

/-- Read build information. -/
def BuildInfo.read? (d : α) : Option BuildInfo := do
  let r ← Document.record? ["version", "isAtlas", "isEnterprise"] d
  let version ← Document.text? (← r.lookup "version")
  let isAtlas ← Document.withDefault? false Document.flag? (r.lookup "isAtlas")
  let isEnterprise ← Document.withDefault? false Document.flag? (r.lookup "isEnterprise")
  pure { version, isAtlas, isEnterprise }

/-- Read an explain plan by its name. -/
def ExplainPlan.read? (d : α) : Option ExplainPlan := do
  ExplainPlan.ofId? (← Document.text? d)

/-- Read a collection of a snapshot. -/
def CollectionSnapshot.read? (d : α) : Option CollectionSnapshot := do
  let r ← Document.record? ["name", "fields", "explain"] d
  let name ← Document.text? (← r.lookup "name")
  let fields ← Document.withDefault? [] FieldSpec.readFields? (r.lookup "fields")
  let explain ← Document.optional? ExplainPlan.read? (r.lookup "explain")
  pure { name, fields, explain }

/-- Read a database of a snapshot. -/
def DatabaseSnapshot.read? (d : α) : Option DatabaseSnapshot := do
  let r ← Document.record? ["name", "collections"] d
  let name ← Document.text? (← r.lookup "name")
  let collections ← Document.withDefault? [] (Document.list? CollectionSnapshot.read?)
    (r.lookup "collections")
  pure { name, collections }

/-- Read a snapshot. -/
def Snapshot.read? (d : α) : Option Snapshot := do
  let r ← Document.record? ["buildInfo", "databases"] d
  let buildInfo ← Document.optional? BuildInfo.read? (r.lookup "buildInfo")
  let databases ← Document.withDefault? [] (Document.list? DatabaseSnapshot.read?)
    (r.lookup "databases")
  pure { buildInfo, databases }

end Reading

mutual
/-- The form of a field type. -/
def FieldSpec.toJson : FieldSpec → Json
  | .name s => .str s
  | .arrayOf xs => .arr (FieldSpec.listToJson xs)
  | .document fs => .obj (FieldSpec.fieldsToJson fs)

/-- The forms of a list of field types. -/
def FieldSpec.listToJson : List FieldSpec → List Json
  | [] => []
  | x :: xs => FieldSpec.toJson x :: FieldSpec.listToJson xs

/-- The forms of the fields of a document. -/
def FieldSpec.fieldsToJson : List (String × FieldSpec) → List (String × Json)
  | [] => []
  | (k, s) :: fs => (k, FieldSpec.toJson s) :: FieldSpec.fieldsToJson fs
end

/-- The form of build information. -/
def BuildInfo.toJson (b : BuildInfo) : Json :=
  .obj [("isAtlas", .bool b.isAtlas), ("isEnterprise", .bool b.isEnterprise),
    ("version", .str b.version)]

/-- The form of a snapshot. -/
def Snapshot.toJson (s : Snapshot) : Json :=
  .obj [("buildInfo", Json.ofOption BuildInfo.toJson s.buildInfo),
    ("databases", .arr (s.databases.map fun db =>
      .obj [("collections", .arr (db.collections.map fun c =>
          .obj [("explain", Json.ofOption (fun p => .str p.id) c.explain),
            ("fields", .obj (FieldSpec.fieldsToJson c.fields)), ("name", .str c.name)])),
        ("name", .str db.name)]))]

end QueryScope
