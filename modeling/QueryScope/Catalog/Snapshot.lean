import QueryScope.Catalog.TypeName
import QueryScope.Catalog.Explain
import QueryScope.Query.Node
/-!
# Metadata snapshots and test catalogs

Two sources of database metadata that need no server:

* a *snapshot* lists databases and their collections, each with its field types written as
  type names and optionally the plan an explain would report, and optionally the server's
  build information;
* a *test catalog* holds databases by name, each with collections by name and their
  document types and plans; its collections report an index scan unless told otherwise.

Both answer the same questions: the databases, the collections of a database, the schema of
a collection, the plan of a query and the build information.
-/

namespace QueryScope

/-- What a server reports about its build. -/
structure BuildInfo where
  version : String
  isAtlas : Bool := false
  isEnterprise : Bool := false

/-- A collection of a snapshot. -/
structure CollectionSnapshot where
  name : String
  /-- The field types, sorted by field name. -/
  fields : List (String × FieldSpec) := []
  explain : Option ExplainPlan := none

/-- A database of a snapshot. -/
structure DatabaseSnapshot where
  name : String
  collections : List CollectionSnapshot := []

/-- A metadata snapshot. -/
structure Snapshot where
  buildInfo : Option BuildInfo := none
  databases : List DatabaseSnapshot := []

namespace Snapshot

/-- The names of the databases, in snapshot order. -/
def databaseNames (s : Snapshot) : List String := s.databases.map (·.name)

/-- The first database of a name. -/
def database (s : Snapshot) (name : String) : Except CatalogError DatabaseSnapshot :=
  match s.databases.find? (·.name == name) with
  | some db => .ok db
  | none => .error (.databaseNotFound name)

/-- The first collection of a namespace. -/
def collection (s : Snapshot) (ns : Namespace) : Except CatalogError CollectionSnapshot := do
  let db ← s.database ns.database
  match db.collections.find? (·.name == ns.collection) with
  | some c => .ok c
  | none => .error (.collectionNotFound ns)

/-- The names of the collections of a database. -/
def collectionNames (s : Snapshot) (db : String) : Except CatalogError (List String) := do
  pure ((← s.database db).collections.map (·.name))

/-- The schema of a collection: a document of its field types. -/
def schema (s : Snapshot) (ns : Namespace) : Except CatalogError Schema := do
  let c ← s.collection ns
  pure (.mk ns (.object (← FieldSpec.fieldsToBson c.fields)))

/-- The plan an explain of a query reports: not run at level `none`, else the plan stored for
the query's collection. -/
def explain (s : Snapshot) (q : Node) (level : ExplainLevel) : Except CatalogError ExplainPlan :=
  if level == .none then .ok .notRun
  else match q.namespace? with
    | none => .error .unresolvedNamespace
    | some ns => do
      match (← s.collection ns).explain with
      | some p => .ok p
      | none => .error (.notSupported ("no explain plan for " ++ ns.text))

/-- The build information, if the snapshot has it. -/
def build (s : Snapshot) : Except CatalogError BuildInfo :=
  match s.buildInfo with
  | some b => .ok b
  | none => .error (.notSupported "no build info in snapshot")

end Snapshot

/-- A collection of a test catalog. -/
structure TestCollection where
  schema : Bson
  explain : ExplainPlan := .indexScan

/-- A test catalog: databases by name, each with its collections by name, both kept sorted. -/
structure TestCatalog where
  databases : List (String × List (String × TestCollection)) := []
  buildInfo : Option BuildInfo := none

namespace TestCatalog

/-- Set the entry of a key in a list sorted by key, or add it in its place. -/
def upsert {β : Type} (k : String) (f : Option β → β) : List (String × β) → List (String × β)
  | [] => [(k, f none)]
  | (k', v) :: rest =>
    if k < k' then (k, f none) :: (k', v) :: rest
    else if k = k' then (k, f (some v)) :: rest
    else (k', v) :: upsert k f rest

/-- The catalog with a database, empty if it is new. -/
def withDatabase (c : TestCatalog) (db : String) : TestCatalog :=
  { c with databases := upsert db (·.getD []) c.databases }

/-- The catalog with a collection of a document type, reporting an index scan. -/
def withCollection (c : TestCatalog) (db coll : String) (t : Bson) : TestCatalog :=
  let add := fun (colls : Option (List (String × TestCollection))) =>
    upsert coll (fun _ => ⟨t, .indexScan⟩) (colls.getD [])
  { c with databases := upsert db add c.databases }

/-- The catalog with the plan of an existing collection changed. -/
def withExplain (c : TestCatalog) (ns : Namespace) (p : ExplainPlan) : TestCatalog :=
  { c with databases := c.databases.map fun (db, colls) =>
      if db == ns.database then
        (db, colls.map fun (name, tc) => if name == ns.collection then (name, { tc with explain := p }) else (name, tc))
      else (db, colls) }

/-- The catalog with build information. -/
def withBuildInfo (c : TestCatalog) (b : BuildInfo) : TestCatalog := { c with buildInfo := some b }

/-- The standard test catalog: server 7.0.2 and a `shop` database with `users` and `orders`. -/
def standard (c : TestCatalog) : TestCatalog :=
  let users := Bson.objectOf [("_id", .objectId), ("name", .string), ("email", .string),
    ("age", Bson.nullable .int32), ("status", .string), ("createdAt", .date)]
  let orders := Bson.objectOf [("_id", .objectId), ("customer", .objectId), ("total", .decimal128),
    ("status", .string), ("items", .array .string)]
  ((c.withBuildInfo ⟨"7.0.2", false, false⟩).withCollection "shop" "users" users).withCollection "shop" "orders" orders

/-- The collection of a namespace. -/
def collection (c : TestCatalog) (ns : Namespace) : Except CatalogError TestCollection :=
  match (c.databases.lookup ns.database).bind fun colls => colls.lookup ns.collection with
  | some tc => .ok tc
  | none => .error (.collectionNotFound ns)

/-- The names of the collections of a database. -/
def collectionNames (c : TestCatalog) (db : String) : Except CatalogError (List String) :=
  match c.databases.lookup db with
  | some colls => .ok (colls.map (·.1))
  | none => .error (.databaseNotFound db)

/-- The schema of a collection. -/
def schema (c : TestCatalog) (ns : Namespace) : Except CatalogError Schema := do
  pure (.mk ns (← c.collection ns).schema)

/-- The plan an explain of a query reports. -/
def explain (c : TestCatalog) (q : Node) (level : ExplainLevel) : Except CatalogError ExplainPlan :=
  if level == .none then .ok .notRun
  else match q.namespace? with
    | none => .error .unresolvedNamespace
    | some ns => do pure (← c.collection ns).explain

/-- The build information, if set. -/
def build (c : TestCatalog) : Except CatalogError BuildInfo :=
  match c.buildInfo with
  | some b => .ok b
  | none => .error (.notSupported "buildInfo")

end TestCatalog

end QueryScope
