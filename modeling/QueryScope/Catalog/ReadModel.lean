import QueryScope.Catalog.Snapshot
/-!
# Read models

A read model answers five calls on database metadata. It is a snapshot or a test catalog,
with failures injected per call. Every call is counted before its answer: a failure injected
for a call is its answer, and otherwise the source answers. The counts are a state that the
calls thread, so an answer can report how often each call was made.
-/

namespace QueryScope

/-- The calls a read model answers. -/
inductive ReadCall where
  | listDatabases
  | listCollections
  | getCollectionSchema
  | explainQuery
  | buildInfo
deriving DecidableEq, Repr

namespace ReadCall

/-- All calls, in the order their counts are reported. -/
def all : List ReadCall :=
  [.listDatabases, .listCollections, .getCollectionSchema, .explainQuery, .buildInfo]

/-- The name of a call. -/
def name : ReadCall → String
  | .listDatabases => "listDatabases"
  | .listCollections => "listCollections"
  | .getCollectionSchema => "getCollectionSchema"
  | .explainQuery => "explainQuery"
  | .buildInfo => "buildInfo"

/-- The call of a name. -/
def ofName? (s : String) : Option ReadCall := all.find? (·.name == s)

theorem ofName?_name (c : ReadCall) : ofName? c.name = some c := by
  cases c <;> rfl

end ReadCall

/-- How often each call was made. -/
structure CallCounts where
  listDatabases : Nat := 0
  listCollections : Nat := 0
  getCollectionSchema : Nat := 0
  explainQuery : Nat := 0
  buildInfo : Nat := 0

namespace CallCounts

/-- The count of a call. -/
def get (n : CallCounts) : ReadCall → Nat
  | .listDatabases => n.listDatabases
  | .listCollections => n.listCollections
  | .getCollectionSchema => n.getCollectionSchema
  | .explainQuery => n.explainQuery
  | .buildInfo => n.buildInfo

/-- The counts with one more of a call. -/
def bump (n : CallCounts) : ReadCall → CallCounts
  | .listDatabases => { n with listDatabases := n.listDatabases + 1 }
  | .listCollections => { n with listCollections := n.listCollections + 1 }
  | .getCollectionSchema => { n with getCollectionSchema := n.getCollectionSchema + 1 }
  | .explainQuery => { n with explainQuery := n.explainQuery + 1 }
  | .buildInfo => { n with buildInfo := n.buildInfo + 1 }

theorem get_bump (n : CallCounts) (c d : ReadCall) :
    (n.bump c).get d = n.get d + if c = d then 1 else 0 := by
  cases c <;> cases d <;> simp [bump, get]

end CallCounts

/-- Computations that make read-model calls, counting them. -/
abbrev Reads := StateM CallCounts

/-- Where a read model takes its answers from. -/
inductive MetadataSource where
  | snapshot (s : Snapshot)
  | catalog (c : TestCatalog)

/-- A read model: a source, and the failures injected for some calls. -/
structure ReadModel where
  source : MetadataSource
  failures : List (ReadCall × CatalogError) := []

namespace ReadModel

/-- Make a call: count it, then answer with its injected failure or with `answer`. -/
def call {α : Type} (m : ReadModel) (c : ReadCall) (answer : Except CatalogError α) :
    Reads (Except CatalogError α) := do
  modify (·.bump c)
  match m.failures.lookup c with
  | some e => pure (.error e)
  | none => pure answer

/-- The names of the databases. -/
def listDatabases (m : ReadModel) : Reads (Except CatalogError (List String)) :=
  m.call .listDatabases <| match m.source with
    | .snapshot s => .ok s.databaseNames
    | .catalog c => .ok (c.databases.map (·.1))

/-- The names of the collections of a database. -/
def listCollections (m : ReadModel) (db : String) : Reads (Except CatalogError (List String)) :=
  m.call .listCollections <| match m.source with
    | .snapshot s => s.collectionNames db
    | .catalog c => c.collectionNames db

/-- The schema of a collection; sources without a server take no sample, so the sample size
does not change the answer. -/
def collectionSchema (m : ReadModel) (ns : Namespace) (_sampleSize : Nat) :
    Reads (Except CatalogError Schema) :=
  m.call .getCollectionSchema <| match m.source with
    | .snapshot s => s.schema ns
    | .catalog c => c.schema ns

/-- The plan an explain of a query reports. -/
def explainQuery (m : ReadModel) (q : Node) (level : ExplainLevel) :
    Reads (Except CatalogError ExplainPlan) :=
  m.call .explainQuery <| match m.source with
    | .snapshot s => s.explain q level
    | .catalog c => c.explain q level

/-- The server's build information. -/
def buildInfo (m : ReadModel) : Reads (Except CatalogError BuildInfo) :=
  m.call .buildInfo <| match m.source with
    | .snapshot s => s.build
    | .catalog c => c.build

end ReadModel

end QueryScope
