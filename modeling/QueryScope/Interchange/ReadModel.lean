import QueryScope.Interchange.Snapshot
import QueryScope.Interchange.Errors
import QueryScope.Interchange.Bson
import QueryScope.Catalog.ReadModel
import QueryScope.Interchange.Yaml
/-!
# Interchange form of read models

A request names its read model by the first of the members `mock` (a test catalog),
`snapshot` (a snapshot as JSON) and `snapshot_yaml` (a snapshot as YAML text) that is present
and not null; without any, the model is an empty snapshot. Failures are injected into a
snapshot by `failures`, a mapping from call names to metadata failures, and into a test
catalog by its own `failing` member.

A test catalog is described by `standard` (the standard catalog), `databases` (names),
`collections` (`{database, collection, schema}`), `explain` (`{database, collection, plan}`)
and `build_info` (`{version, atlas}`), applied in that order.
-/

namespace QueryScope

/-- The form of call counts. -/
def CallCounts.toJson (n : CallCounts) : Json :=
  .obj (ReadCall.all.map fun c => (c.name, .ofNat (n.get c)))

/-- Read injected failures: call names and their failures. -/
def ReadCall.failures? (j : Json) : Option (List (ReadCall × CatalogError)) := do
  (← j.obj?).mapM fun (k, v) => do pure (← ReadCall.ofName? k, ← CatalogError.ofJson? v)

namespace TestCatalog

/-- Add the collections of a description. -/
def addCollection (c : TestCatalog) (j : Json) : Option TestCatalog := do
  pure (c.withCollection (← j.text? "database") (← j.text? "collection") (← Bson.read? (← j.need "schema")))

/-- Change the plan of a collection of a description. -/
def addExplain (c : TestCatalog) (j : Json) : Option TestCatalog := do
  let ns : Namespace := ⟨← j.text? "database", ← j.text? "collection"⟩
  pure (c.withExplain ns (← ExplainPlan.ofId? (← j.text? "plan")))

/-- Read a test catalog, with its injected failures. -/
def read? (j : Json) : Option ReadModel := do
  let c : TestCatalog := {}
  let c := if (← j.flag? "standard") then c.standard else c
  let c ← match j.get? "databases" with
    | none | some .null => pure c
    | some ds => do pure ((← Json.mapArr Json.str? ds).foldl withDatabase c)
  let c ← match j.get? "collections" with
    | none | some .null => pure c
    | some cs => (← cs.arr?).foldlM addCollection c
  let c ← match j.get? "explain" with
    | none | some .null => pure c
    | some es => (← es.arr?).foldlM addExplain c
  let c ← match j.get? "build_info" with
    | none | some .null => pure c
    | some b => do pure (c.withBuildInfo ⟨← b.text? "version", ← b.flag? "atlas", false⟩)
  let failures ← match j.get? "failing" with
    | none | some .null => pure []
    | some f => ReadCall.failures? f
  pure { source := .catalog c, failures }

end TestCatalog

/-- Read a snapshot from YAML text. -/
def Snapshot.ofYaml? (s : String) : Option Snapshot := do
  Snapshot.read? (← Yaml.parse? s)

/-- Read the read model of a request. A snapshot that does not read is no read model. -/
def ReadModel.ofRequest? (req : Json) : Option ReadModel := do
  match req.opt? "mock" with
  | some m => TestCatalog.read? m
  | none =>
    let failures ← match req.opt? "failures" with
      | none => pure []
      | some f => ReadCall.failures? f
    let snapshot ← match req.opt? "snapshot", req.opt? "snapshot_yaml" with
      | some s, _ => Snapshot.read? s
      | none, some y => Snapshot.ofYaml? (← y.str?)
      | none, none => pure {}
    pure { source := .snapshot snapshot, failures }

/-- Whether a read model counts its calls for the answer. -/
def ReadModel.reportsCalls (m : ReadModel) : Bool :=
  match m.source with
  | .catalog _ => true
  | .snapshot _ => false

end QueryScope
