import QueryScope.Interchange.ReadModel
import QueryScope.Interchange.Lint
import QueryScope.Lint.Gather
import QueryScope.Service.Decorate
import QueryScope.Requests.Lint
import QueryScope.Requests.Values
/-!
# Requests on read models

Calls made on a read model one after another, the metadata gathered for a query (optionally
linted), and a query decorated from a read model. An answer from a test catalog also reports
how often each call was made.
-/

namespace QueryScope

namespace Requests

/-- A call a request makes on a read model. -/
inductive ModelCall where
  | listDatabases
  | listCollections (database : String)
  | collectionSchema (ns : Namespace) (sampleSize : Nat)
  | explainQuery (q : Node) (level : ExplainLevel)
  | buildInfo
  /-- The snapshot behind the model, when it has one. -/
  | snapshot

namespace ModelCall

/-- Read a call. -/
def read? (j : Json) : Option ModelCall := do
  match ← j.text? "call" with
  | "listDatabases" => pure .listDatabases
  | "listCollections" => pure (.listCollections (← j.text? "database"))
  | "getCollectionSchema" =>
    let sampleSize ← Json.optional Json.nat? j "sample_size"
    pure (.collectionSchema ⟨← j.text? "database", ← j.text? "collection"⟩ (sampleSize.getD 50))
  | "explainQuery" =>
    let level ← Json.optional (fun l => l.str?.bind ExplainLevel.ofId?) j "explain"
    pure (.explainQuery (← Node.read? .erased (← j.need "node")) (level.getD .none))
  | "buildInfo" => pure .buildInfo
  | "snapshot" => pure .snapshot
  | _ => none

/-- The answer of a read: its value, or its failure. -/
def result {α : Type} (f : α → Json) : Except CatalogError α → Json
  | .ok v => .obj [("ok", f v)]
  | .error e => Json.failure e.label e.message

/-- Make a call and give its answer. -/
def run (m : ReadModel) : ModelCall → Reads Json
  | .listDatabases => result Json.strs <$> m.listDatabases
  | .listCollections db => result Json.strs <$> m.listCollections db
  | .collectionSchema ns n => result Schema.toJson <$> m.collectionSchema ns n
  | .explainQuery q l => result (fun p => .str p.id) <$> m.explainQuery q l
  | .buildInfo => result BuildInfo.toJson <$> m.buildInfo
  | .snapshot => pure <| match m.source with
    | .snapshot s => s.toJson
    | .catalog _ => .null

end ModelCall

/-- An answer, with the call counts when the model reports them. -/
def withCalls (m : ReadModel) (counts : CallCounts) (members : List (String × Json)) : Json :=
  if m.reportsCalls then .obj (members ++ [("calls", counts.toJson)]) else .obj members

/-- The answer to `read_model`. -/
def readModelAnswer (req : Json) : Option Json := do
  let m ← ReadModel.ofRequest? req
  let calls ← Json.mapArr ModelCall.read? (← req.need "calls")
  let (results, counts) := (calls.mapM (ModelCall.run m)).run {}
  pure (withCalls m counts [("results", .arr results)])

/-- What `require` says of a piece of metadata. -/
def requireFacts {α : Type} (d : Metadata α) : Json :=
  match d.require with
  | .ok (some _) => .str "some"
  | .ok none => .str "none"
  | .error e => .obj (failureFacts e.label e.message e.recoverable e.severity)

/-- Whether a piece of metadata was read, and what `require` says of it. -/
def metadataDetail {α : Type} (d : Metadata α) : Json :=
  .obj [("available", .bool d.isAvailable), ("require", requireFacts d)]

/-- The answer to `gather`. -/
def gatherAnswer (req : Json) : Option Json := do
  let m ← ReadModel.ofRequest? req
  let q ← Node.read? .exprs (← req.need "node")
  let sampleSize ← Json.optional Json.nat? req "sample_size"
  let level ← Json.optional (fun l => l.str?.bind ExplainLevel.ofId?) req "explain_plan"
  let g : Gatherer := { model := m, sampleSize := sampleSize.getD 50, explainLevel := level.getD .safe }
  let (input, counts) := (g.gather q).run {}
  let lint ← req.flag? "lint"
  let insights ← if lint then
      match ← requestInspections req with
      | .error e => some [("insights", e)]
      | .ok is => some [("insights", .arr ((Lint.run is q input).map Insight.export))]
    else some []
  let detail := if (← req.flag? "detail") then
      [("detail", .obj [("collections", metadataDetail input.collections),
        ("databases", metadataDetail input.databases), ("explain", metadataDetail input.explain),
        ("schema", metadataDetail input.schema)])]
    else []
  let members := match input.toJson with
    | .obj ms => ms
    | _ => []
  pure (withCalls m counts (members ++ insights ++ detail))

/-- The answer to `decorate`. -/
def decorateAnswer (req : Json) : Option Json := do
  let m ← ReadModel.ofRequest? req
  let q ← Node.read? .exprs (← req.need "node")
  let sampleSize ← Json.optional Json.nat? req "sample_size"
  let database ← Json.optional Json.str? req "database"
  let (q, counts) := (m.decorate (sampleSize.getD 50) q database).run {}
  if m.reportsCalls then pure (.obj [("node", q.toJson), ("calls", counts.toJson)])
  else pure q.toJson

/-- The answer to a request on read models. -/
def catalog (op : String) (req : Json) : Option Json :=
  match op with
  | "read_model" => readModelAnswer req
  | "gather" => gatherAnswer req
  | "decorate" => decorateAnswer req
  | _ => none

end Requests

end QueryScope
