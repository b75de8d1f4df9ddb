import QueryScope.Lowering.Parser
import QueryScope.Requests.Programs
import QueryScope.Requests.Values
import QueryScope.Interchange.Errors
/-!
# Requests on lowering

The answers about lowering: the steps of a lowering context, the lowering of each target
expression by a dialect's parser, and which expressions name a database, a collection or a
field.
-/

namespace QueryScope

namespace Requests

/-- A failure as its kind and message. -/
def LoweringError.brief (e : LoweringError) : Json := Json.failure e.label e.message

/-- What is known about a lowering context. -/
def contextFacts (c : LoweringContext) : Json :=
  let outcome := match c.outcome with
    | .success => Json.str "success"
    | .degraded es => .tagged "partial" (.arr (es.map LoweringError.brief))
  .obj [("dialect", .str c.dialect.id), ("depth", .ofNat c.depth), ("max_depth", .ofNat c.maxDepth),
    ("max_hops", .ofNat c.maxHops), ("has_errors", .bool c.hasErrors), ("outcome", outcome)]

/-- A step on a lowering context. -/
inductive ContextStep where
  | enter (what : String)
  | exit
  | addError (e : LoweringError)

/-- Read a step on a lowering context. -/
def ContextStep.ofJson? (j : Json) : Option ContextStep := do
  match ← j.text? "do" with
  | "enter" => .enter <$> j.text? "context"
  | "exit" => pure .exit
  | "add_error" => .addError <$> LoweringError.ofJson? (← j.need "error")
  | _ => none

/-- Take a step: the refusal to enter, if any, and the context after. -/
def ContextStep.run (c : LoweringContext) : ContextStep → Option LoweringError × LoweringContext
  | .enter what =>
    match c.enter what with
    | .error e => (some e, c)
    | .ok c => (none, c)
  | .exit => (none, c.exit)
  | .addError e => (none, c.addError e)

/-- The answer to `lowering_context`. -/
def loweringContextAnswer (req : Json) : Option Json := do
  let d ← Dialect.ofId? (← req.text? "dialect")
  let c := LoweringContext.withLimits d (← limitOf req "max_depth") (← limitOf req "max_hops")
  let steps ← Json.mapArr ContextStep.ofJson? (← req.need "steps")
  let (_, facts) := steps.foldl (fun (acc : LoweringContext × List Json) s =>
    let (refused, c) := s.run acc.1
    (c, acc.2 ++ [.obj [("result", Json.ofOption LoweringError.brief refused),
      ("context", contextFacts c), ("errors", .ofNat c.errors.length)]])) (c, [])
  pure (.obj [("initial", contextFacts c), ("steps", .arr facts)])

/-- Whether a request targets every expression. -/
def targetsAll (req : Json) : Bool :=
  match req.get? "at" with
  | none | some .null | some (.str "all") => true
  | _ => false

/-- The lowering of one target by a parser. -/
def lowerFacts (qp : QueryParser) (p : Program) (maxDepth maxHops : Nat) (detail : Bool)
    (id : Nat) : Json :=
  let (result, c) := qp.lowerAt p maxDepth maxHops id
  let parse := match result with
    | .ok n => .tagged "query" n.toJson
    | .error e => LoweringError.brief e
  let base : List (String × Json) :=
    [("expr", .ofNat id), ("candidate", .bool (qp.isCandidate p id)), ("anchor", .ofNat (qp.anchor p id)),
      ("parse", parse), ("errors", .arr (c.errors.map LoweringError.brief))]
  if detail then
    .obj (base ++ [("context", contextFacts c), ("error_info", .arr (c.errors.map fun e =>
      .obj (failureFacts e.label e.message e.recoverable e.severity)))])
  else .obj base

/-- The answer to `lower`. -/
def lowerAnswer (req : Json) : Option Json := do
  let d ← Description.read? (← req.need "program")
  let qp ← (← Dialect.ofId? (← req.text? "dialect")).parser?
  let ts ← targetsOf d req
  let maxDepth ← limitOf req "max_depth"
  let maxHops ← limitOf req "max_hops"
  let detail ← req.flag? "detail"
  let p := d.program
  let ts := if targetsAll req then ts.filter (qp.isCandidate p) else ts
  pure (.arr (ts.map (lowerFacts qp p maxDepth maxHops detail)))

/-- What each parser says an expression names: a database, a collection, a field. -/
def referenceFlags (qp : QueryParser) (p : Program) (id : Nat) : List Bool :=
  [qp.isDatabaseReference p id, qp.isCollectionReference p id, qp.isFieldReference p id]

/-- The answer to `refs`. -/
def refsAnswer (req : Json) : Option Json := do
  let d ← Description.read? (← req.need "program")
  let ts ← targetsOf d req
  let p := d.program
  let entries := ts.filterMap fun id =>
    let driver := referenceFlags .driver p id
    let criteria := referenceFlags .criteria p id
    if targetsAll req && !(driver ++ criteria).any (· == true) then none
    else some (Json.obj [("expr", .ofNat id), ("java", .arr (driver.map .bool)),
      ("spring", .arr (criteria.map .bool))])
  pure (.arr entries)

/-- The answer to a request on lowering, `none` for bad input or another operation. -/
def lowering (op : String) (req : Json) : Option Json :=
  match op with
  | "lowering_context" => loweringContextAnswer req
  | "lower" => lowerAnswer req
  | "refs" => refsAnswer req
  | _ => none

end Requests

end QueryScope
