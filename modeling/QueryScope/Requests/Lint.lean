import QueryScope.Interchange.Lint
import QueryScope.Testing.Assertions
/-!
# Requests on linting

The findings of a lint engine on a query tree, for given metadata, and the assertions tests
make on findings and queries.
-/

namespace QueryScope

namespace Requests

/-- The inspections a request names, all of them without a list; a name that is no inspection
is refused with its message. -/
def requestInspections (req : Json) : Option (Except Json (List Inspection)) :=
  match req.get? "inspections" with
  | none | some .null => some (.ok Inspection.all)
  | some (.arr xs) => do
    let names ← xs.mapM Json.str?
    pure (names.mapM fun n => match Inspection.ofName? n with
      | some i => .ok i
      | none => .error (Json.failure "UnknownInspection" (Inspection.unknownMessage n)))
  | some _ => none

/-- The answer to `lint_node`. -/
def lintNodeAnswer (req : Json) : Option Json := do
  let n ← Node.read? .exprs (← req.need "node")
  let input ← match req.get? "input" with
    | none | some .null => some {}
    | some j => LintInput.ofJson? j
  match ← requestInspections req with
  | .error e => pure e
  | .ok inspections => pure (.arr ((Lint.run inspections n input).map Insight.export))

/-- Read a finding of an empty query: its kind, its source and its arguments. -/
def readInsight (j : Json) : Option Insight := do
  let kind ← InsightKind.ofId? (← j.text? "kind")
  let source ← (← j.need "source").nat?
  let arguments ← Json.optional (Json.mapArr Json.str?) j "arguments"
  pure { source := .expr source, kind, arguments := arguments.getD [] }

/-- The answer of an assertion: its value, or its report. -/
def assertionAnswer {α : Type} (f : α → Json) : Except String α → Json
  | .ok v => .obj [("ok", f v)]
  | .error m => Json.failure "AssertionFailed" m

/-- The answer to `assert`. -/
def assertAnswer (req : Json) : Option Json := do
  let insights := fun (_ : Unit) => do Json.mapArr readInsight (← req.need "insights")
  let kind := fun (_ : Unit) => do InsightKind.ofId? (← req.text? "kind")
  let unit := assertionAnswer fun (_ : Unit) => Json.null
  match ← req.text? "assert" with
  | "kinds" => do
    let expected ← Json.mapArr (fun k => k.str?.bind InsightKind.ofId?) (← req.need "expected")
    pure (unit (Assertions.kinds (← insights ()) expected))
  | "single" => do pure (assertionAnswer Origin.toJson (Assertions.single (← insights ()) (← kind ())))
  | "none" => do pure (unit (Assertions.absent (← insights ()) (← kind ())))
  | "known_namespace" => do
    let q ← Node.read? .exprs (← req.need "node")
    pure (unit (Assertions.knownNamespace q (← req.text? "database") (← req.text? "collection")))
  | "only_collection" => do
    let q ← Node.read? .exprs (← req.need "node")
    pure (unit (Assertions.onlyCollection q (← req.text? "collection")))
  | _ => none

end Requests

end QueryScope
