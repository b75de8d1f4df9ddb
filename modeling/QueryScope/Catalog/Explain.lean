import QueryScope.Json.Value
/-!
# Explain plans

What an explain of a query tells about its use of indexes. The winning plan is read at its
input stage, or at its root when it has none: a collection scan is a collection scan; an
index scan (`IXSCAN` or `IDHACK`) under a `FILTER` or `SORT` root is an ineffective use,
and so is one that examined at least fifty documents for each one it returned; any other
index scan is effective, and anything else tells nothing.
-/

namespace QueryScope

/-- What an explain tells about a query's use of indexes. -/
inductive ExplainPlan where
  | notRun
  | collectionScan
  | ineffectiveIndexUsage
  | indexScan
deriving DecidableEq

namespace ExplainPlan

/-- Every plan, in declaration order. -/
def known : List ExplainPlan := [.notRun, .collectionScan, .ineffectiveIndexUsage, .indexScan]

/-- The interchange name of a plan. -/
def id : ExplainPlan → String
  | .notRun => "notRun"
  | .collectionScan => "collectionScan"
  | .ineffectiveIndexUsage => "ineffectiveIndexUsage"
  | .indexScan => "indexScan"

/-- The plan of an interchange name. -/
def ofId? (s : String) : Option ExplainPlan := known.find? (·.id == s)

/-- The examined documents per returned document at which an index counts as ineffective. -/
def ineffectiveRatio : Float := 50.0

/-- The stage name of a plan stage. -/
def stageName (stage : Json) : Option String := (stage.get? "stage").bind Json.str?

/-- Examined documents per returned document, when the statistics give both and some
document was returned. -/
def examinedRatio (output : Json) : Option Float := do
  let stats ← output.get? "executionStats"
  let returned ← (← stats.get? "nReturned").float?
  let examined ← (← stats.get? "totalDocsExamined").float?
  if returned ≤ 0.0 then none else some (examined / returned)

/-- What an explain output tells. -/
def classify (output : Json) : ExplainPlan :=
  match (output.get? "queryPlanner").bind (·.get? "winningPlan") with
  | none => .notRun
  | some plan =>
    let root := stageName plan
    let scan := match plan.get? "inputStage" with
      | some input => stageName input
      | none => root
    match scan with
    | some "COLLSCAN" => .collectionScan
    | some "IXSCAN" | some "IDHACK" =>
      if root == some "FILTER" || root == some "SORT" then .ineffectiveIndexUsage
      else match examinedRatio output with
        | some r => if ineffectiveRatio ≤ r then .ineffectiveIndexUsage else .indexScan
        | none => .indexScan
    | _ => .notRun

end ExplainPlan

end QueryScope
