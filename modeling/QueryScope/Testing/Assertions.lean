import QueryScope.Lint.Engine
import QueryScope.Text.Literal
/-!
# Assertions on findings and queries

Checks that tests make of a lint pass and of a lowered query. Each holds, or fails with the
report a reader sees: an expected and an actual value that differ are reported as

    assertion `left == right` failed: <message>
      left: <actual>
     right: <expected>

with kinds by their names, texts as literals and lists between brackets.
-/

namespace QueryScope

/-- The name a report gives a kind of finding: its identifier with a capital first letter. -/
def InsightKind.reportName (k : InsightKind) : String :=
  match k.id.toList with
  | c :: cs => String.ofList (c.toUpper :: cs)
  | [] => ""

namespace Assertions

/-- The report of two values that differ. -/
def mismatch (message left right : String) : String :=
  "assertion `left == right` failed: " ++ message ++ "\n  left: " ++ left ++ "\n right: " ++ right

/-- The messages of findings, as a literal list. -/
def messages (insights : List Insight) : String :=
  Literal.list (insights.map fun i => Literal.literal i.message)

/-- The kinds of findings, as a list. -/
def kindList (kinds : List InsightKind) : String :=
  Literal.list (kinds.map InsightKind.reportName)

/-- The findings have exactly these kinds, in this order. -/
def kinds (insights : List Insight) (expected : List InsightKind) : Except String Unit := do
  let actual := insights.map (·.kind)
  unless actual == expected do
    throw (mismatch ("Unexpected insights: " ++ messages insights) (kindList actual)
      (kindList expected))

/-- Exactly one finding has this kind; its source. -/
def single (insights : List Insight) (kind : InsightKind) : Except String Origin := do
  match insights.filter (·.kind == kind) with
  | [i] => pure i.source
  | matching =>
    throw (mismatch ("Expected exactly one " ++ kind.reportName ++ ", found " ++ messages insights)
      (toString matching.length) "1")

/-- No finding has this kind. -/
def absent (insights : List Insight) (kind : InsightKind) : Except String Unit := do
  unless insights.all (·.kind != kind) do
    throw ("Unexpected " ++ kind.reportName ++ " in " ++ messages insights)

/-- The query targets a known namespace with this database and collection. -/
def knownNamespace (q : Node) (database collection : String) : Except String Unit := do
  match q.namespace? with
  | some ns =>
    unless ns.database == database do
      throw (mismatch "Database mismatch" (Literal.literal ns.database) (Literal.literal database))
    unless ns.collection == collection do
      throw (mismatch "Collection mismatch" (Literal.literal ns.collection)
        (Literal.literal collection))
  | none => throw ("Expected a known namespace " ++ database ++ "." ++ collection)

/-- The query knows only its collection, and it is this one. -/
def onlyCollection (q : Node) (collection : String) : Except String Unit := do
  match q.collectionRef? with
  | some (.onlyCollection _ found) =>
    unless found == collection do
      throw (mismatch "Collection mismatch" (Literal.literal found) (Literal.literal collection))
  | other =>
    throw ("Expected only collection '" ++ collection ++ "', found " ++ toString other.isSome)

end Assertions

end QueryScope
