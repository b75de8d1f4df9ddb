import QueryScope.Query.Node
import QueryScope.Query.Cluster
import QueryScope.Text.Quoted
/-!
# Index suggestions

The fields worth indexing for a query are the schema fields its filters (also those of its
pipeline stages) and its sort keys compare, each once, ordered by the rule "equality, then
sort, then range": a field used in several roles takes its best one, and fields of one role
keep the order they first appear in. Union and irrelevant operators suggest nothing.

The suggestion is a commented script: the fields, a link to the documentation of the
cluster's version (7.0 when it is unknown), and a `createIndex` call with one placeholder
key per field.
-/

namespace QueryScope

/-- The place of a role in an index: equality first, then sort, then range. -/
def Role.indexRank? : Role → Option Nat
  | .equality => some 0
  | .sort => some 1
  | .range => some 2
  | .union | .irrelevant => none

/-- The schema field a node compares and the rank of its role. -/
def Node.indexCandidate? (n : Node) : Option (String × Nat) := do
  let o ← n.operator?
  match n.fieldRef? with
  | some (.named .fromSchema _ p _) => do pure (p, ← o.role.indexRank?)
  | _ => none

/-- Add a field with a rank: a known field keeps its place and takes the better rank. -/
def addIndexField (fields : List (String × Nat)) (c : String × Nat) : List (String × Nat) :=
  if fields.any (·.1 == c.1) then
    fields.map fun (f, r) => if f == c.1 then (f, min r c.2) else (f, r)
  else fields ++ [c]

/-- The fields worth indexing for a query, best role first. -/
def Node.indexFields (q : Node) : List String :=
  let candidates := (q.allFilters ++ q.children .sorts).filterMap Node.indexCandidate?
  let fields := candidates.foldl addIndexField []
  (fields.mergeSort fun a b => decide (a.2 ≤ b.2)).map (·.1)

/-- The documentation version shown when the cluster's is unknown. -/
def defaultDocsVersion : Nat × Nat := (7, 0)

/-- The index suggestion for a query, empty when no field is worth indexing. -/
def Node.indexCommand (q : Node) : String :=
  match q.indexFields with
  | [] => ""
  | fields =>
    let (major, minor) := (q.targetCluster?.bind majorMinor).getD defaultDocsVersion
    let (db, coll) := match q.namespace? with
      | some ns => if ns.isValid then (quote ns.database, quote ns.collection)
        else (quote "<database>", quote "<collection>")
      | none => (quote "<database>", quote "<collection>")
    let keys := (List.range fields.length).map fun i =>
      quote ("<your_field_" ++ toString (i + 1) ++ ">") ++ ": 1"
    "// Potential fields to consider indexing: " ++ ", ".intercalate fields ++
      "\n// Learn about creating an index: https://www.mongodb.com/docs/v" ++ toString major ++
      "." ++ toString minor ++ "/core/data-model-operations/#indexes\n" ++
      "db.getSiblingDB(" ++ db ++ ").getCollection(" ++ coll ++ ")\n  .createIndex(\x7b " ++
      ", ".intercalate keys ++ " \x7d)"

end QueryScope
