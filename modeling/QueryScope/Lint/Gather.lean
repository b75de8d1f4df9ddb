import QueryScope.Lint.Input
import QueryScope.Catalog.ReadModel
/-!
# Gathering the metadata of a query

The databases are always listed. The other pieces need the query's collection to be known by
a valid namespace whose database is not missing from a successful listing; the collections of
that database are listed next, and if that listing succeeds without the collection, nothing
more is read. A schema already in the query is used as it is, else the collection's schema is
read. An explain runs only for commands that may use an index, and never at level `none`; it
is asked for the query with its sources erased and the level attached.
-/

namespace QueryScope

/-- How metadata is gathered: the read model, the sample size of schema reads, and the explain
level. -/
structure Gatherer where
  model : ReadModel
  sampleSize : Nat := 50
  explainLevel : ExplainLevel := .safe

namespace Gatherer

/-- Whether a successful listing leaves out a name. -/
def excludes (listed : Metadata (List String)) (name : String) : Bool :=
  match listed with
  | .available names => !names.contains name
  | _ => false

/-- The explain plan of a query, when its command may use an index. -/
def explain (g : Gatherer) (q : Node) : Reads (Metadata ExplainPlan) := do
  let usesIndexes := match q.command? with
    | some c => c.usesIndexes
    | none => false
  if !usesIndexes || g.explainLevel == .none then pure .notApplicable
  else Metadata.ofExcept <$> g.model.explainQuery (q.erase.withExplain g.explainLevel) g.explainLevel

/-- The metadata of a query. -/
def gather (g : Gatherer) (q : Node) : Reads LintInput := do
  let databases := Metadata.ofExcept (← g.model.listDatabases)
  match q.collectionRef? with
  | some (.known _ _ ns injected) =>
    if !ns.isValid || excludes databases ns.database then pure { databases }
    else
      let collections := Metadata.ofExcept (← g.model.listCollections ns.database)
      if excludes collections ns.collection then pure { databases, collections }
      else
        let schema ← match injected with
          | some s => pure (.available s)
          | none => Metadata.ofExcept <$> g.model.collectionSchema ns g.sampleSize
        let explain ← g.explain q
        pure { schema, databases, collections, explain }
  | _ => pure { databases }

end Gatherer

end QueryScope
