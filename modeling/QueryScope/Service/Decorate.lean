import QueryScope.Catalog.ReadModel
/-!
# Decorating a query with metadata

Before a query is linted or formatted it is decorated: it gets the server's version as its
target cluster when the build information can be read, its database overwritten when one is
given, and the schema of its collection when the collection is known by a valid namespace,
the query has no schema yet and the schema can be read. A read that fails leaves its step
undone and the other steps go on.
-/

namespace QueryScope

/-- The namespace whose schema a query still lacks. -/
def Node.schemaWanted? (q : Node) : Option Namespace :=
  match q.collectionRef? with
  | some (.known _ _ ns none) => if ns.isValid then some ns else none
  | _ => none

/-- Decorate a query from a read model, reading schemas with a sample size. -/
def ReadModel.decorate (m : ReadModel) (sampleSize : Nat) (q : Node) (database : Option String) :
    Reads Node := do
  let q := match ← m.buildInfo with
    | .ok b => q.withTargetCluster b.version
    | .error _ => q
  let q := match database with
    | some db => q.withDatabase db
    | none => q
  match q.schemaWanted? with
  | none => pure q
  | some ns =>
    match ← m.collectionSchema ns sampleSize with
    | .ok s => pure (q.withSchema s)
    | .error _ => pure q

end QueryScope
