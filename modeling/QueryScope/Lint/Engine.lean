import QueryScope.Lint.Input
import QueryScope.Lint.Inspection
import QueryScope.Lint.InsightKind
import QueryScope.Bson.Assignable
import QueryScope.Query.Node
/-!
# Inspections and the lint engine

A finding is a kind of insight at a source of the query, with the arguments of its message.
The engine runs each of its inspections on a query in turn and collects their findings in
order:

* *namespace check*: a query with no namespace, a bare collection, a database or a collection
  the database does not list;
* *field check*: every schema field the query names outside `unwind` stages and added fields
  must exist, and a constant compared with it (not in a sort) must fit its type;
* *invalid projection*: a projection, of the query or of a `project` stage, that both
  includes and excludes schema fields other than `_id` flags each included one;
* *not using filters*: a command that could use an index but has no filter;
* *index check*: an explain plan that scans the collection or uses an index ineffectively.

An inspection whose required metadata could not be read reports that it cannot check, with
the failure as the reason.
-/

namespace QueryScope

/-- A finding about a query: its kind, where it is, and the arguments of its message. -/
structure Insight where
  source : Origin
  kind : InsightKind
  arguments : List String := []

/-- The message of a finding. -/
def Insight.message (i : Insight) : String := i.kind.message i.arguments

namespace Lint

/-- The finding that an inspection cannot run, at the query. -/
def cannotCheck (query : Node) (inspection : Inspection) (reason : LintError) : Insight :=
  ⟨query.source, .cannotCheck, [inspection.name, reason.message]⟩

/-- The namespace check. -/
def namespaceCheck (query : Node) (input : LintInput) : List Insight :=
  match query.collectionRef? with
  | none => []
  | some .unknown => [⟨query.source, .noNamespaceInferred, ["collection"]⟩]
  | some (.onlyCollection source coll) =>
    if coll.isEmpty then [] else [⟨source, .noNamespaceInferred, ["database"]⟩]
  | some (.known dbSource collSource ns _) =>
    match input.databases.require with
    | .error e => [cannotCheck query .namespaceCheck e]
    | .ok none => []
    | .ok (some dbs) =>
      if !dbs.contains ns.database then
        [⟨dbSource.getD collSource, .databaseDoesNotExist, [ns.database]⟩]
      else
        let found := match input.collections.require with
          | .ok (some colls) => colls.contains ns.collection
          | _ => false
        if found then [] else [⟨collSource, .collectionDoesNotExist, [ns.collection, ns.database]⟩]

/-- Whether a node names a schema field. -/
def namesSchemaField (n : Node) : Bool :=
  match n.fieldRef? with
  | some (.named .fromSchema _ _ _) => true
  | _ => false

mutual
/-- The nodes naming a schema field, in pre-order, outside `unwind` stages and added fields. -/
def schemaReferences : Node → List Node
  | n@(.mk _ cs) =>
    if n.operator? == some .unwind then []
    else (if namesSchemaField n then [n] else []) ++ schemaReferencesIn cs

/-- The nodes naming a schema field below the branches of a component list. -/
def schemaReferencesIn : List Component → List Node
  | [] => []
  | .branch .addedFields _ :: cs => schemaReferencesIn cs
  | .branch _ ns :: cs => schemaReferencesList ns ++ schemaReferencesIn cs
  | _ :: cs => schemaReferencesIn cs

/-- The nodes naming a schema field in a list of trees. -/
def schemaReferencesList : List Node → List Node
  | [] => []
  | n :: ns => schemaReferences n ++ schemaReferencesList ns
end

/-- The findings of the field check at one node. -/
def checkField (schema : Schema) (n : Node) : List Insight :=
  match n.fieldRef? with
  | some (.named .fromSchema source path display) =>
    if !schema.hasField path then [⟨source, .fieldDoesNotExist, [display, schema.ns.text]⟩]
    else if (n.operator?.map Operator.role) == some .sort then []
    else
      match n.valueRef? with
      | some (.constant valueSource _ t) =>
        let fieldType := schema.typeOf path
        if Bson.assignable t fieldType then []
        else [⟨valueSource, .fieldValueTypeMismatch, [display, t.renderNullable, fieldType.renderNullable]⟩]
      | _ => []
  | _ => []

/-- The field check. -/
def fieldCheck (query : Node) (input : LintInput) : List Insight :=
  match input.schema.require with
  | .error e => [cannotCheck query .fieldCheck e]
  | .ok none => []
  | .ok (some schema) => (schemaReferences query).flatMap (checkField schema)

/-- The schema fields other than `_id` that the keys of a projection of one kind name. -/
def projectedFields (projection : List Node) (op : Operator) : List (String × Origin) :=
  projection.filterMap fun child =>
    if child.operator? == some op then
      match child.fieldRef? with
      | some (.named .fromSchema source path _) => if path == "_id" then none else some (path, source)
      | _ => none
    else none

/-- The findings about one projection. -/
def checkProjection (projection : List Node) : List Insight :=
  let included := projectedFields projection .include
  let excluded := projectedFields projection .exclude
  if included.isEmpty || excluded.isEmpty then []
  else included.map fun (field, source) => ⟨source, .invalidProjection, [field]⟩

/-- The invalid projection check, over the query's projection and its `project` stages. -/
def projectionCheck (query : Node) : List Insight :=
  let stages := (query.children .aggregation).filter (·.operator? == some .project)
  let projections := (query.branch? .projections).toList ++ stages.filterMap (·.branch? .projections)
  projections.flatMap checkProjection

/-- The check for commands that read the whole collection. -/
def filtersCheck (query : Node) : List Insight :=
  match query.command? with
  | some c =>
    if !c.usesIndexes || c == .estimatedDocumentCount then []
    else if query.allFilters.isEmpty then [⟨query.source, .queryNotUsingFilters, []⟩]
    else []
  | none => []

/-- The index check. -/
def indexCheck (query : Node) (input : LintInput) : List Insight :=
  match input.explain.require with
  | .error e => [cannotCheck query .indexCheck e]
  | .ok none => []
  | .ok (some .collectionScan) => [⟨query.source, .queryNotCoveredByIndex, []⟩]
  | .ok (some .ineffectiveIndexUsage) => [⟨query.source, .queryNotUsingEffectiveIndex, []⟩]
  | .ok (some _) => []

/-- The findings of one inspection. -/
def inspect (query : Node) (input : LintInput) : Inspection → List Insight
  | .namespaceCheck => namespaceCheck query input
  | .fieldCheck => fieldCheck query input
  | .invalidProjection => projectionCheck query
  | .notUsingFilters => filtersCheck query
  | .indexCheck => indexCheck query input

/-- The findings of an engine's inspections, run in declaration order, each once. -/
def run (inspections : List Inspection) (query : Node) (input : LintInput) : List Insight :=
  (Inspection.engine inspections).flatMap (inspect query input)

end Lint

end QueryScope
