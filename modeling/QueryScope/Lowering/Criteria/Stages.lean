import QueryScope.Lowering.Criteria.Filters
import QueryScope.Lowering.Criteria.Sorts
/-!
# Aggregation pipelines

A pipeline is `newAggregation(..)` over its stages, optionally after the class literal of its
typed input. A stage is a chain of calls on a stage-building type (`project("a").and("b")`,
`group("k").sum("n").as("total")`); the first call names the stage and the later ones add to
it.

* `match` holds criteria; `project` includes and excludes fields; `sort` takes sorts or a
  direction and field names; `unwind` names a path and `limit` a count.
* `group` groups by no key (`null`), one key (its field), or several (a document of them), and
  pairs each accumulator call with the `as` that names its output.
* `addFields` adds fields with a constant (`withValue`) or a field path (`withValueOf`).

Each stage is one level deeper than the pipeline.
-/

namespace QueryScope

namespace Criteria

/-- The chain of stage-building calls of a stage, innermost first. -/
def stageChain (p : Program) (outer : Nat) : List Nat := p.receiverChain (isStageCall p) outer

/-- The projections of a `project` chain: `project` and `andInclude` include their fields,
`andExclude` excludes them, any other call is unknown. -/
def projections (r : Resolver) (chain : List Nat) : List Node :=
  chain.flatMap fun id =>
    match r.program.call? id with
    | none => []
    | some c =>
      let entry : Option (Operator × Int) := match c.name with
        | "project" | "andInclude" => some (.include, 1)
        | "andExclude" => some (.exclude, 0)
        | _ => none
      match entry with
      | none => [Lowering.unknownNode id]
      | some (op, flag) =>
        (fieldNames r c.args).map fun f =>
          nodeAt id [.named op, .field (r.resolveFieldName f), .value (ValueRef.flagAt f flag)]

/-- The accumulators of a `group` chain so far, and the accumulator call waiting for its
`as`: its expression, operator and first argument. -/
structure GroupState where
  accumulated : List Node := []
  pending : Option (Nat × Operator × Option Nat) := none

/-- Whether a method of a grouping computes an accumulator. -/
def isAccumulatorName (name : String) : Bool :=
  ["sum", "avg", "first", "last", "max", "min", "push", "addToSet"].contains name

/-- The value grouped by: `null` for no key, the key's field for one, and a document of the
named keys for several. -/
def groupKey (r : Resolver) (root : Nat) (keys : List Nat) : ValueRef :=
  match keys with
  | [] => ValueRef.ofConstant (.expr root) .null
  | [key] => r.resolveFieldExpression key
  | _ =>
    let fields := keys.filterMap r.resolveString |>.map fun name =>
      Node.ofComponents .erased [.field (.named .fromSchema .erased name name)]
    let expression := Node.ofComponents .erased [.branch .projections fields]
    .computed (.expr root) (.computed .any expression)

/-- The `group` stage of a chain: its key and its accumulators. -/
def group (r : Resolver) (root : Nat) (keys accumulators : List Nat) : Node :=
  let p := r.program
  let step (st : GroupState) (id : Nat) : GroupState :=
    match p.call? id with
    | none => st
    | some c =>
      if isAccumulatorName c.name && c.isDeclaredBy SpringName.groupOperation then
        { st with pending := some (id, Operator.ofSpelling c.name, c.args.head?) }
      else match c.name, c.args with
        | "as", [output] =>
          if c.isDeclaredBy SpringName.groupOperationBuilder then
            match st.pending with
            | none => st
            | some (source, op, expression) =>
              let value := (expression.map r.resolveFieldExpression).getD .unknown
              { accumulated := st.accumulated ++
                  [nodeAt source [.named op, .field (r.outputField output), .value value]],
                pending := none }
          else { accumulated := st.accumulated ++ [Lowering.unknownNode id], pending := none }
        | _, _ => { accumulated := st.accumulated ++ [Lowering.unknownNode id], pending := none }
  let st := accumulators.foldl step {}
  nodeAt root [.named .group, .field (FieldRef.inferredAt root "_id"),
    .value (groupKey r root (fieldNames r keys)), .branch .accumulatedFields st.accumulated]

/-- The value of an added field given as a field path. -/
def addedExpression (r : Resolver) (value : Nat) : ValueRef :=
  match fieldNames r [value] with
  | [path] => r.resolveFieldExpression path
  | _ => .unknown

/-- The fields an `addFields` chain adds, each with its constant or field path. -/
def addedFields (r : Resolver) (chain : List Nat) : List Node :=
  let p := r.program
  let add (acc : List Node) (id field : Nat) (value : ValueRef) : List Node :=
    acc ++ [nodeAt id [.field (r.outputField field), .value value]]
  let step (acc : List Node × Option Nat) (id : Nat) : List Node × Option Nat :=
    let (added, pending) := acc
    match p.call? id with
    | none => acc
    | some c =>
      match c.name, c.args with
      | "addFieldWithValue", [f, v] => (add added id f (r.constantOnly v), pending)
      | "addFieldWithValueOf", [f, v] => (add added id f (addedExpression r v), pending)
      | "addField", [f] => (added, some f)
      | "withValue", [v] =>
        match pending with
        | some f => (add added id f (r.constantOnly v), none)
        | none => acc
      | "withValueOf", [v] =>
        match pending with
        | some f => (add added id f (addedExpression r v), none)
        | none => acc
      | _, _ => acc
  (chain.foldl step ([], none)).1

/-- The stage built by a stage chain, one level deeper. -/
def stage (r : Resolver) (fuel expr : Nat) : Lowering Node :=
  Lowering.nested "stage" (Lowering.unknownNode expr) (do
    let p := r.program
    match r.resolveUntil expr (isStageCall p) with
    | none => Lowering.unsupported .springCriteria expr "stage not built with Aggregation"
    | some outer =>
      let chain := stageChain p outer
      match chain with
      | [] => pure (Lowering.unknownNode outer)
      | root :: later =>
        match p.call? root with
        | none => pure (Lowering.unknownNode outer)
        | some c =>
          match c.name, c.args with
          | "match", [crit] => do
            let children ← criteria r fuel crit
            pure (nodeAt root [.named .«match», .branch .filter children])
          | "project", _ =>
            pure (nodeAt root [.named .project, .branch .projections (projections r chain)])
          | "sort", _ => do
            let keys ← sortOperation r fuel chain
            pure (nodeAt root [.named .sort, .branch .sorts keys])
          | "group", keys => pure (group r root keys later)
          | "addFields", _ | "addField", _ =>
            pure (nodeAt root [.named .addFields, .branch .addedFields (addedFields r chain)])
          | "unwind", path :: _ => pure (nodeAt root [.named .unwind, .field (r.unwindPath path)])
          | "limit", [k] =>
            let node := nodeAt root [.named .limit]
            pure (match r.resolveInt32 k with
              | some n => node.add (.limit n)
              | none => node)
          | _, _ => pure (Lowering.unknownNode root))

/-- The stages of a `newAggregation` call and the class literal of its typed input. -/
def pipeline (r : Resolver) (fuel : Nat) (newAggregation : Nat) :
    Lowering (List Node × Option Nat) := do
  let p := r.program
  match p.call? newAggregation with
  | none => pure ([], none)
  | some c =>
    let (typedInput, stageArgs) := match c.args with
      | first :: rest =>
        if p.isClassLiteral (p.stripParens first) then (some (p.stripParens first), rest)
        else (none, c.args)
      | [] => (none, [])
    let stages ← (operands r stageArgs).mapM (stage r fuel)
    pure (stages, typedInput)

end Criteria

end QueryScope
