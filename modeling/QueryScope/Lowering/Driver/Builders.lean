import QueryScope.Lowering.Nesting
import QueryScope.Lowering.Calls
/-!
# Fragments built with the driver's static factories

Filters, updates, pipeline stages, projections, sort keys and accumulators of a driver
query are built with the static `Filters`, `Updates`, `Aggregates`, `Projections`, `Sorts`
and `Accumulators` factories, possibly through variables and helper methods. Each fragment
is followed to the factory call that built it and becomes a node named by the called method.

A factory taking a list of fragments takes them as separate arguments, as one array, or as
one JDK list; `varargs` reads each of those forms. Filters, updates and stages nest one
level deeper each; projections and sorts only recurse through their own combinators.
-/

namespace QueryScope

namespace Driver

/-- A node of the given components at an expression. -/
def nodeAt (id : Nat) (cs : List Component) : Node := Node.ofComponents (.expr id) cs

/-- The call of one of the factory types that an expression leads to. -/
def builderCall? (r : Resolver) (types : List String) (expr : Nat) : Option (Nat × Call) := do
  let found ← r.resolveUntil expr (r.program.callDeclaredBy types.contains)
  let c ← r.program.call? found
  pure (found, c)

/-- The elements of a list argument: the items of an array, the arguments of a list
factory, or the expression itself. -/
def listElements (r : Resolver) (expr : Nat) : List Nat :=
  let p := r.program
  let id := p.stripParens expr
  match (p.expr id).kind with
  | .arrayInit items => items
  | _ =>
    match (r.resolveUntil id fun c => p.isListFactory c || p.isArrayInit c).map (p.expr · |>.kind) with
    | some (.arrayInit items) => items
    | some (.call c) => c.args
    | _ => [id]

/-- The fragments of a variable-arity argument list: one argument is read as a list. -/
def varargs (r : Resolver) : List Nat → List Nat
  | [single] => listElements r single
  | args => args

/-- The array value of the values of an `in` or `nin` filter: one value is taken as the
array, several known values as an array of them, several others as a runtime array. -/
def arrayValue (r : Resolver) (source : Nat) : List Nat → ValueRef
  | [] => ValueRef.ofConstant (.expr source) (.array [])
  | [single] =>
    match r.resolveValue single with
    | .constant s (.array items) t => .constant s (.array items) t
    | .constant s v t => .constant s (.array [v]) (.array t)
    | .runtime s (.array t) => .runtime s (.array t)
    | .runtime s t => .runtime s (.array t)
    | other => other
  | many =>
    match many.mapM r.resolve with
    | some items =>
      .constant (.expr source) (.array items) (.array (Bson.union (items.map r.constantType)))
    | none =>
      .runtime (.expr source)
        (.array (Bson.union (many.map fun v => ((r.staticBson? v).getD .any))))

/-- Whether a filter is `Filters.empty()`, which adds no predicate. -/
def isEmptyFilter (r : Resolver) (expr : Nat) : Bool :=
  match builderCall? r [DriverName.filters] expr with
  | some (_, c) => c.name == "empty"
  | none => false

/-- One node per field of a list, named by a projection or sort method with its flag. -/
def fieldList (r : Resolver) (source : Nat) (args : List Nat) (op : Operator) (flag : Int) :
    List Node :=
  (varargs r args).map fun field =>
    nodeAt source [.named op, .field (r.resolveFieldName field), .value (ValueRef.flagAt field flag)]

/-- The projections built by a `Projections` call; `fuel` bounds the nesting of `fields`. -/
def projections (r : Resolver) : Nat → Nat → Lowering (List Node)
  | 0, _ => pure []
  | fuel + 1, expr =>
    match builderCall? r [DriverName.projections] expr with
    | none => do
      pure [← Lowering.unsupported .javaDriver expr "projection not built with Projections"]
    | some (id, c) =>
      match c.name with
      | "fields" => do
        let parts ← (varargs r c.args).mapM (projections r fuel)
        pure parts.flatten
      | "include" => pure (fieldList r id c.args .include 1)
      | "exclude" => pure (fieldList r id c.args .exclude 0)
      | "excludeId" =>
        pure [nodeAt id [.named .exclude, .field (FieldRef.inferredAt id "_id"),
          .value (ValueRef.flagAt id 0)]]
      | _ => pure [nodeAt id [.named .unknown]]

/-- The sort keys built by a `Sorts` call; `fuel` bounds the nesting of `orderBy`. -/
def sorts (r : Resolver) : Nat → Nat → Lowering (List Node)
  | 0, _ => pure []
  | fuel + 1, expr =>
    match builderCall? r [DriverName.sorts] expr with
    | none => do pure [← Lowering.unsupported .javaDriver expr "sort not built with Sorts"]
    | some (id, c) =>
      match c.name with
      | "orderBy" => do
        let parts ← (varargs r c.args).mapM (sorts r fuel)
        pure parts.flatten
      | "ascending" => pure (fieldList r id c.args .ascending 1)
      | "descending" => pure (fieldList r id c.args .descending (-1))
      | _ => pure [nodeAt id [.named .unknown]]

/-- The bound on the nesting of combinators that do not go deeper: the program's size. -/
def shapeFuel (r : Resolver) : Nat := r.program.exprs.size + 1

/-- Whether an accumulator takes one expression. -/
def isSimpleAccumulator : Operator → Bool
  | .sum | .avg | .first | .last | .max | .min | .push | .addToSet => true
  | _ => false

/-- The accumulator built by an `Accumulators` call: its output field and the expression it
accumulates, with the sort keys and count of the `top` and `bottom` families. -/
def accumulator (r : Resolver) (expr : Nat) : Lowering Node :=
  match builderCall? r [DriverName.accumulators] expr with
  | none => Lowering.unsupported .javaDriver expr "accumulator not built with Accumulators"
  | some (id, c) =>
    let op := Operator.ofSpelling c.name
    match c.args with
    | [] => pure (nodeAt id [.named .unknown])
    | output :: rest =>
      let out := r.outputField output
      match rest with
      | [expression] =>
        if isSimpleAccumulator op then
          pure (nodeAt id [.named op, .field out, .value (r.resolveFieldExpression expression)])
        else pure (nodeAt id [.named .unknown])
      | [sortBy, expression] =>
        if op == .top || op == .bottom then do
          let keys ← sorts r (shapeFuel r) sortBy
          pure (nodeAt id [.named op, .field out, .branch .sorts keys,
            .value (r.resolveFieldExpression expression)])
        else pure (nodeAt id [.named .unknown])
      | [sortBy, expression, n] =>
        if op == .topN || op == .bottomN then do
          let keys ← sorts r (shapeFuel r) sortBy
          let node := nodeAt id [.named op, .field out, .branch .sorts keys,
            .value (r.resolveFieldExpression expression)]
          pure (match r.resolveInt32 n with
            | some k => node.add (.limit k)
            | none => node)
        else pure (nodeAt id [.named .unknown])
      | _ => pure (nodeAt id [.named .unknown])

/-- A field added by `new Field(name, value)`: a computed field and its known value. -/
def addedField (r : Resolver) (expr : Nat) : Lowering Node :=
  let p := r.program
  let id := p.stripParens expr
  match (p.expr id).kind with
  | .new t _ [name, value] =>
    if t.is DriverName.field then
      pure (nodeAt id [.field (r.outputField name), .value (r.constantOnly value)])
    else Lowering.unsupported .javaDriver expr "added field not built with new Field"
  | _ => Lowering.unsupported .javaDriver expr "added field not built with new Field"

mutual
/-- The filter built by a `Filters` call, one level deeper; `fuel` exceeds the levels left. -/
def filter (r : Resolver) : Nat → Nat → Lowering Node
  | 0, expr => Lowering.nested "filter" (Lowering.unknownNode expr) (pure (Lowering.unknownNode expr))
  | fuel + 1, expr => Lowering.nested "filter" (Lowering.unknownNode expr) (
    match builderCall? r [DriverName.filters] expr with
    | none => Lowering.unsupported .javaDriver expr "filter not built with Filters"
    | some (id, c) =>
      let op := Operator.ofSpelling c.name
      match c.name, c.args with
      | "and", args | "or", args | "nor", args => do
        let children ← (varargs r args).mapM (filter r fuel)
        pure (nodeAt id [.named op, .branch .filter children])
      | "not", [inner] => do
        let child ← filter r fuel inner
        pure (nodeAt id [.named op, .branch .filter [child]])
      | "in", field :: values | "nin", field :: values =>
        pure (nodeAt id [.named op, .field (r.resolveFieldName field),
          .value (arrayValue r id values)])
      | "eq", [value] =>
        pure (nodeAt id [.named op, .field (FieldRef.schemaAt id "_id"),
          .value (r.resolveValue value)])
      | "exists", [field] =>
        pure (nodeAt id [.named op, .field (r.resolveFieldName field),
          .value (.inferred (.expr id) (.boolean true) .boolean)])
      | _, [field, value] =>
        pure (nodeAt id [.named op, .field (r.resolveFieldName field), .value (r.resolveValue value)])
      | _, _ => pure (nodeAt id [.named op]))

/-- The update built by an `Updates` call, one level deeper. -/
def update (r : Resolver) : Nat → Nat → Lowering Node
  | 0, expr => Lowering.nested "update" (Lowering.unknownNode expr) (pure (Lowering.unknownNode expr))
  | fuel + 1, expr => Lowering.nested "update" (Lowering.unknownNode expr) (
    match builderCall? r [DriverName.updates] expr with
    | none => Lowering.unsupported .javaDriver expr "update not built with Updates"
    | some (id, c) =>
      let op := Operator.ofSpelling c.name
      match c.name, c.args with
      | "combine", args => do
        let children ← (varargs r args).mapM (update r fuel)
        pure (nodeAt id [.named op, .branch .updates children])
      | "pull", [field, condition] =>
        if (builderCall? r [DriverName.filters] condition).isSome then do
          let child ← filter r fuel condition
          pure (nodeAt id [.named op, .field (r.resolveFieldName field), .branch .filter [child]])
        else
          pure (nodeAt id [.named op, .field (r.resolveFieldName field),
            .value (r.resolveValue condition)])
      | _, [field, value] =>
        pure (nodeAt id [.named op, .field (r.resolveFieldName field), .value (r.resolveValue value)])
      | _, [field] => pure (nodeAt id [.named op, .field (r.resolveFieldName field)])
      | _, _ => pure (nodeAt id [.named op]))

/-- The pipeline stage built by an `Aggregates` call, one level deeper. -/
def stage (r : Resolver) : Nat → Nat → Lowering Node
  | 0, expr => Lowering.nested "stage" (Lowering.unknownNode expr) (pure (Lowering.unknownNode expr))
  | fuel + 1, expr => Lowering.nested "stage" (Lowering.unknownNode expr) (
    match builderCall? r [DriverName.aggregates] expr with
    | none => Lowering.unsupported .javaDriver expr "stage not built with Aggregates"
    | some (id, c) =>
      match c.name, c.args with
      | "match", [f] => do
        let children ← if isEmptyFilter r f then pure [] else do pure [← filter r fuel f]
        pure (nodeAt id [.named .«match», .branch .filter children])
      | "project", [pr] => do
        let children ← projections r (shapeFuel r) pr
        pure (nodeAt id [.named .project, .branch .projections children])
      | "sort", [s] => do
        let children ← sorts r (shapeFuel r) s
        pure (nodeAt id [.named .sort, .branch .sorts children])
      | "group", key :: accs => do
        let accumulated ← (varargs r accs).mapM (accumulator r)
        pure (nodeAt id [.named .group, .field (FieldRef.inferredAt key "_id"),
          .value (r.resolveFieldExpression key), .branch .accumulatedFields accumulated])
      | "addFields", fields => do
        let added ← (varargs r fields).mapM (addedField r)
        pure (nodeAt id [.named .addFields, .branch .addedFields added])
      | "unwind", path :: _ => pure (nodeAt id [.named .unwind, .field (r.unwindPath path)])
      | "limit", [k] =>
        let node := nodeAt id [.named .limit]
        pure (match r.resolveInt32 k with
          | some n => node.add (.limit n)
          | none => node)
      | _, _ => pure (nodeAt id [.named .unknown]))
end

/-- The predicates of a filter argument: none for `Filters.empty()`. -/
def filters (r : Resolver) (fuel expr : Nat) : Lowering (List Node) :=
  if isEmptyFilter r expr then pure [] else do pure [← filter r fuel expr]

end Driver

end QueryScope
