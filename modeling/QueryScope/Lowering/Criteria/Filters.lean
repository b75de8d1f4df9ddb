import QueryScope.Lowering.Criteria.Shapes
/-!
# Criteria chains as filters

A criteria chain is read call by call from the innermost: `where(name)` and `and(name)` name
the field of the predicates after them, `not()` negates the next predicate, `orOperator`,
`andOperator` and `norOperator` combine the filters of their operands, and any other call is
a predicate on the current field, named by the call (`is` is equality) and valued by its
arguments. A predicate with no field before it is unknown.

Each chain is one level deeper than the one holding it.
-/

namespace QueryScope

namespace Criteria

/-- A node of the given components at an expression. -/
def nodeAt (id : Nat) (cs : List Component) : Node := Node.ofComponents (.expr id) cs

/-- The value of a predicate's arguments: none without arguments; for `in`, `nin` and `all`
an array of several known values, or else the first argument as an array; for any other
operator the first argument. -/
def operatorValue (r : Resolver) (op : Operator) (source : Nat) (args : List Nat) : Option ValueRef :=
  match args with
  | [] => none
  | value :: _ =>
    if op == .«in» || op == .nin || op == .all then
      match args.mapM r.resolve with
      | some items =>
        if 1 < args.length then
          some (.constant (.expr source) (.array items) (.array (Bson.union (items.map r.constantType))))
        else some (arrayOrRuntime (r.resolveValue value))
      | none => some (arrayOrRuntime (r.resolveValue value))
    else some (r.resolveValue value)
where
  /-- A runtime value as a runtime array; any other value as it is. -/
  arrayOrRuntime : ValueRef → ValueRef
    | .runtime s (.array t) => .runtime s (.array t)
    | .runtime s t => .runtime s (.array t)
    | other => other

/-- The combinator a criteria call names, if it is one. -/
def combinator? : String → Option Operator
  | "orOperator" => some .«or»
  | "andOperator" => some .«and»
  | "norOperator" => some .nor
  | _ => none

/-- What reading a chain keeps: the nodes so far, the current field and a pending `not`. -/
structure ChainState where
  nodes : List Node := []
  field : Option Nat := none
  negate : Bool := false

/-- A predicate on the current field, negated when a `not()` is pending. -/
def predicate (r : Resolver) (st : ChainState) (id : Nat) (c : Call) : ChainState :=
  let op := if c.name == "is" then Operator.eq else Operator.ofSpelling c.name
  match st.field with
  | none => { st with nodes := st.nodes ++ [Lowering.unknownNode id] }
  | some f =>
    let base := nodeAt id [.named op, .field (r.resolveFieldName f)]
    let node := match operatorValue r op id c.args with
      | some v => base.add (.value v)
      | none => base
    if st.negate then
      let negated := nodeAt id [.named .«not», .field (r.resolveFieldName f), .branch .filter [node]]
      { st with nodes := st.nodes ++ [negated], negate := false }
    else { st with nodes := st.nodes ++ [node] }

/-- The filters of a criteria chain, one level deeper; `fuel` exceeds the levels left. -/
def criteria (r : Resolver) : Nat → Nat → Lowering (List Node)
  | 0, expr =>
    Lowering.nested "criteria" [Lowering.unknownNode expr] (pure [Lowering.unknownNode expr])
  | fuel + 1, expr =>
    Lowering.nested "criteria" [Lowering.unknownNode expr] (do
      let p := r.program
      match r.resolveUntil expr (isCriteriaCall p) with
      | none =>
        pure [← Lowering.unsupported .springCriteria expr "filter not built with Criteria"]
      | some outer =>
        let step (st : ChainState) (id : Nat) : Lowering ChainState :=
          match p.call? id with
          | none => pure st
          | some c =>
            match c.name, c.args with
            | "where", [name] | "and", [name] => pure { st with field := some name }
            | "not", [] => pure { st with negate := true }
            | name, args =>
              match combinator? name with
              | some op => do
                let children ← (operands r args).mapM fun operand => do
                  let parsed ← criteria r fuel operand
                  match parsed with
                  | [single] => pure single
                  | _ => pure (nodeAt operand [.named .«and», .branch .filter parsed])
                pure { st with nodes := st.nodes ++ [nodeAt id [.named op, .branch .filter children]] }
              | none => pure (predicate r st id c)
        let st ← (p.receiverChain (isCriteriaCall p) outer).foldlM step {}
        pure st.nodes)

end Criteria

end QueryScope
