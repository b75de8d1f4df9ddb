import QueryScope.Lowering.Criteria.Shapes
/-!
# Update specifications

An update is an `Update` chain (`new Update().set("a", 1).inc("n", 1)`, `Update.update(..)`),
possibly held in a variable that statements before the use go on changing
(`update.set(..)`). Each call of the chain, and of each such statement's chain, becomes an
update operator on its field; `update(..)` is `$set`.
-/

namespace QueryScope

namespace Criteria

/-- Whether an expression is an `Update` call. -/
def isUpdateCall (p : Program) (id : Nat) : Bool := p.callDeclaredBy (· == SpringName.update) id

/-- Whether an expression is an `Update` call or creates an `Update`. -/
def isUpdate (p : Program) (id : Nat) : Bool :=
  isUpdateCall p id ||
    match (p.expr id).kind with
    | .new t _ _ => t.is SpringName.update
    | _ => false

/-- The update argument of a template operation. -/
def updateArgument? (p : Program) (operation : Nat) : Option Nat := do
  let c ← p.call? operation
  match c.name with
  | "updateFirst" | "updateMulti" | "upsert" | "findAndModify" => c.args[1]?
  | "apply" => c.args.head?
  | _ => none

/-- Whether an expression is a call whose receiver, without parentheses, is a given one. -/
def isCallOn (p : Program) (receiver id : Nat) : Bool :=
  match p.call? id with
  | some c => c.receiver.any fun r => p.stripParens r == receiver
  | none => false

/-- The `Update` calls chained on a start call, up its parents. -/
def chainUp (p : Program) (start : Nat) : List Nat :=
  let rec go (current : Nat) : List Nat → List Nat
    | [] => []
    | parent :: rest =>
      if isCallOn p current parent && isUpdateCall p parent then parent :: go parent rest else []
  start :: go start (p.ancestors start)

/-- The calls of the statements that change an update variable before its use, by their
position in the source. -/
def statementUpdates (p : Program) (usage : Nat) : List Nat :=
  let usage := p.stripParens usage
  match (p.expr usage).kind with
  | .reference (.localVar v) =>
    let useOffset := (p.expr usage).offset
    let onVar (id : Nat) : Bool :=
      match (p.call? id).bind (·.receiver) with
      | some r =>
        match (p.expr (p.stripParens r)).kind with
        | .reference (.localVar w) => w == v
        | _ => false
      | none => false
    let starts := p.exprIds.filter fun id =>
      decide ((p.expr id).offset < useOffset) && isUpdateCall p id && onVar id
    let starts := starts.mergeSort fun a b => decide ((p.expr a).offset ≤ (p.expr b).offset)
    starts.flatMap (chainUp p)
  | _ => []

/-- The update operator of one call: its field, and its value when it takes two arguments
(`pop` takes only the field). -/
def updateOperation (r : Resolver) (id : Nat) : Node :=
  match r.program.call? id with
  | none => Lowering.unknownNode id
  | some c =>
    let op := if c.name == "update" then Operator.set else Operator.ofSpelling c.name
    let withField (f : Nat) := Node.ofComponents (.expr id) [.named op, .field (r.resolveFieldName f)]
    match op, c.args with
    | .pop, f :: _ => withField f
    | _, [f] => withField f
    | _, [f, v] => (withField f).add (.value (r.resolveValue v))
    | _, _ => Lowering.unknownNode id

/-- The update operators of an update argument. -/
def updates (r : Resolver) (expr : Nat) : List Node :=
  let p := r.program
  match r.resolveUntil expr (isUpdate p) with
  | none => [Lowering.unknownNode expr]
  | some outer =>
    let calls := p.receiverChain (isUpdateCall p) outer ++ statementUpdates p expr
    calls.map (updateOperation r)

end Criteria

end QueryScope
