import QueryScope.Lowering.Names
import QueryScope.Host.Program
/-!
# Call shapes of host programs

The shapes the dialects look for in a program: calls declared by a type, the chain of calls
along receivers, the parents above an expression, and the JDK factories that build a list
of their arguments.

An expression's children always have smaller ids than the expression, so the walks down
receivers and up parents end; each walk also checks that step and stops where it fails.
-/

namespace QueryScope

namespace Program

/-- Whether an expression is a call declared by a type the test accepts. -/
def callDeclaredBy (p : Program) (accept : String → Bool) (id : Nat) : Bool :=
  match p.call? id with
  | some c => c.declaringType.any accept
  | none => false

/-- Whether an expression is a call of a method of a given name declared by a type. -/
def isCallOf (p : Program) (t name : String) (id : Nat) : Bool :=
  match p.call? id with
  | some c => c.is t name
  | none => false

/-- Whether an expression is an array initializer. -/
def isArrayInit (p : Program) (id : Nat) : Bool :=
  match (p.expr id).kind with
  | .arrayInit _ => true
  | _ => false

/-- Whether an expression is in parentheses. -/
def isParen (p : Program) (id : Nat) : Bool :=
  match (p.expr id).kind with
  | .paren _ => true
  | _ => false

/-- Whether an expression is a class literal. -/
def isClassLiteral (p : Program) (id : Nat) : Bool :=
  match (p.expr id).kind with
  | .classLiteral _ => true
  | _ => false

/-- Whether an expression is `List.of(..)` or `Arrays.asList(..)`. -/
def isListOf (p : Program) (id : Nat) : Bool :=
  p.isCallOf JdkName.list "of" id || p.isCallOf JdkName.arrays "asList" id

/-- Whether an expression is a JDK factory of a list or set of its arguments. -/
def isListFactory (p : Program) (id : Nat) : Bool :=
  p.isListOf id || p.isCallOf JdkName.collections "singletonList" id ||
    p.isCallOf JdkName.collections "singleton" id

/-- The receiver of a call, without parentheses, when it is below the call. -/
def receiverBelow? (p : Program) (id : Nat) : Option Nat := do
  let c ← p.call? id
  let r ← c.receiver
  let r := p.stripParens r
  if r < id then some r else none

/-- The calls a test accepts down the receivers from an expression, outermost first. -/
def receiversFrom (p : Program) (accept : Nat → Bool) (id : Nat) : List Nat :=
  if accept id then
    match h : p.receiverBelow? id with
    | some r =>
      have : r < id := by
        simp only [receiverBelow?, Option.bind_eq_bind] at h
        cases hc : p.call? id <;> simp [hc] at h
        rename_i c
        cases hr : c.receiver <;> simp [hr] at h
        omega
      id :: p.receiversFrom accept r
    | none => [id]
  else []
termination_by id

/-- The calls a test accepts along the receivers of an expression, innermost first. -/
def receiverChain (p : Program) (accept : Nat → Bool) (outer : Nat) : List Nat :=
  (p.receiversFrom accept (p.stripParens outer)).reverse

/-- The parents above an expression, nearest first. -/
def ancestors (p : Program) (id : Nat) : List Nat :=
  match p.parent? id with
  | some q => if id < q ∧ q < p.exprs.size then q :: p.ancestors q else []
  | none => []
termination_by p.exprs.size - id

end Program

end QueryScope
