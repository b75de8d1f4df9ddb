import QueryScope.Lowering.HostTypes
import QueryScope.Lowering.Error
import QueryScope.Query.Node
/-!
# Values known before the program runs

An expression's value is known when it is a literal, an enum constant, an array of known
values, or leads to one: a local variable through the last assignment before the use (or its
initializer), a field through its initializer, a call of a program method through the first
of its `return` values that is known. Parameters, object creations and library calls are not
known. Each step through a variable, field or call goes one level deeper, and resolution
gives up beyond the depth bound.

The same steps, stopped at the first expression a test accepts, find where a value was
built; there a field also leads to the last assignment before the use in the same method.
-/

namespace QueryScope

/-- Resolution of known values in a program, with its depth bound. -/
structure Resolver where
  program : Program
  maxDepth : Nat := defaultLimit

namespace Resolver

/-- The constant a literal stands for; a character is a one-character string. -/
def literalValue : Literal → Constant
  | .null => .null
  | .boolean b => .boolean b
  | .int n => .int32 n
  | .long n => .int64 n
  | .double x => .double x
  | .char c => .string (String.singleton c)
  | .string s => .string s

/-- The expression a local variable holds at a use: the last assignment before the use, or
its initializer; a parameter holds nothing known. -/
def localValue (r : Resolver) (var useSite : Nat) : Option Nat :=
  let p := r.program
  match p.parameterIndex? var with
  | some _ => none
  | none =>
    let useOffset := (p.expr useSite).offset
    match (p.localAssignments var).filter (fun v => (p.expr v).offset < useOffset) |>.getLast? with
    | some v => some v
    | none => (p.var var).initializer

mutual
/-- The value of an expression, with `fuel` levels left. -/
def resolveAt (r : Resolver) : Nat → Nat → Option Constant
  | 0, _ => none
  | fuel + 1, expr =>
    let p := r.program
    let id := p.stripParens expr
    match (p.expr id).kind with
    | .literal l => some (literalValue l)
    | .reference (.field f) =>
      let fd := p.field f
      if fd.isEnumConstant then some (.enumConstant (p.cls fd.cls).name fd.name)
      else fd.initializer.bind (r.resolveAt fuel)
    | .reference (.localVar v) => (r.localValue v id).bind (r.resolveAt fuel)
    | .call c =>
      match c.target with
      | none => none
      | some m =>
        if (p.method m).isConstructor then none
        else (p.returnsOf m).findSome? (r.resolveAt fuel)
    | .arrayInit items => (r.resolveAll fuel items).map .array
    | _ => none

/-- The values of all expressions of a list, if each is known. -/
def resolveAll (r : Resolver) (fuel : Nat) : List Nat → Option (List Constant)
  | [] => some []
  | e :: es => do
    let v ← r.resolveAt fuel e
    let vs ← r.resolveAll fuel es
    pure (v :: vs)
end

/-- The value of an expression, when it is known. -/
def resolve (r : Resolver) (expr : Nat) : Option Constant := r.resolveAt (r.maxDepth + 1) expr

/-- The value of an expression, when it is a known string. -/
def resolveString (r : Resolver) (expr : Nat) : Option String :=
  match r.resolve expr with
  | some (.string s) => some s
  | _ => none

/-- Follow an expression, with `fuel` levels left, to the first expression `accept` takes. -/
def untilAt (r : Resolver) (accept : Nat → Bool) : Nat → Nat → Option Nat
  | 0, _ => none
  | fuel + 1, expr =>
    let p := r.program
    let id := p.stripParens expr
    if accept id then some id
    else match (p.expr id).kind with
    | .call c =>
      match c.target with
      | some m => (p.returnsOf m).findSome? (r.untilAt accept fuel)
      | none => none
    | .reference (.localVar v) => (r.localValue v id).bind (r.untilAt accept fuel)
    | .reference (.field f) =>
      match (p.field f).initializer.bind (r.untilAt accept fuel) with
      | some found => some found
      | none => do
        let m ← p.enclosingMethod? id
        let useOffset := (p.expr id).offset
        let before := (p.fieldAssignments f).filter fun (owner, v) =>
          owner == m && (p.expr v).offset < useOffset
        let (_, v) ← before.getLast?
        r.untilAt accept fuel v
    | _ => none

/-- The first expression an expression leads to that `accept` takes. -/
def resolveUntil (r : Resolver) (expr : Nat) (accept : Nat → Bool) : Option Nat :=
  r.untilAt accept (r.maxDepth + 1) expr

/-- The type of a resolved constant; an enum constant of a program enum has the enum's type. -/
def constantType (r : Resolver) (c : Constant) : Bson :=
  match c with
  | .enumConstant cls _ =>
    match r.program.classByName? cls with
    | some _ => r.program.bsonOf (.named cls)
    | none => c.bson
  | _ => c.bson

/-- The stored type of an expression's static type. -/
def staticBson? (r : Resolver) (expr : Nat) : Option Bson :=
  (r.program.staticType? expr).map r.program.bsonOf

/-- A value reference: constant when known, runtime when only the type is known. -/
def resolveValue (r : Resolver) (expr : Nat) : ValueRef :=
  match r.resolve expr with
  | some v => .constant (.expr expr) v (r.constantType v)
  | none =>
    match r.staticBson? expr with
    | some t => .runtime (.expr expr) t
    | none => .unknown

/-- A schema field named by a known string. -/
def resolveFieldName (r : Resolver) (expr : Nat) : FieldRef :=
  match r.resolveString expr with
  | some name => .named .fromSchema (.expr expr) name name
  | none => .unknown

/-- The text without its leading `$` signs. -/
def dropDollars (s : String) : String := String.ofList (s.toList.dropWhile (· == '$'))

/-- A value written as a field path such as `"$amount"`: a known string is a value computed
from that field, another known value is kept, anything else is a runtime value. -/
def resolveFieldExpression (r : Resolver) (expr : Nat) : ValueRef :=
  match r.resolve expr with
  | some (.string path) =>
    let field : FieldRef := .named .fromSchema .erased (dropDollars path) path
    .computed (.expr expr) (.computed .any (Node.ofComponents .erased [.field field]))
  | some v => .constant (.expr expr) v (r.constantType v)
  | none => .runtime (.expr expr) ((r.staticBson? expr).getD .any)

end Resolver

end QueryScope
