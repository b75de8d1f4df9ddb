import QueryScope.Lowering.Constants
/-!
# Lowering with recorded failures

Lowering a query runs in the state of its `LoweringContext`: a shape the dialect does not
understand becomes an unknown node and a recorded failure instead of stopping the lowering,
and every nested fragment (a filter inside a filter, a stage, a criteria chain) goes one level
deeper, refused with a recorded failure once the depth bound is reached.

The module also holds the small nodes and references the dialects build.
-/

namespace QueryScope

/-- Lowering in the state of a context that records failures and nesting. -/
abbrev Lowering := StateM LoweringContext

namespace Lowering

/-- Record a failure. -/
def record (e : LoweringError) : Lowering Unit := modify (·.addError e)

/-- A node standing for a shape the dialect does not understand. -/
def unknownNode (source : Nat) : Node := Node.ofComponents (.expr source) [.named .unknown]

/-- An unknown node, recording that a dialect does not support a feature. -/
def unsupported (d : Dialect) (expr : Nat) (feature : String) : Lowering Node := do
  record (.unsupportedSyntax d feature)
  pure (unknownNode expr)

/-- Run a nested fragment one level deeper; past the depth bound the failure is recorded and
the fallback stands for the fragment. -/
def nested {α : Type} (what : String) (fallback : α) (body : Lowering α) : Lowering α := do
  match (← get).enter what with
  | .error e =>
    record e
    pure fallback
  | .ok c =>
    set c
    let r ← body
    modify LoweringContext.exit
    pure r

end Lowering

/-- A schema field named at an expression. -/
def FieldRef.schemaAt (source : Nat) (name : String) : FieldRef :=
  .named .fromSchema (.expr source) name name

/-- A field the query computes, named at an expression. -/
def FieldRef.computedAt (source : Nat) (name : String) : FieldRef :=
  .named .computed (.expr source) name name

/-- A field the dialect implies, such as `_id`, at an expression. -/
def FieldRef.inferredAt (source : Nat) (name : String) : FieldRef :=
  .named .inferred (.expr source) name name

/-- A direction or inclusion flag a builder method implies. -/
def ValueRef.flagAt (source : Nat) (v : Int) : ValueRef := .inferred (.expr source) (.int32 v) .int32

/-- The path an `unwind` names: a schema field without the leading `$`, shown as written. -/
def Resolver.unwindPath (r : Resolver) (path : Nat) : FieldRef :=
  match r.resolveString path with
  | some name => (FieldRef.schemaAt path (Resolver.dropDollars name)).withDisplay name
  | none => .unknown

/-- The field an output name gives, computed by the query. -/
def Resolver.outputField (r : Resolver) (expr : Nat) : FieldRef :=
  match r.resolveString expr with
  | some name => FieldRef.computedAt expr name
  | none => .unknown

/-- The value of an expression when it is a known constant, unknown otherwise. -/
def Resolver.constantOnly (r : Resolver) (expr : Nat) : ValueRef :=
  match r.resolveValue expr with
  | v@(.constant _ _ _) => v
  | _ => .unknown

/-- A known 32-bit integer. -/
def Resolver.resolveInt32 (r : Resolver) (expr : Nat) : Option Int :=
  (r.resolve expr).bind Constant.asInt32?

end QueryScope
