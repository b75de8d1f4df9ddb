import QueryScope.Query.Dialect
import QueryScope.Severity
/-!
# Failures of lowering

Most of what lowering does not understand is not a failure: an unknown call becomes an
unknown operator, an unresolved value an unknown or runtime reference. The failures below are
recorded while lowering, and only a few of them stop it. The unsupported, unresolved and
too-deep cases are recoverable: the query is still produced, with placeholders.
-/

namespace QueryScope

/-- Why lowering an expression failed, or what it had to leave out. -/
inductive LoweringError where
  /-- The expression is no query of the dialect. -/
  | notACandidate (dialect : Dialect) (expr : String)
  /-- The expression belongs to the query of another anchor. -/
  | notTheAnchor (expr anchor : String)
  /-- A call shape the dialect does not know. -/
  | unsupportedSyntax (dialect : Dialect) (feature : String)
  /-- A name or value could not be resolved. -/
  | unresolved (what expr : String)
  /-- Nesting went deeper than the limit. -/
  | recursionLimit (context : String) (depth limit : Nat)
  /-- Any other failure. -/
  | generic (message : String)
deriving DecidableEq

namespace LoweringError

/-- The name of the kind of failure. -/
def label : LoweringError → String
  | .notACandidate _ _ => "NotACandidate"
  | .notTheAnchor _ _ => "NotTheAnchor"
  | .unsupportedSyntax _ _ => "UnsupportedSyntax"
  | .unresolved _ _ => "Unresolved"
  | .recursionLimit _ _ _ => "RecursionLimitExceeded"
  | .generic _ => "Generic"

/-- The message of a failure. -/
def message : LoweringError → String
  | .notACandidate d e => "Expression " ++ e ++ " is not a " ++ d.id ++ " query"
  | .notTheAnchor e a => "Expression " ++ e ++ " belongs to the query anchored at " ++ a
  | .unsupportedSyntax d f => "Syntax not supported by " ++ d.id ++ ": " ++ f
  | .unresolved w e => "Could not resolve " ++ w ++ " at " ++ e
  | .recursionLimit c d l =>
    "Recursion limit exceeded: " ++ c ++ " (depth: " ++ toString d ++ ", limit: " ++
      toString l ++ ")"
  | .generic m => "Lowering error: " ++ m

/-- Whether the query is still produced, with placeholders. -/
def recoverable : LoweringError → Bool
  | .unsupportedSyntax _ _ | .unresolved _ _ | .recursionLimit _ _ _ => true
  | _ => false

/-- How serious the failure is. -/
def severity : LoweringError → Severity
  | .notACandidate _ _ | .notTheAnchor _ _ | .generic _ => .error
  | .unsupportedSyntax _ _ | .recursionLimit _ _ _ => .warning
  | .unresolved _ _ => .info

end LoweringError

/-- The bound on nesting and on namespace search steps when none is given. -/
def defaultLimit : Nat := 50

/-- The state of lowering one expression: the failures recorded so far and the nesting. -/
structure LoweringContext where
  dialect : Dialect
  errors : List LoweringError := []
  depth : Nat := 0
  maxDepth : Nat := defaultLimit
  maxHops : Nat := defaultLimit

/-- What lowering achieved: everything, or a query with some failures recorded. -/
inductive LoweringOutcome where
  | success
  | degraded (errors : List LoweringError)

namespace LoweringContext

/-- A fresh context with the given bounds. -/
def withLimits (d : Dialect) (maxDepth maxHops : Nat) : LoweringContext :=
  { dialect := d, maxDepth, maxHops }

/-- Record a failure. -/
def addError (c : LoweringContext) (e : LoweringError) : LoweringContext :=
  { c with errors := c.errors ++ [e] }

/-- Whether a failure has been recorded. -/
def hasErrors (c : LoweringContext) : Bool := !c.errors.isEmpty

/-- The outcome so far. -/
def outcome (c : LoweringContext) : LoweringOutcome :=
  if c.errors.isEmpty then .success else .degraded c.errors

/-- Go one level deeper, refused once the depth has reached its bound. -/
def enter (c : LoweringContext) (what : String) : Except LoweringError LoweringContext :=
  if c.maxDepth ≤ c.depth then .error (.recursionLimit what c.depth c.maxDepth)
  else .ok { c with depth := c.depth + 1 }

/-- Come back one level. -/
def exit (c : LoweringContext) : LoweringContext := { c with depth := c.depth - 1 }

end LoweringContext

end QueryScope
