import QueryScope.Lowering.Driver.Query
import QueryScope.Lowering.Criteria.Query
/-!
# Query parsers of the dialects

A parser recognises the expressions that start a query of its dialect, finds the anchor that
owns the query an expression belongs to, lowers the query at an anchor, and tells which
expressions name a database, a collection or a document field. The two host dialects have
one each; the shell is only written, never read.
-/

namespace QueryScope

/-- What a dialect offers for reading queries out of a host program. -/
structure QueryParser where
  dialect : Dialect
  isCandidate : Program → Nat → Bool
  anchor : Program → Nat → Nat
  parse : Program → Nat → Lowering (Except LoweringError Node)
  isDatabaseReference : Program → Nat → Bool
  isCollectionReference : Program → Nat → Bool
  isFieldReference : Program → Nat → Bool

namespace QueryParser

/-- The parser of driver queries. -/
def driver : QueryParser where
  dialect := .javaDriver
  isCandidate := Driver.isCandidate
  anchor := Driver.anchor
  parse := Driver.parse
  isDatabaseReference := Driver.isDatabaseReference
  isCollectionReference := Driver.isCollectionReference
  isFieldReference := Driver.isFieldReference

/-- The parser of criteria queries; no expression names a database there. -/
def criteria : QueryParser where
  dialect := .springCriteria
  isCandidate := Criteria.isCandidate
  anchor := Criteria.anchor
  parse := Criteria.parse
  isDatabaseReference := fun _ _ => false
  isCollectionReference := Criteria.isCollectionReference
  isFieldReference := Criteria.isFieldReference

/-- The parsers tried in turn on each expression: driver queries first. -/
def registry : List QueryParser := [driver, criteria]

/-- Lower the query at an anchor in a fresh context with the given bounds, giving the result
and the context after lowering. -/
def lowerAt (qp : QueryParser) (p : Program) (maxDepth maxHops : Nat) (anchor : Nat) :
    Except LoweringError Node × LoweringContext :=
  (qp.parse p anchor).run (LoweringContext.withLimits qp.dialect maxDepth maxHops)

end QueryParser

/-- The parser of a dialect, if it is read from host programs. -/
def Dialect.parser? : Dialect → Option QueryParser
  | .javaDriver => some .driver
  | .springCriteria => some .criteria
  | .shell => none

end QueryScope
