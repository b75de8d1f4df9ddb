import QueryScope.Lowering.Parser
import QueryScope.Service.Config
/-!
# Dialect registries

A registry holds the dialects an analysis reads, in order. An expression belongs to the
first dialect whose parser takes it as a candidate, and that parser names its anchor; a query
is lowered by the first dialect for which the expression is both a candidate and its own
anchor, with the settings' bounds. A query the parser refuses is no query.
-/

namespace QueryScope

/-- The dialects an analysis reads, in the order they are tried. -/
structure Registry where
  parsers : List QueryParser

namespace Registry

/-- The registry of both host dialects, driver queries first. -/
def standard : Registry := ⟨QueryParser.registry⟩

/-- The dialect an expression belongs to, with its anchor. -/
def anchorOf? (reg : Registry) (p : Program) (expr : Nat) : Option (QueryParser × Nat) :=
  if p.hasExpr expr then
    reg.parsers.findSome? fun qp => if qp.isCandidate p expr then some (qp, qp.anchor p expr) else none
  else none

/-- The dialect whose query is anchored at an expression. -/
def dialectFor? (reg : Registry) (p : Program) (anchor : Nat) : Option QueryParser :=
  if p.hasExpr anchor then
    reg.parsers.find? fun qp => qp.isCandidate p anchor && qp.anchor p anchor == anchor
  else none

/-- The query anchored at an expression, lowered with the settings' bounds. -/
def parse? (reg : Registry) (p : Program) (anchor : Nat) (c : AnalyzerConfig) : Option Node := do
  let qp ← reg.dialectFor? p anchor
  match (qp.lowerAt p c.maxResolutionDepth c.maxNamespaceHops anchor).1 with
  | .ok n => some n
  | .error _ => none

end Registry

end QueryScope
