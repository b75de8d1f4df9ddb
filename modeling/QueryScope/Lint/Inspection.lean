/-!
# Inspections

The five checks a lint engine can run on a query, each with its kebab-case name. An engine
runs the inspections it is given once each, in the order of their declaration here, whatever
order or repeats it was given them in.
-/

namespace QueryScope

/-- A check run on a query. -/
inductive Inspection where
  | namespaceCheck
  | fieldCheck
  | invalidProjection
  | notUsingFilters
  | indexCheck
  deriving DecidableEq, Repr, Inhabited

namespace Inspection

/-- Every inspection, in declaration order. -/
def all : List Inspection :=
  [.namespaceCheck, .fieldCheck, .invalidProjection, .notUsingFilters, .indexCheck]

/-- The kebab-case name of an inspection. -/
def name : Inspection → String
  | .namespaceCheck => "namespace-check"
  | .fieldCheck => "field-check"
  | .invalidProjection => "invalid-projection"
  | .notUsingFilters => "not-using-filters"
  | .indexCheck => "index-check"

/-- The inspection of a name. -/
def ofName? (s : String) : Option Inspection := all.find? (·.name == s)

/-- The refusal of a name that is no inspection. -/
def unknownMessage (s : String) : String := "unknown inspection '" ++ s ++ "'"

/-- The position of an inspection in declaration order. -/
def rank : Inspection → Nat
  | .namespaceCheck => 0
  | .fieldCheck => 1
  | .invalidProjection => 2
  | .notUsingFilters => 3
  | .indexCheck => 4

/-- The inspections an engine runs: each given one once, in declaration order. -/
def engine (given : List Inspection) : List Inspection := all.filter given.contains

/-- Names read back as their inspections. -/
theorem ofName?_name (i : Inspection) : ofName? i.name = some i := by
  cases i <;> rfl

end Inspection

end QueryScope
