/-!
# Severity of a failure

Every failure of the analysis has a severity: a note, a warning, or an error. They are
ordered in that sequence.
-/

namespace QueryScope

/-- How serious a failure is. -/
inductive Severity where
  | info
  | warning
  | error
deriving DecidableEq, Repr

/-- The name of a severity. -/
def Severity.label : Severity → String
  | .info => "Info"
  | .warning => "Warning"
  | .error => "Error"

end QueryScope
