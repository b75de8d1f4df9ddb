import QueryScope.Catalog.Error
/-!
# Failures of a lint pass

A pass fails when metadata it requires could not be read, when the receiver of its findings
went away, or when a finding could not be written. A metadata failure keeps the
recoverability and severity of the read that failed.
-/

namespace QueryScope

/-- Why a lint pass failed. -/
inductive LintError where
  /-- A required metadata read failed. -/
  | metadata (e : CatalogError)
  /-- The receiver of findings went away after some of them were delivered. -/
  | channelClosed (delivered total : Nat)
  /-- A finding could not be written. -/
  | serialization (detail : String)
deriving DecidableEq

namespace LintError

/-- The name of the kind of failure. -/
def label : LintError → String
  | .metadata _ => "Metadata"
  | .channelClosed _ _ => "ChannelClosed"
  | .serialization _ => "Serialization"

/-- The message of a failure. -/
def message : LintError → String
  | .metadata e => "Metadata unavailable: " ++ e.message
  | .channelClosed d t =>
    "Insight channel closed after " ++ toString d ++ " of " ++ toString t ++ " insights"
  | .serialization d => "Failed to serialize insight: " ++ d

/-- Whether running the pass again may succeed. -/
def recoverable : LintError → Bool
  | .metadata e => e.recoverable
  | _ => false

/-- How serious the failure is. -/
def severity : LintError → Severity
  | .metadata e => e.severity
  | .channelClosed _ _ => .warning
  | .serialization _ => .error

end LintError

end QueryScope
