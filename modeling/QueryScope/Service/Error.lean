import QueryScope.Service.Config
import QueryScope.Lint.Error
/-!
# Failures of the analysis service

The service fails when its settings are refused, or when findings were computed but could
not be delivered. Parsing and metadata failures never reach this level: a query that does not
lower is partial, and metadata that cannot be read leaves a query undecorated.
-/

namespace QueryScope

/-- Why the analysis service failed. -/
inductive ServiceError where
  | config (e : ConfigError)
  | dispatch (e : LintError)

namespace ServiceError

/-- The name of the kind of failure. -/
def label : ServiceError → String
  | .config _ => "Config"
  | .dispatch _ => "Dispatch"

/-- The message of a failure, when its cause has one of its own. -/
def message? : ServiceError → Option String
  | .config e => e.message?.map ("Configuration error: " ++ ·)
  | .dispatch e => some ("Dispatch failed: " ++ e.message)

end ServiceError

end QueryScope
