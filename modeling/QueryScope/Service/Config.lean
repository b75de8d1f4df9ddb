import QueryScope.Lint.Inspection
import QueryScope.Query.Dialect
/-!
# Analyzer settings

The settings of an analysis: the sample size for schema inference, the bounds on namespace
search and on constant resolution, the inspections to run, the explain level, the log filter
and an optional default database.

Settings are valid when the three counts are positive, the log filter is well formed, and a
default database, if given, is a non-empty name without `/`, `\`, `.`, space, `"` or `$`; the
checks run in that order and the first failure is reported. What makes a log filter well formed
is the logging library's filter syntax, which validation takes as a parameter
(`acceptsFilter`).
-/

namespace QueryScope

/-- The bound on traversal steps when none is set. -/
def defaultTraversalLimit : Nat := 50

/-- The number of documents sampled to infer a schema when none is set. -/
def defaultSampleSize : Nat := 50

/-- The settings of an analysis. -/
structure AnalyzerConfig where
  sampleSize : Nat := defaultSampleSize
  maxNamespaceHops : Nat := defaultTraversalLimit
  maxResolutionDepth : Nat := defaultTraversalLimit
  enabledInspections : List Inspection := Inspection.all
  explainPlan : ExplainLevel := .safe
  logFilter : String := "info"
  defaultDatabase : Option String := none

/-- Why settings were refused. -/
inductive ConfigError where
  /-- A setting has a value out of its range. -/
  | invalidValue (field reason : String)
  /-- The log filter is malformed. -/
  | invalidLogFilter
  /-- The settings do not read as settings. -/
  | parse

namespace ConfigError

/-- The kind of the failure. -/
def label : ConfigError → String
  | .invalidValue _ _ => "InvalidValue"
  | .invalidLogFilter => "InvalidLogFilter"
  | .parse => "Parse"

/-- The message of a refused value. -/
def message? : ConfigError → Option String
  | .invalidValue field reason => some ("Invalid setting " ++ field ++ ": " ++ reason)
  | _ => none

end ConfigError

namespace AnalyzerConfig

/-- The characters a database name may not hold. -/
def forbiddenInDatabase : List Char := ['/', '\\', '.', ' ', '"', '$']

/-- Whether a text is a valid database name. -/
def validDatabase (name : String) : Bool :=
  !name.isEmpty && !name.toList.any forbiddenInDatabase.contains

/-- Check the settings, reporting the first failure; `acceptsFilter` tells whether the logging
library builds a filter from a text. -/
def validate (acceptsFilter : String → Bool) (c : AnalyzerConfig) : Except ConfigError Unit := do
  for (field, value) in [("sampleSize", c.sampleSize), ("maxNamespaceHops", c.maxNamespaceHops),
      ("maxResolutionDepth", c.maxResolutionDepth)] do
    if value == 0 then throw (.invalidValue field "must be > 0")
  if !acceptsFilter c.logFilter then throw .invalidLogFilter
  match c.defaultDatabase with
  | some db =>
    if !validDatabase db then
      throw (.invalidValue "defaultDatabase" ("'" ++ db ++ "' is not a valid database name"))
  | none => pure ()

/-- The inspections the settings' engine runs. -/
def engine (c : AnalyzerConfig) : List Inspection := Inspection.engine c.enabledInspections

end AnalyzerConfig

end QueryScope
