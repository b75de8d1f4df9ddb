/-!
# Dialects and explain levels

A query is written in a dialect: one of the two host-language client libraries this library
reads (the Java driver and Spring Data criteria), or the shell, whose text it writes. An
explain level says how much the server is asked to report about its plan.
-/

namespace QueryScope

/-- The dialect a query is written in. -/
inductive Dialect where
  | javaDriver
  | springCriteria
  | shell
deriving DecidableEq, Repr, Inhabited

namespace Dialect

/-- The identifier of the dialect. -/
def id : Dialect → String
  | .javaDriver => "java-driver"
  | .springCriteria => "spring-criteria"
  | .shell => "mongosh"

/-- The dialect with an identifier. -/
def ofId? : String → Option Dialect
  | "java-driver" => some .javaDriver
  | "spring-criteria" => some .springCriteria
  | "mongosh" => some .shell
  | _ => none

/-- The name of the dialect as a constructor. -/
def label : Dialect → String
  | .javaDriver => "JavaDriver"
  | .springCriteria => "SpringCriteria"
  | .shell => "Mongosh"

/-- Dialects this library reads queries from. -/
def isParseable : Dialect → Bool
  | .javaDriver | .springCriteria => true
  | .shell => false

/-- Dialects whose written text can be run as it is. -/
def rendersExecutableText : Dialect → Bool
  | .shell => true
  | _ => false

end Dialect

/-- How much the server reports about its plan. -/
inductive ExplainLevel where
  | none
  | safe
  | full
deriving DecidableEq, Repr, Inhabited

namespace ExplainLevel

/-- The spelling of the level. -/
def id : ExplainLevel → String
  | .none => "none"
  | .safe => "safe"
  | .full => "full"

/-- The level with a spelling. -/
def ofId? : String → Option ExplainLevel
  | "none" => some .none
  | "safe" => some .safe
  | "full" => some .full
  | _ => Option.none

/-- The verbosity the server is asked for; none at level `none`. -/
def verbosity : ExplainLevel → Option String
  | .none => Option.none
  | .safe => some "queryPlanner"
  | .full => some "executionStats"

end ExplainLevel

end QueryScope
