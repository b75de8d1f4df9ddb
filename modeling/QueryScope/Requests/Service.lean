import QueryScope.Service.Registry
import QueryScope.Service.LogFilter
import QueryScope.Interchange.Config
import QueryScope.Interchange.Shell
import QueryScope.Shell.Index
import QueryScope.Requests.Lowering
/-!
# Requests on the analysis service

The answers about settings and about the queries a registry finds in a program, written as
shell text with the index suggestion for each. Settings are checked with `LogFilter.valid` as
the logging library's filter syntax.
-/

namespace QueryScope

namespace Requests

/-- The settings of a request's `config` member, as an editor passes them; the default
settings without one. -/
def requestConfig (req : Json) : Except ConfigError AnalyzerConfig :=
  match req.get? "config" with
  | none | some .null => AnalyzerConfig.ofSettings LogFilter.valid (.obj [])
  | some j => AnalyzerConfig.ofSettings LogFilter.valid (.obj [("mqlAnalyzer", j)])

/-- The answer for checked settings: the settings and the inspections their engine runs. -/
def configFacts (c : AnalyzerConfig) : Json :=
  .obj [("config", c.toJson), ("engine", .strs (c.engine.map Inspection.name))]

/-- The answer to `config`. -/
def configAnswer (req : Json) : Option Json := do
  match req.get? "settings" with
  | some s =>
    match AnalyzerConfig.ofSettings LogFilter.valid s with
    | .ok c => pure (configFacts c)
    | .error e => pure e.toJson
  | none =>
    match AnalyzerConfig.ofYaml LogFilter.valid (← req.text? "yaml") with
    | .ok c => pure (configFacts c)
    | .error e => pure e.toJson

/-- The answer to `error_info` for a service failure: checked settings, or a failure to
deliver findings. -/
def serviceFailureAnswer (j : Json) : Option Json :=
  match j.get? "config", j.get? "lint" with
  | some s, _ =>
    match AnalyzerConfig.ofSettings LogFilter.valid (.obj [("mqlAnalyzer", s)]) with
    | .ok _ => some (.obj [("valid", .bool true)])
    | .error e => some (ServiceError.config e).toJson
  | none, some l => do pure (ServiceError.dispatch (← LintError.ofJson? l)).toJson
  | none, none => none

/-- An optional text member of a request. -/
def optText? (req : Json) (k : String) : Option (Option String) :=
  match req.get? k with
  | none | some .null => some none
  | some j => j.str?.map some

/-- The answer to `format`. -/
def formatAnswer (req : Json) : Option Json := do
  let d ← Description.read? (← req.need "program")
  let ts ← targetsOf d req
  let ctx ← Shell.Context.ofJson? ((req.get? "context").getD .null)
  let explain ← match req.get? "explain" with
    | none | some .null => some none
    | some j => (ExplainLevel.ofId? (← j.str?)).map some
  let database ← optText? req "database"
  let target ← optText? req "target"
  match requestConfig req with
  | .error e => pure e.toJson
  | .ok config =>
    let p := d.program
    let entries := ts.filterMap fun id =>
      match Registry.standard.parse? p id config with
      | some n =>
        let n := match database with
          | some db => n.withDatabase db
          | none => n
        let n := match target with
          | some v => n.withTargetCluster v
          | none => n
        let n := match explain with
          | some l => n.withExplain l
          | none => n
        some (Json.obj [("expr", .ofNat id), ("output", (Shell.formatQuery ctx n).toJson),
          ("index", .str n.indexCommand)])
      | none => if targetsAll req then none else some (.obj [("expr", .ofNat id), ("query", .null)])
    pure (.arr entries)

/-- The answer to a request on the analysis service, `none` for bad input or another
operation. -/
def service (op : String) (req : Json) : Option Json :=
  match op with
  | "config" => configAnswer req
  | "error_info" => do serviceFailureAnswer (← req.need "service")
  | "format" => formatAnswer req
  | _ => none

end Requests

end QueryScope
