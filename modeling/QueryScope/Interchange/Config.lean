import QueryScope.Service.Config
import QueryScope.Interchange.Document
import QueryScope.Interchange.Yaml
import QueryScope.Service.Error
/-!
# Interchange form of analyzer settings

Settings are an object with the camelCase keys `sampleSize`, `maxNamespaceHops`,
`maxResolutionDepth`, `enabledInspections`, `explainPlan`, `logFilter` and `defaultDatabase`,
each optional; other keys are ignored. An array gives the same settings by position, at most
seven of them. Counts are integers from 0 to 2^64 - 1, inspections their kebab-case names,
the explain level `none`, `safe` or `full`, and the default database a string or `null`.
Anything else fails to read, as a `parse` failure.
-/

namespace QueryScope

namespace AnalyzerConfig

/-- The keys of the settings, in the order of their positions. -/
def keys : List String :=
  ["sampleSize", "maxNamespaceHops", "maxResolutionDepth", "enabledInspections", "explainPlan",
    "logFilter", "defaultDatabase"]

section Reading

variable {α : Type} [Document α]

/-- Read a count. -/
def readCount (v : α) : Except ConfigError Nat :=
  match Document.count? v with
  | some n => .ok n
  | none => .error .parse

/-- Read a text. -/
def readText (v : α) : Except ConfigError String :=
  match Document.text? v with
  | some s => .ok s
  | none => .error .parse

/-- Read an inspection name. -/
def readInspection (v : α) : Except ConfigError Inspection := do
  match Inspection.ofName? (← readText v) with
  | some i => .ok i
  | none => .error .parse

/-- Read one setting into the settings; an unknown key leaves them unchanged. -/
def readSetting (c : AnalyzerConfig) (key : String) (v : α) : Except ConfigError AnalyzerConfig :=
  match key with
  | "sampleSize" => do pure { c with sampleSize := ← readCount v }
  | "maxNamespaceHops" => do pure { c with maxNamespaceHops := ← readCount v }
  | "maxResolutionDepth" => do pure { c with maxResolutionDepth := ← readCount v }
  | "enabledInspections" =>
    match Document.items? v with
    | some xs => do pure { c with enabledInspections := ← xs.mapM readInspection }
    | none => .error .parse
  | "explainPlan" => do
    match ExplainLevel.ofId? (← readText v) with
    | some l => pure { c with explainPlan := l }
    | none => .error .parse
  | "logFilter" => do pure { c with logFilter := ← readText v }
  | "defaultDatabase" =>
    if Document.isNull v then .ok { c with defaultDatabase := none }
    else do pure { c with defaultDatabase := some (← readText v) }
  | _ => .ok c

/-- Read settings from members or from a list by position, without checking them. -/
def read (d : α) : Except ConfigError AnalyzerConfig :=
  match Document.record? keys d with
  | some fields => fields.foldlM (fun c (k, v) => readSetting c k v) {}
  | none => .error .parse

end Reading

/-- The settings under the `mqlAnalyzer` key of an editor's settings, checked; without that
key the default settings. Log filters are checked by `acceptsFilter`. -/
def ofSettings (acceptsFilter : String → Bool) (settings : Json) :
    Except ConfigError AnalyzerConfig := do
  let c ← match settings.get? "mqlAnalyzer" with
    | some j => read j
    | none => pure {}
  c.validate acceptsFilter
  pure c

/-- The settings of a YAML document, checked, log filters by `acceptsFilter`. -/
def ofYaml (acceptsFilter : String → Bool) (text : String) :
    Except ConfigError AnalyzerConfig := do
  let c ← match Yaml.parse? text with
    | some d => read d
    | none => .error .parse
  c.validate acceptsFilter
  pure c

/-- The form of the settings. -/
def toJson (c : AnalyzerConfig) : Json :=
  .obj [("defaultDatabase", Json.optStr c.defaultDatabase),
    ("enabledInspections", .strs (c.enabledInspections.map Inspection.name)),
    ("explainPlan", .str c.explainPlan.id), ("logFilter", .str c.logFilter),
    ("maxNamespaceHops", .ofNat c.maxNamespaceHops), ("maxResolutionDepth", .ofNat c.maxResolutionDepth),
    ("sampleSize", .ofNat c.sampleSize)]

end AnalyzerConfig

/-- The form of a settings failure: its kind, and its message when it has one. -/
def ConfigError.toJson (e : ConfigError) : Json :=
  match e.message? with
  | some m => .obj [("error", .str e.label), ("message", .str m)]
  | none => .obj [("error", .str e.label)]

/-- The form of a service failure: its kind, and its message when it has one. -/
def ServiceError.toJson (e : ServiceError) : Json :=
  match e.message? with
  | some m => .obj [("error", .str e.label), ("message", .str m)]
  | none => .obj [("error", .str e.label)]

end QueryScope
