import QueryScope.Session.Cache
import QueryScope.Service.Registry
import QueryScope.Service.Decorate
import QueryScope.Service.Error
import QueryScope.Lint.Gather
import QueryScope.Lint.Engine
/-!
# The analysis service

A service holds checked settings, a read model, a registry of dialects, a query cache and a
dispatcher for its findings. Analysing the query at an anchor runs the whole pipeline: the
query is looked up in the cache (parsed on a miss), decorated with the database of its file
or the settings' default database, its metadata is gathered, the enabled inspections run on
it, and the findings are delivered. An anchor that holds no query has no findings; the only
failure is a delivery that fails.

The service is a value; its operations thread it as state, together with the read model's
call counts.
-/

namespace QueryScope

/-- Where the findings of an analysis go. -/
inductive Dispatcher where
  /-- Findings are only logged, which never fails. -/
  | log
  /-- Findings are queued on a channel whose receiver is open. -/
  | channel (pending : List Insight)
  /-- The receiver of the channel is gone: delivering a finding fails. -/
  | closed

/-- Deliver findings, in order; a closed channel delivers none of them. -/
def Dispatcher.dispatch : Dispatcher → List Insight → Except LintError Dispatcher
  | .log, _ => .ok .log
  | .channel pending, insights => .ok (.channel (pending ++ insights))
  | .closed, [] => .ok .closed
  | .closed, insights => .error (.channelClosed 0 insights.length)

/-- An analysis service. -/
structure AnalysisService where
  config : AnalyzerConfig
  model : ReadModel
  registry : Registry := .standard
  cache : QueryCache := {}
  dispatcher : Dispatcher := .log
  counts : CallCounts := {}

/-- Computations on a service. -/
abbrev Serving := StateM AnalysisService

namespace AnalysisService

/-- A service with checked settings, log filters checked by `acceptsFilter`. -/
def create (acceptsFilter : String → Bool) (config : AnalyzerConfig) (model : ReadModel) :
    Except ServiceError AnalysisService :=
  match config.validate acceptsFilter with
  | .ok () => .ok { config, model }
  | .error e => .error (.config e)

/-- Make read-model calls, counting them. -/
def reading {α : Type} (r : Reads α) : Serving α := do
  let s ← get
  let (a, counts) := r.run s.counts
  set { s with counts }
  pure a

/-- Change the tracker. -/
def modifyTracker (f : SourceTracker → SourceTracker) : Serving Unit :=
  modify fun s => { s with cache := { s.cache with tracker := f s.cache.tracker } }

/-- The query at an anchor from the cache, parsed by the registry on a miss. -/
def cachedQuery (p : Program) (anchor : Nat) : Serving (Option CachedQuery) := do
  let s ← get
  let (q, cache) := s.cache.queryAt anchor fun a => s.registry.parse? p a s.config
  set { s with cache }
  pure q

/-- The query at an anchor; the first time the anchor is seen, the file it lives in is
recorded. -/
def queryAt (p : Program) (anchor : Nat) : Serving (Option CachedQuery) := do
  match ← cachedQuery p anchor with
  | none => pure none
  | some q =>
    if ((← get).cache.tracker.fileOf anchor).isNone then
      match (p.fileOf? anchor).bind fun f => p.files[f]? with
      | some path => modifyTracker fun t => t.assignFile anchor path
      | none => pure ()
    pure (some q)

/-- The query that owns an expression, wherever the expression sits in it. -/
def queryContaining (p : Program) (expr : Nat) : Serving (Option CachedQuery) := do
  match (← get).registry.anchorOf? p expr with
  | some (_, anchor) => queryAt p anchor
  | none => pure none

/-- The cached queries that share the namespace of a query. -/
def siblings (q : CachedQuery) : Serving (List CachedQuery) := do
  pure ((← get).cache.siblings q)

/-- Analyse the query at an anchor: its findings, or the failure to deliver them. -/
def analyze (p : Program) (anchor : Nat) : Serving (Except ServiceError (List Insight)) := do
  match ← queryAt p anchor with
  | none => pure (.ok [])
  | some q =>
    let s ← get
    let database := (s.cache.tracker.databaseOf anchor).orElse fun _ => s.config.defaultDatabase
    let decorated ← reading (s.model.decorate s.config.sampleSize q.node database)
    let g : Gatherer := ⟨s.model, s.config.sampleSize, s.config.explainPlan⟩
    let input ← reading (g.gather decorated)
    let insights := Lint.run s.config.enabledInspections decorated input
    match s.dispatcher.dispatch insights with
    | .ok d =>
      modify fun s => { s with dispatcher := d }
      pure (.ok insights)
    | .error e => pure (.error (.dispatch e))

/-- Analyse the queries at anchors in order, stopping at the first failure. -/
def analyzeAll (p : Program) : List Nat → Serving (Except ServiceError (List Insight))
  | [] => pure (.ok [])
  | a :: rest => do
    match ← analyze p a with
    | .error e => pure (.error e)
    | .ok found =>
      match ← analyzeAll p rest with
      | .error e => pure (.error e)
      | .ok more => pure (.ok (found ++ more))

end AnalysisService

end QueryScope
