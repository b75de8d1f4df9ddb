import QueryScope.Session.Service
import QueryScope.Interchange.ReadModel
import QueryScope.Interchange.Config
import QueryScope.Interchange.Lint
import QueryScope.Interchange.Program
import QueryScope.Requests.Service
/-!
# Analysis sessions

A session request builds one analysis service over a program and runs its steps in order.
Each step answers with its result and the size of the cache after it: the anchors whose
result is a query, and the entries of the namespace index. A step that looks a query up
also says whether it is the same query the session last answered for that anchor, which
tells a cache hit from a new parse.

A step names an expression by its label or by an id, which need not lie in the program. A
step that does not read makes the whole answer bad input.
-/

namespace QueryScope

namespace Requests

/-- The state of a session: its service, its program, and the query last answered for each
anchor. -/
structure SessionState where
  service : AnalysisService
  description : Description
  answered : List (Origin × Nat) := []

/-- Steps of a session; `none` when a step does not read. -/
abbrev Stepping := StateT SessionState Option

namespace Stepping

/-- Run a computation on the service. -/
def serve {α : Type} (x : Serving α) : Stepping α := fun st =>
  let (a, s) := x.run st.service
  some (a, { st with service := s })

/-- Refuse the step. -/
def refuse {α : Type} : Stepping α := fun _ => none

/-- A required part of a step. -/
def need {α : Type} : Option α → Stepping α
  | some a => pure a
  | none => refuse

/-- The program of the session. -/
def program : Stepping Program := do pure (← get).description.program

/-- The expression a step names: a label of the program, or an id. -/
def target (step : Json) : Stepping Nat := do
  let d := (← get).description
  match ← need (step.get? "at") with
  | .str s => need (d.labels.exprs.lookup s)
  | .int n => if 0 ≤ n then pure n.toNat else refuse
  | _ => refuse

/-- The answer for a looked-up query, which becomes the last answered for its anchor. -/
def answerQuery (q? : Option CachedQuery) : Stepping Json := do
  match q? with
  | none => pure (.obj [("query", .null)])
  | some q =>
    let st ← get
    let same := st.answered.lookup q.node.source == some q.stamp
    set { st with answered := Keyed.set q.node.source q.stamp st.answered }
    pure (.obj [("query", q.node.toJson), ("same", .bool same)])

/-- The answer for findings, or for the failure to deliver them. -/
def answerInsights : Except ServiceError (List Insight) → Json
  | .ok insights => .arr (insights.map Insight.export)
  | .error e => e.toJson

/-- Change the tracker. -/
def tracker (f : SourceTracker → SourceTracker) : Stepping Unit :=
  serve (AnalysisService.modifyTracker f)

/-- The tracker. -/
def currentTracker : Stepping SourceTracker := do pure (← get).service.cache.tracker

/-- Change the cache. -/
def cache (f : QueryCache → QueryCache) : Stepping Unit :=
  modify fun st => { st with service := { st.service with cache := f st.service.cache } }

/-- The form of a dialect of the registry. -/
def dialectFacts (qp : QueryParser) : Json :=
  .obj [("id", .str qp.dialect.id), ("debug", .str ("Dialect \x7b id: " ++ qp.dialect.label ++ " \x7d"))]

/-- The findings waiting on the channel, which are taken from it. -/
def drain : Stepping Json := do
  match (← get).service.dispatcher with
  | .channel pending =>
    modify fun st => { st with service := { st.service with dispatcher := .channel [] } }
    pure (.arr (pending.map fun i => .obj [("code", .str i.kind.code), ("source", i.source.toJson)]))
  | _ => pure .null

/-- The literal of an edit. -/
def literalOf (j : Json) : Option Literal :=
  match j with
  | .obj _ => do Literal.ofKind? (← j.text? "e") ((j.get? "v").getD .null)
  | _ => Literal.ofScalar? j

/-- Run one step: its result. -/
def run (step : Json) : Stepping Json := do
  let p ← program
  match ← need (step.text? "do") with
  | "query_at" => answerQuery (← serve (AnalysisService.queryAt p (← target step)))
  | "query_containing" => answerQuery (← serve (AnalysisService.queryContaining p (← target step)))
  | "cache_query_at" => answerQuery (← serve (AnalysisService.cachedQuery p (← target step)))
  | "siblings" =>
    match ← serve (AnalysisService.queryAt p (← target step)) with
    | none => pure (.obj [("siblings", .null)])
    | some q =>
      let found ← serve (AnalysisService.siblings q)
      pure (.obj [("siblings", .arr (found.map fun s => s.node.source.toJson))])
  | "anchor_of" =>
    match (← get).service.registry.anchorOf? p (← target step) with
    | some (qp, anchor) => pure (.obj [("dialect", .str qp.dialect.id), ("anchor", .ofNat anchor)])
    | none => pure .null
  | "dialect_for" =>
    match (← get).service.registry.dialectFor? p (← target step) with
    | some qp => pure (.str qp.dialect.id)
    | none => pure .null
  | "invalidate" => do
    let a ← target step
    cache (·.invalidate a)
    pure .null
  | "discard" => do
    let a ← target step
    cache (·.discard a)
    pure .null
  | "touch" => do
    let a ← target step
    let (g, t) := (← currentTracker).touch a
    tracker fun _ => t
    pure (.ofNat g)
  | "generation" => do pure (.ofNat ((← currentTracker).generation (← target step)))
  | "is_tracked" => do pure (.bool ((← currentTracker).isTracked (← target step)))
  | "file_of" => do pure (Json.optStr ((← currentTracker).fileOf (← target step)))
  | "touch_file" => do
    let path ← need (step.text? "path")
    let (n, t) := (← currentTracker).touchFile path
    tracker fun _ => t
    pure (.ofNat n)
  | "assign_file" => do
    let a ← target step
    let path ← need (step.text? "path")
    tracker (·.assignFile a path)
    pure .null
  | "set_db" => do
    let path ← need (step.text? "path")
    let database ← need (step.text? "database")
    tracker (·.setDatabase path database)
    pure .null
  | "clear_db" => do
    let path ← need (step.text? "path")
    tracker (·.clearDatabase path)
    pure .null
  | "db_override" => do pure (Json.optStr ((← currentTracker).databaseOf (← target step)))
  | "edit" => do
    let a ← target step
    if !p.hasExpr a then refuse
    let l ← need (literalOf (← need (step.get? "literal")))
    let (p', changed) := p.replaceLiteral a l
    modify fun st => { st with description := { st.description with
      builder := { st.description.builder with program := p' } } }
    pure (.bool changed)
  | "analyze" => do pure (answerInsights (← serve (AnalysisService.analyze p (← target step))))
  | "analyze_all" => do
    let anchors ← need ((← get).description.targets? (step.get? "at"))
    pure (answerInsights (← serve (AnalysisService.analyzeAll p anchors)))
  | "len" => do pure (.ofNat (← get).service.cache.size)
  | "indexed" => do pure (.ofNat (← get).service.cache.indexed)
  | "is_empty" => do pure (.bool ((← get).service.cache.size == 0))
  | "drain" => drain
  | "extend" => do
    let stmts ← need ((← need (step.get? "program")).arr?)
    let d ← need ((← get).description.extend? stmts)
    modify fun st => { st with description := d }
    pure (.ofNat d.program.exprs.size)
  | "config" => do pure (← get).service.config.toJson
  | "dialects" => do pure (.arr ((← get).service.registry.parsers.map dialectFacts))
  | "calls" => do
    let s := (← get).service
    pure (if s.model.reportsCalls then s.counts.toJson else .null)
  | _ => refuse

/-- Run the steps in order: one entry per step, with the cache's sizes after it. -/
def runAll : List Json → Stepping (List Json)
  | [] => pure []
  | step :: rest => do
    let result ← run step
    let c := (← get).service.cache
    let entry := Json.obj [("do", (step.get? "do").getD .null), ("result", result),
      ("len", .ofNat c.size), ("indexed", .ofNat c.indexed)]
    pure (entry :: (← runAll rest))

end Stepping

/-- The settings of a session: read as they are and checked by the service when `raw_config`
is set, else read as an editor's settings. -/
def sessionConfig (req : Json) : Option (Except ServiceError AnalyzerConfig) := do
  if ← req.flag? "raw_config" then
    match req.get? "config" with
    | none | some .null => pure (.ok {})
    | some j =>
      match AnalyzerConfig.read j with
      | .ok c => pure (.ok c)
      | .error _ => none
  else pure ((requestConfig req).mapError .config)

/-- The registry of a session: the dialects named, in order, or the standard registry. -/
def sessionRegistry (req : Json) : Option Registry :=
  match req.get? "registry" with
  | none | some .null => some .standard
  | some j => do
    let ids ← Json.mapArr Json.str? j
    let parsers ← ids.mapM fun id => (Dialect.ofId? id).bind Dialect.parser?
    pure ⟨parsers⟩

/-- The dispatcher of a session. -/
def sessionDispatcher (req : Json) : Option Dispatcher :=
  match req.get? "dispatcher" with
  | none | some .null => some .log
  | some (.str "channel") => some (.channel [])
  | some (.str "closed") => some .closed
  | some _ => none

/-- The answer to `session`. -/
def sessionAnswer (req : Json) : Option Json := do
  let d ← Description.read? (← req.need "program")
  let model ← ReadModel.ofRequest? req
  let registry ← sessionRegistry req
  let dispatcher ← sessionDispatcher req
  let steps ← (← req.need "steps").arr?
  match ← sessionConfig req with
  | .error e => pure e.toJson
  | .ok config =>
    match AnalysisService.create LogFilter.valid config model with
    | .error e => pure e.toJson
    | .ok service =>
      let st : SessionState := { service := { service with registry, dispatcher }, description := d }
      let (entries, _) ← StateT.run (Stepping.runAll steps) st
      pure (.arr entries)

end Requests

end QueryScope
