import QueryScope.Proofs.Session.Operations
/-!
# Fresh answers from the query cache

A run of operations on a cache is observed beside a record of what the run has shown
(`Recall`): for each anchor, the answer of its last look-up when no edit of it came after, and
the number of queries parsed before its latest edit. The record speaks only of look-ups and
edits, never of generations or of the memo.

Along every run whose discards go through the cache, the memo agrees with the record
(`Observed.Fresh`), so that a look-up answers without parsing exactly when an earlier look-up
of the anchor was not followed by an edit of it, answers then what that look-up answered, and
never answers a query parsed before the latest edit (`queryAt_run_fresh`). An edit is what the tracker
counts as one: a set of a file's database edits its anchors even when the file already has
that database (`queryAt_reparses_after_same_database`). A discard in the tracker alone breaks
this: it returns the anchor to generation 0, where a query remembered from before any edit is
current again (`queryAt_after_trackerDiscard`).
-/

namespace QueryScope

/-- What a run has shown about each anchor. -/
structure Recall where
  /-- The answer of the anchor's last look-up, unless an edit of it came after. -/
  answer : Nat → Option (Option CachedQuery)
  /-- How many queries had been parsed at the anchor's latest edit. -/
  editedAt : Nat → Nat

/-- A cache observed along a run, with the record of the run. -/
structure Observed where
  cache : QueryCache
  record : Recall

namespace Observed

/-- An empty cache, before anything was looked up or edited. -/
def init : Observed := ⟨{}, ⟨fun _ => none, fun _ => 0⟩⟩

/-- One operation, applied to the cache and recorded. -/
def step (o : Observed) (op : CacheOp) : Observed where
  cache := op.apply o.cache
  record :=
    { answer := op.remember o.cache o.record.answer
      editedAt := fun b => if op.edits o.cache b then o.cache.parses else o.record.editedAt b }

/-- A run of operations from an empty cache. -/
def run (ops : List CacheOp) : Observed := ops.foldl step init

theorem cache_run (ops : List CacheOp) : (run ops).cache = CacheOp.run {} ops := by
  suffices h : ∀ o : Observed, (ops.foldl step o).cache = CacheOp.run o.cache ops from h init
  induction ops with
  | nil => intro o; rfl
  | cons op rest ih => intro o; exact ih (o.step op)

/-! ### The invariant -/

/-- The memo agrees with the record, and no remembered query was parsed before the latest
edit of its anchor. -/
structure Fresh (o : Observed) : Prop where
  coherent : o.cache.Coherent
  memoized_eq : ∀ b, o.cache.memoized b = o.record.answer b
  editedAt_le : ∀ b, o.record.editedAt b ≤ o.cache.parses
  editedAt_le_stamp : ∀ b q, o.record.answer b = some (some q) → o.record.editedAt b ≤ q.stamp

theorem fresh_init : init.Fresh where
  coherent := QueryCache.coherent_empty
  memoized_eq b := by simp [init, QueryCache.memoized]
  editedAt_le b := Nat.zero_le _
  editedAt_le_stamp b q h := by simp [init] at h

variable {o : Observed}

/-- The query a look-up answers was parsed no earlier than the latest edit of its anchor. -/
theorem editedAt_le_queryAt (h : o.Fresh) {a : Nat} {parse : Nat → Option Node}
    {q : CachedQuery} (hq : (o.cache.queryAt a parse).1 = some q) :
    o.record.editedAt a ≤ q.stamp := by
  rcases QueryCache.queryAt_fst_eq_some hq with hm | hs
  · exact h.editedAt_le_stamp a q (h.memoized_eq a ▸ hm)
  · exact hs ▸ h.editedAt_le a

/-- Every operation but a discard in the tracker alone keeps the record fresh. -/
theorem fresh_step (h : o.Fresh) {op : CacheOp} (hd : op.discardsInTracker = false) :
    (o.step op).Fresh := by
  have hm : o.cache.memoized = o.record.answer := funext h.memoized_eq
  refine ⟨CacheOp.coherent_apply h.coherent op, ?_, ?_, ?_⟩
  · intro b
    show (op.apply o.cache).memoized b = op.remember o.cache o.record.answer b
    rw [CacheOp.memoized_apply h.coherent hd, hm]
  · intro b
    have hp := CacheOp.parses_apply (c := o.cache) op
    show (if op.edits o.cache b then o.cache.parses else o.record.editedAt b) ≤ _
    split
    · exact hp
    · exact Nat.le_trans (h.editedAt_le b) hp
  · intro b q hb
    change op.remember o.cache o.record.answer b = some (some q) at hb
    show (if op.edits o.cache b then o.cache.parses else o.record.editedAt b) ≤ q.stamp
    cases op with
    | queryAt a parse =>
      simp only [CacheOp.remember] at hb
      simp only [CacheOp.edits, Bool.false_eq_true, ↓reduceIte]
      split at hb
      · -- the anchor just looked up remembers the answer it was given
        next hba =>
        subst hba
        exact editedAt_le_queryAt h (Option.some.inj hb)
      · exact h.editedAt_le_stamp b q hb
    | invalidate a | discard a | tracker op =>
      simp only [CacheOp.remember] at hb
      split at hb
      · cases hb
      · next he => simpa only [he, Bool.false_eq_true, ↓reduceIte] using h.editedAt_le_stamp b q hb

/-- Every run whose discards go through the cache keeps the record fresh. -/
theorem fresh_run {ops : List CacheOp} (hops : ∀ op ∈ ops, op.discardsInTracker = false) :
    (run ops).Fresh := by
  suffices h : ∀ o : Observed, o.Fresh → (ops.foldl step o).Fresh from h init fresh_init
  induction ops with
  | nil => intro o ho; exact ho
  | cons op rest ih =>
    intro o ho
    have hd := hops op List.mem_cons_self
    exact ih (fun op' hop' => hops op' (List.mem_cons_of_mem op hop')) (o.step op)
      (fresh_step ho hd)

end Observed

/-! ### Look-ups along a run -/

/-- **Fresh answers.** After any run whose discards go through the cache, a look-up of an
anchor answers without parsing exactly when the run looked the anchor up and did not edit it
since, and then answers the very query (the same parse, by its stamp) that look-up answered;
otherwise it parses at the anchor's current generation. Either way it never answers a query
parsed before the latest edit of the anchor. -/
theorem queryAt_run_fresh (ops : List CacheOp) (hops : ∀ op ∈ ops, op.discardsInTracker = false)
    (a : Nat) (parse : Nat → Option Node) :
    let o := Observed.run ops
    (∀ q, o.record.answer a = some q → o.cache.queryAt a parse = (q, o.cache)) ∧
    (o.record.answer a = none →
      o.cache.queryAt a parse = o.cache.parseAt a (o.cache.tracker.generation a) parse) ∧
    (∀ q, (o.cache.queryAt a parse).1 = some q → o.record.editedAt a ≤ q.stamp) := by
  intro o
  have h : o.Fresh := Observed.fresh_run hops
  refine ⟨?_, ?_, fun q hq => Observed.editedAt_le_queryAt h hq⟩
  · intro q hq
    exact QueryCache.queryAt_of_memoized (h.memoized_eq a ▸ hq) parse
  · intro hq
    exact QueryCache.queryAt_of_not_memoized (h.memoized_eq a ▸ hq) parse

/-- A touch of a looked-up anchor makes the next look-up parse again. -/
theorem queryAt_run_fresh_after_touch :
    let o := Observed.run [.queryAt 1 fun _ => some ⟨.expr 1, []⟩, .tracker (.touch 1)]
    o.record.answer 1 = none ∧
      o.cache.queryAt 1 (fun _ => some ⟨.expr 1, []⟩) =
        o.cache.parseAt 1 (o.cache.tracker.generation 1) fun _ => some ⟨.expr 1, []⟩ :=
  ⟨rfl, (queryAt_run_fresh _ (by decide) 1 _).2.1 rfl⟩

/-- A discard in the tracker alone is an edit the cache does not see: the anchor returns to
generation 0, and the query parsed there before the discard is answered again, without a
parse. -/
theorem queryAt_after_trackerDiscard :
    let o := Observed.run [.queryAt 0 fun _ => some ⟨.expr 0, []⟩, .tracker (.discard 0)]
    o.record.answer 0 = none ∧
      o.cache.queryAt 0 (fun _ => some ⟨.expr 0, []⟩) = (some ⟨0, ⟨.expr 0, []⟩⟩, o.cache) ∧
      0 < o.record.editedAt 0 :=
  ⟨rfl, rfl, by decide⟩

/-- Setting a file's database to the one it already has edits the anchors of the file all the
same: the override reads the same before and after, and yet the look-up that answered the
query of stamp 0 answers a new parse, of stamp 1, once the same database is set again. -/
theorem queryAt_reparses_after_same_database :
    let parse : Nat → Option Node := fun _ => some ⟨.expr 0, []⟩
    let before := CacheOp.run {} [.tracker (.assignFile 0 "Repo.java"),
      .tracker (.setDatabase "Repo.java" "prod"), .queryAt 0 parse]
    let after := CacheOp.run before [.tracker (.setDatabase "Repo.java" "prod")]
    before.tracker.databaseOf 0 = some "prod" ∧ after.tracker.databaseOf 0 = some "prod" ∧
      (before.queryAt 0 parse).1 = some ⟨0, ⟨.expr 0, []⟩⟩ ∧
      after.memoized 0 = none ∧ (after.queryAt 0 parse).1 = some ⟨1, ⟨.expr 0, []⟩⟩ :=
  ⟨rfl, rfl, rfl, rfl, rfl⟩

end QueryScope
