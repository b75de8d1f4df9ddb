import QueryScope.Session.Cache
/-!
# Operations on a query cache and its tracker

A query cache and the tracker it reads generations from change only through a few
operations: look-ups, invalidations and discards on the cache, and touches, file assignments,
database overrides and discards on the tracker. They are named here as data (`TrackerOp`,
`CacheOp`), so that a run is a list of them, and what each does is said once:

* to the generation of an anchor (`TrackerOp.generation_apply`): an edit of the anchor's
  source moves it to the clock's next tick, a discard in the tracker returns it to 0, and
  everything else keeps it;
* to the result remembered for an anchor at its current generation (`memoized_apply`): a
  look-up of the anchor remembers its answer, an edit forgets it, and everything else keeps
  it, as long as the tracker alone does not discard the anchor.

`QueryCache.Coherent` collects what every run keeps and these lemmas rely on: one file per
anchor, no generation past the tracker's clock, unique anchors in the memo, and index entries
stamped below the number of queries parsed so far.
-/

namespace QueryScope

/-- An operation on a tracker. -/
inductive TrackerOp where
  | touch (anchor : Nat)
  | touchFile (path : String)
  | discard (anchor : Nat)
  | assignFile (anchor : Nat) (path : String)
  | setDatabase (path database : String)
  | clearDatabase (path : String)

namespace SourceTracker

/-- What every tracker keeps from its creation on: one file per anchor, and no generation
past the clock. -/
structure Coherent (t : SourceTracker) : Prop where
  files_nodup : (t.files.map (·.1)).Nodup
  generation_le : ∀ a, t.generation a ≤ t.clock

theorem coherent_empty : ({} : SourceTracker).Coherent where
  files_nodup := List.nodup_nil
  generation_le a := by simp [generation]

end SourceTracker

namespace TrackerOp

/-- The tracker after an operation. -/
def apply (t : SourceTracker) : TrackerOp → SourceTracker
  | .touch a => (t.touch a).2
  | .touchFile path => (t.touchFile path).2
  | .discard a => t.discard a
  | .assignFile a path => t.assignFile a path
  | .setDatabase path database => t.setDatabase path database
  | .clearDatabase path => t.clearDatabase path

/-- Whether an operation edits the source of an anchor: a touch of the anchor, or a touch, a
database set or a database cleared for the file it lives in. -/
def touches (t : SourceTracker) : TrackerOp → Nat → Bool
  | .touch a, b => b == a
  | .touchFile path, b | .setDatabase path _, b => t.fileOf b == some path
  | .clearDatabase path, b => t.fileOf b == some path && (t.databases.lookup path).isSome
  | .discard _, _ | .assignFile _ _, _ => false

/-- Whether an operation discards an anchor. -/
def forgets : TrackerOp → Nat → Bool
  | .discard a, b => b == a
  | _, _ => false

variable {t : SourceTracker}

/-- What one operation does to the generation of an anchor. -/
theorem generation_apply (op : TrackerOp) (h : t.Coherent) (b : Nat) :
    (op.apply t).generation b =
      if op.touches t b then t.clock + 1 else if op.forgets b then 0 else t.generation b := by
  cases op with
  | touch a => simp [apply, touches, forgets, SourceTracker.generation_touch_eq_ite]
  | touchFile path =>
    simp [apply, touches, forgets, SourceTracker.generation_touchFile_eq_ite h.files_nodup]
  | discard a =>
    simp only [apply, touches, forgets, SourceTracker.generation_discard_eq_ite]
    simp
  | assignFile a path =>
    simp [apply, touches, forgets, SourceTracker.assignFile, SourceTracker.generation]
  | setDatabase path database =>
    rw [apply, SourceTracker.generation_setDatabase_eq_ite h.files_nodup]
    rfl
  | clearDatabase path =>
    rw [apply, SourceTracker.generation_clearDatabase_eq_ite h.files_nodup]
    rfl

/-- An operation never turns the clock back, and an edit ticks it. -/
theorem clock_apply (op : TrackerOp) (b : Nat) :
    t.clock ≤ (op.apply t).clock ∧ (op.touches t b → t.clock + 1 ≤ (op.apply t).clock) := by
  cases op with
  | touch a => simp [apply, SourceTracker.touch]
  | touchFile path => simp [apply, SourceTracker.touchFile]
  | discard a => simp [apply, touches, SourceTracker.discard]
  | assignFile a path => simp [apply, touches, SourceTracker.assignFile]
  | setDatabase path database => simp [apply, SourceTracker.setDatabase, SourceTracker.touchFile]
  | clearDatabase path =>
    cases hd : t.databases.lookup path with
    | none => simp [apply, touches, SourceTracker.clearDatabase, hd]
    | some db => simp [apply, SourceTracker.clearDatabase, hd, SourceTracker.touchFile]

theorem files_nodup_apply (op : TrackerOp) (h : (t.files.map (·.1)).Nodup) :
    ((op.apply t).files.map (·.1)).Nodup := by
  cases op with
  | touch a => exact h
  | touchFile path => exact h
  | discard a => exact Keyed.nodup_keys_erase a h
  | assignFile a path => exact Keyed.nodup_keys_set a path h
  | setDatabase path database => exact h
  | clearDatabase path =>
    cases hd : t.databases.lookup path with
    | none => simpa [apply, SourceTracker.clearDatabase, hd] using h
    | some db => simpa [apply, SourceTracker.clearDatabase, hd, SourceTracker.touchFile] using h

/-- Every operation keeps a tracker coherent. -/
theorem coherent_apply (op : TrackerOp) (h : t.Coherent) : (op.apply t).Coherent where
  files_nodup := files_nodup_apply op h.files_nodup
  generation_le b := by
    obtain ⟨hle, htick⟩ := clock_apply op (t := t) b
    rw [generation_apply op h b]
    split
    · next ht => exact htick ht
    · split
      · exact Nat.zero_le _
      · exact Nat.le_trans (h.generation_le b) hle

end TrackerOp

/-- An operation on a query cache or on its tracker. -/
inductive CacheOp where
  /-- Look the query at an anchor up, parsing with `parse` on a miss. -/
  | queryAt (anchor : Nat) (parse : Nat → Option Node)
  | invalidate (anchor : Nat)
  /-- Forget an anchor its host discarded, in the tracker, the memo and the index. -/
  | discard (anchor : Nat)
  | tracker (op : TrackerOp)

namespace CacheOp

/-- The cache after an operation. -/
def apply (c : QueryCache) : CacheOp → QueryCache
  | .queryAt a parse => (c.queryAt a parse).2
  | .invalidate a => c.invalidate a
  | .discard a => c.discard a
  | .tracker op => { c with tracker := op.apply c.tracker }

/-- The cache after a run of operations. -/
def run (c : QueryCache) (ops : List CacheOp) : QueryCache := ops.foldl apply c

/-- Whether an operation edits an anchor: its invalidation or discard, or an edit or discard
of it in the tracker. -/
def edits (c : QueryCache) : CacheOp → Nat → Bool
  | .queryAt _ _, _ => false
  | .invalidate a, b | .discard a, b => b == a
  | .tracker op, b => op.touches c.tracker b || op.forgets b

/-- Whether an operation discards an anchor in the tracker alone, leaving the cache's memo
and index as they are. -/
def discardsInTracker : CacheOp → Bool
  | .tracker (.discard _) => true
  | _ => false

/-- What is remembered for each anchor after an operation, from what was remembered before:
a look-up remembers its answer, an edit forgets the anchor, and the rest is kept. -/
def remember (c : QueryCache) (m : Nat → Option (Option CachedQuery)) :
    CacheOp → Nat → Option (Option CachedQuery)
  | .queryAt a parse, b => if b = a then some (c.queryAt a parse).1 else m b
  | op, b => if op.edits c b then none else m b

end CacheOp

namespace QueryCache

/-! ### Parsing -/

section Parsing

variable (c : QueryCache) (a g : Nat) (parse : Nat → Option Node)

@[simp] theorem parseAt_fst : (c.parseAt a g parse).1 = (parse a).map fun n => ⟨c.parses, n⟩ := by
  cases hp : parse a with
  | none => simp [parseAt, hp]
  | some n => cases hn : n.namespace? <;> simp [parseAt, hp, hn]

@[simp] theorem parseAt_tracker : (c.parseAt a g parse).2.tracker = c.tracker := by
  cases hp : parse a with
  | none => simp [parseAt, hp]
  | some n => cases hn : n.namespace? <;> simp [parseAt, hp, hn, sweep]

@[simp] theorem parseAt_memo :
    (c.parseAt a g parse).2.memo = Keyed.set a ⟨g, (parse a).map fun n => ⟨c.parses, n⟩⟩ c.memo := by
  cases hp : parse a with
  | none => simp [parseAt, hp]
  | some n => cases hn : n.namespace? <;> simp [parseAt, hp, hn, sweep]

@[simp] theorem parseAt_parses :
    (c.parseAt a g parse).2.parses = if (parse a).isSome then c.parses + 1 else c.parses := by
  cases hp : parse a with
  | none => simp [parseAt, hp]
  | some n => cases hn : n.namespace? <;> simp [parseAt, hp, hn, sweep]

/-- A parse indexes its query when the query targets a known namespace, after sweeping the
anchor's entries and those out of date. -/
theorem parseAt_index : (c.parseAt a g parse).2.index =
    match parse a with
    | some n =>
      match n.namespace? with
      | some ns =>
        (c.index.filter fun e => some e.anchor != some a && c.current e) ++ [⟨ns, a, g, ⟨c.parses, n⟩⟩]
      | none => c.index
    | none => c.index := by
  cases hp : parse a with
  | none => simp [parseAt, hp]
  | some n => cases hn : n.namespace? <;> simp [parseAt, hp, hn, sweep, current]

/-- A parse at the anchor's current generation is what is remembered for the anchor. -/
theorem memoized_parseAt (b : Nat) :
    (c.parseAt a (c.tracker.generation a) parse).2.memoized b =
      if b = a then some ((parse a).map fun n => ⟨c.parses, n⟩) else c.memoized b := by
  by_cases hb : b = a
  · subst hb
    simp [memoized, Keyed.lookup_set]
  · simp [memoized, Keyed.lookup_set_of_ne _ _ hb, hb]

end Parsing

/-! ### Remembered results -/

variable {c : QueryCache}

theorem queryAt_of_memoized {a : Nat} {q : Option CachedQuery} (h : c.memoized a = some q)
    (parse : Nat → Option Node) : c.queryAt a parse = (q, c) := by
  simp [queryAt, h]

theorem queryAt_of_not_memoized {a : Nat} (h : c.memoized a = none) (parse : Nat → Option Node) :
    c.queryAt a parse = c.parseAt a (c.tracker.generation a) parse := by
  simp [queryAt, h]

/-- After a look-up, the anchor's answer is remembered at its current generation. -/
theorem memoized_queryAt_self (a : Nat) (parse : Nat → Option Node) :
    (c.queryAt a parse).2.memoized a = some (c.queryAt a parse).1 := by
  cases hm : c.memoized a with
  | some q => simp [queryAt_of_memoized hm, hm]
  | none => simp [queryAt_of_not_memoized hm, memoized, Keyed.lookup_set]

/-- A look-up leaves what is remembered for other anchors. -/
theorem memoized_queryAt_of_ne {a b : Nat} (parse : Nat → Option Node) (h : b ≠ a) :
    (c.queryAt a parse).2.memoized b = c.memoized b := by
  cases hm : c.memoized a with
  | some q => simp [queryAt_of_memoized hm]
  | none => simp [queryAt_of_not_memoized hm, memoized, Keyed.lookup_set_of_ne _ _ h]

theorem memoized_invalidate (a b : Nat) :
    (c.invalidate a).memoized b = if b == a then none else c.memoized b := by
  by_cases h : b = a
  · subst h
    simp [invalidate, memoized, Keyed.lookup_erase]
  · simp [invalidate, memoized, Keyed.lookup_erase_of_ne _ h,
      SourceTracker.generation_touch_eq_ite, h]

theorem memoized_discard (a b : Nat) :
    (c.discard a).memoized b = if b == a then none else c.memoized b := by
  by_cases h : b = a
  · subst h
    simp [discard, sweep, memoized, Keyed.lookup_erase]
  · simp [discard, sweep, memoized, Keyed.lookup_erase_of_ne _ h,
      SourceTracker.generation_discard_eq_ite, h]

/-- What every run keeps: a coherent tracker, unique anchors in the memo, no remembered or
indexed generation past the clock, and index entries stamped below the parse count. -/
structure Coherent (c : QueryCache) : Prop where
  tracker : c.tracker.Coherent
  memo_nodup : (c.memo.map (·.1)).Nodup
  memo_le : ∀ a e, c.memo.lookup a = some e → e.generation ≤ c.tracker.clock
  index_le : ∀ e ∈ c.index, e.generation ≤ c.tracker.clock
  index_stamp : ∀ e ∈ c.index, e.query.stamp < c.parses

theorem coherent_empty : ({} : QueryCache).Coherent where
  tracker := SourceTracker.coherent_empty
  memo_nodup := List.nodup_nil
  memo_le a e h := by simp at h
  index_le e h := by simp at h
  index_stamp e h := by simp at h

/-- A tracker operation edits what is remembered for an anchor it touches, and keeps what is
remembered for one it neither touches nor discards. -/
theorem memoized_tracker (h : c.Coherent) (op : TrackerOp) {b : Nat} (hf : op.forgets b = false) :
    ({ c with tracker := op.apply c.tracker } : QueryCache).memoized b =
      if op.touches c.tracker b then none else c.memoized b := by
  have hg := op.generation_apply h.tracker b
  simp only [hf, Bool.false_eq_true, ↓reduceIte] at hg
  by_cases ht : op.touches c.tracker b
  · -- the anchor moved past the clock, beyond every remembered generation
    simp only [ht, ↓reduceIte] at hg ⊢
    cases he : c.memo.lookup b with
    | none => simp [memoized, he]
    | some e =>
      have hle := h.memo_le b e he
      simp only [memoized, he, hg]
      split
      · next heq => simp at heq; omega
      · rfl
  · simp only [ht, Bool.false_eq_true, ↓reduceIte] at hg ⊢
    simp only [memoized, hg]

/-- The parse count never goes back, nor does the clock. -/
theorem parses_le_queryAt (a : Nat) (parse : Nat → Option Node) :
    c.parses ≤ (c.queryAt a parse).2.parses := by
  cases hm : c.memoized a with
  | some q => simp [queryAt_of_memoized hm]
  | none =>
    rw [queryAt_of_not_memoized hm, parseAt_parses]
    split <;> omega

/-- A look-up answers either what was remembered or a query stamped with the parse count. -/
theorem queryAt_fst_eq_some {a : Nat} {parse : Nat → Option Node} {q : CachedQuery}
    (hq : (c.queryAt a parse).1 = some q) : c.memoized a = some (some q) ∨ q.stamp = c.parses := by
  cases hm : c.memoized a with
  | some r =>
    rw [queryAt_of_memoized hm] at hq
    exact .inl (hq ▸ rfl)
  | none =>
    rw [queryAt_of_not_memoized hm, parseAt_fst] at hq
    obtain ⟨n, -, rfl⟩ := Option.map_eq_some_iff.1 hq
    exact .inr rfl

theorem coherent_queryAt (h : c.Coherent) (a : Nat) (parse : Nat → Option Node) :
    (c.queryAt a parse).2.Coherent := by
  cases hm : c.memoized a with
  | some q => simpa [queryAt_of_memoized hm] using h
  | none =>
    rw [queryAt_of_not_memoized hm]
    have hstamp : c.parses ≤ (c.parseAt a (c.tracker.generation a) parse).2.parses := by
      rw [parseAt_parses]
      split <;> omega
    refine ⟨by simpa using h.tracker, by simpa using Keyed.nodup_keys_set a _ h.memo_nodup,
      ?_, ?_, ?_⟩
    · intro b e he
      rw [parseAt_memo, Keyed.lookup_set_eq_ite] at he
      rw [parseAt_tracker]
      split at he
      · cases he
        exact h.tracker.generation_le a
      · exact h.memo_le b e he
    · intro e he
      rw [parseAt_index] at he
      rw [parseAt_tracker]
      split at he
      · split at he
        · rcases List.mem_append.1 he with he | he
          · exact h.index_le e (List.mem_filter.1 he).1
          · simp only [List.mem_singleton] at he
            subst he
            exact h.tracker.generation_le a
        · exact h.index_le e he
      · exact h.index_le e he
    · intro e he
      rw [parseAt_index] at he
      split at he
      · next n hp =>
        split at he
        · rcases List.mem_append.1 he with he | he
          · exact Nat.lt_of_lt_of_le (h.index_stamp e (List.mem_filter.1 he).1) hstamp
          · simp only [List.mem_singleton] at he
            subst he
            simp [hp]
        · exact Nat.lt_of_lt_of_le (h.index_stamp e he) hstamp
      · exact Nat.lt_of_lt_of_le (h.index_stamp e he) hstamp

theorem coherent_tracker (h : c.Coherent) (op : TrackerOp) :
    ({ c with tracker := op.apply c.tracker } : QueryCache).Coherent := by
  have hle := (op.clock_apply (t := c.tracker) 0).1
  exact ⟨op.coherent_apply h.tracker, h.memo_nodup,
    fun a e he => Nat.le_trans (h.memo_le a e he) hle,
    fun e he => Nat.le_trans (h.index_le e he) hle, h.index_stamp⟩

theorem coherent_invalidate (h : c.Coherent) (a : Nat) : (c.invalidate a).Coherent := by
  have ht := coherent_tracker h (.touch a)
  refine ⟨ht.tracker, Keyed.nodup_keys_erase a h.memo_nodup, ?_, ht.index_le, h.index_stamp⟩
  intro b e he
  simp only [invalidate, Keyed.lookup_erase_eq_ite] at he
  split at he
  · cases he
  · exact ht.memo_le b e he

theorem coherent_discard (h : c.Coherent) (a : Nat) : (c.discard a).Coherent := by
  have ht := coherent_tracker h (.discard a)
  refine ⟨ht.tracker, Keyed.nodup_keys_erase a h.memo_nodup, ?_, ?_, ?_⟩
  · intro b e he
    simp only [discard, sweep, Keyed.lookup_erase_eq_ite] at he
    split at he
    · cases he
    · exact ht.memo_le b e he
  · intro e he
    exact ht.index_le e (List.mem_filter.1 he).1
  · intro e he
    exact h.index_stamp e (List.mem_filter.1 he).1

end QueryCache

namespace CacheOp

variable {c : QueryCache}

/-- Every operation keeps a cache coherent. -/
theorem coherent_apply (h : c.Coherent) : ∀ op : CacheOp, (op.apply c).Coherent
  | .queryAt a parse => QueryCache.coherent_queryAt h a parse
  | .invalidate a => QueryCache.coherent_invalidate h a
  | .discard a => QueryCache.coherent_discard h a
  | .tracker op => QueryCache.coherent_tracker h op

/-- Every run from a coherent cache ends in a coherent cache. -/
theorem coherent_run (h : c.Coherent) (ops : List CacheOp) : (run c ops).Coherent := by
  induction ops generalizing c with
  | nil => exact h
  | cons op rest ih => exact ih (coherent_apply h op)

theorem forgets_eq_false {op : TrackerOp} (h : (CacheOp.tracker op).discardsInTracker = false)
    (b : Nat) : op.forgets b = false := by
  cases op <;> simp_all [discardsInTracker, TrackerOp.forgets]

/-- What an operation does to the results remembered at current generations, unless it
discards an anchor in the tracker alone. -/
theorem memoized_apply (h : c.Coherent) {op : CacheOp} (hd : op.discardsInTracker = false)
    (b : Nat) : (op.apply c).memoized b = op.remember c c.memoized b := by
  cases op with
  | queryAt a parse =>
    by_cases hb : b = a
    · subst hb
      simp [apply, remember, QueryCache.memoized_queryAt_self]
    · simp [apply, remember, hb, QueryCache.memoized_queryAt_of_ne parse hb]
  | invalidate a => simp [apply, remember, edits, QueryCache.memoized_invalidate]
  | discard a => simp [apply, remember, edits, QueryCache.memoized_discard]
  | tracker op =>
    have hf := forgets_eq_false hd b
    simp [apply, remember, edits, QueryCache.memoized_tracker h op hf, hf]

/-- No operation lowers the parse count. -/
theorem parses_apply (op : CacheOp) : c.parses ≤ (op.apply c).parses := by
  cases op with
  | queryAt a parse => exact QueryCache.parses_le_queryAt a parse
  | invalidate _ | discard _ | tracker _ => exact Nat.le_refl _

end CacheOp

end QueryScope
