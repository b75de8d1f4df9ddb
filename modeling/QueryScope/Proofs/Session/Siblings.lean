import QueryScope.Proofs.Session.Operations
/-!
# The namespace index and the siblings of a query

The cache indexes every query it parses with a known namespace, and never removes an entry
when an edit makes it stale: entries are swept only when the index is written, by a parse of a
namespaced query or by a discard. The read path filters stale entries itself.

Along every run whose discards go through the cache, the index stays exact
(`QueryCache.Indexed`): an up-to-date entry is what the cache remembers for its anchor, every
remembered namespaced query has its entry, and no anchor and no parse is indexed twice. So the
siblings of a query are exactly the remembered queries of other anchors in its namespace, each
once (`siblings_run_exact`), and right after a write the index holds nothing else, one entry per
anchor. A discard in the tracker alone breaks this, by making a stale entry current again
(`siblings_after_trackerDiscard`).
-/

namespace QueryScope

namespace CacheOp

/-- Whether an operation writes the namespace index of a cache: a look-up that parses a query
with a known namespace, or a discard. -/
def writesIndex (c : QueryCache) : CacheOp → Bool
  | .queryAt a parse => (c.memoized a).isNone && ((parse a).bind (·.namespace?)).isSome
  | .discard _ => true
  | _ => false

end CacheOp

namespace QueryCache

/-- Whether the cache remembers, at the anchor's current generation, a query with a known
namespace. -/
def namespacedAt (c : QueryCache) (b : Nat) : Bool :=
  match c.memoized b with
  | some (some p) => p.node.namespace?.isSome
  | _ => false

/-- The number of anchors with a remembered query of a known namespace. -/
def namespacedCount (c : QueryCache) : Nat := (c.memo.filter fun x => c.namespacedAt x.1).length

/-- The index is exact: entries carry their query's namespace, an up-to-date entry is what is
remembered for its anchor, every remembered namespaced query is indexed at the anchor's
generation, and no anchor or parse has two entries. -/
structure Indexed (c : QueryCache) : Prop where
  namespace_eq : ∀ e ∈ c.index, e.query.node.namespace? = some e.ns
  memoized_of_current : ∀ e ∈ c.index, c.current e = true → c.memoized e.anchor = some (some e.query)
  mem_of_memoized : ∀ b p ns, c.memoized b = some (some p) → p.node.namespace? = some ns →
    ⟨ns, b, c.tracker.generation b, p⟩ ∈ c.index
  anchors_nodup : (c.index.map (·.anchor)).Nodup
  stamps_nodup : (c.index.map (·.query.stamp)).Nodup

theorem indexed_empty : ({} : QueryCache).Indexed where
  namespace_eq e he := by simp at he
  memoized_of_current e he := by simp at he
  mem_of_memoized b p ns hm := by simp [memoized] at hm
  anchors_nodup := List.nodup_nil
  stamps_nodup := List.nodup_nil

variable {c : QueryCache}

/-- An index entry made stale by an edit stays stale: a generation past the clock is new. -/
theorem not_current_of_clock_lt (hc : c.Coherent) {e : IndexEntry} (he : e ∈ c.index)
    {g : Nat} (hg : c.tracker.clock < g) : (e.generation == g) = false := by
  have := hc.index_le e he
  simp only [beq_eq_false_iff_ne]
  omega

/-- A part of an exact index indexes no anchor and no parse twice. -/
theorem Indexed.nodup_of_sublist (h : c.Indexed) {l : List IndexEntry} (hl : l.Sublist c.index) :
    (l.map (·.anchor)).Nodup ∧ (l.map (·.query.stamp)).Nodup :=
  ⟨h.anchors_nodup.sublist (hl.map _), h.stamps_nodup.sublist (hl.map _)⟩

theorem indexed_tracker (hc : c.Coherent) (h : c.Indexed) (op : TrackerOp)
    (hf : ∀ b, op.forgets b = false) : ({ c with tracker := op.apply c.tracker } : QueryCache).Indexed := by
  refine ⟨h.namespace_eq, ?_, ?_, h.anchors_nodup, h.stamps_nodup⟩
  · intro e he hcur
    have hg := op.generation_apply hc.tracker e.anchor
    simp only [hf, Bool.false_eq_true, ↓reduceIte] at hg
    rw [memoized_tracker hc op (hf _)]
    by_cases ht : op.touches c.tracker e.anchor
    · -- the anchor was edited after the entry, which cannot be current
      simp only [current, hg, ht, ↓reduceIte] at hcur
      rw [not_current_of_clock_lt hc he (Nat.lt_succ_self _)] at hcur
      cases hcur
    · simp only [current, hg, ht, Bool.false_eq_true, ↓reduceIte] at hcur ⊢
      exact h.memoized_of_current e he hcur
  · intro b p ns hm hns
    have hg := op.generation_apply hc.tracker b
    rw [memoized_tracker hc op (hf b)] at hm
    split at hm
    · cases hm
    · next ht =>
      simp only [hf, ht, Bool.false_eq_true, ↓reduceIte] at hg
      show ⟨ns, b, (op.apply c.tracker).generation b, p⟩ ∈ c.index
      rw [hg]
      exact h.mem_of_memoized b p ns hm hns

theorem indexed_invalidate (hc : c.Coherent) (h : c.Indexed) (a : Nat) : (c.invalidate a).Indexed := by
  refine ⟨h.namespace_eq, ?_, ?_, h.anchors_nodup, h.stamps_nodup⟩
  · intro e he hcur
    rw [memoized_invalidate]
    by_cases hb : e.anchor = a
    · -- the invalidated anchor was touched after the entry
      simp only [invalidate, current, SourceTracker.generation_touch_eq_ite, hb, BEq.rfl,
        ↓reduceIte] at hcur
      rw [not_current_of_clock_lt hc he (Nat.lt_succ_self _)] at hcur
      cases hcur
    · simp only [invalidate, current, SourceTracker.generation_touch_eq_ite, beq_false_of_ne hb,
        Bool.false_eq_true, ↓reduceIte] at hcur ⊢
      exact h.memoized_of_current e he hcur
  · intro b p ns hm hns
    rw [memoized_invalidate] at hm
    split at hm
    · cases hm
    · next hb =>
      simp only [invalidate, SourceTracker.generation_touch_eq_ite, hb, Bool.false_eq_true,
        ↓reduceIte]
      exact h.mem_of_memoized b p ns hm hns

theorem indexed_discard (h : c.Indexed) (a : Nat) : (c.discard a).Indexed := by
  have hidx : (c.discard a).index = c.index.filter fun e =>
      some e.anchor != some a && e.generation == (c.tracker.discard a).generation e.anchor := rfl
  have hsub : (c.discard a).index.Sublist c.index := hidx ▸ List.filter_sublist
  refine ⟨fun e he => h.namespace_eq e (hsub.subset he), ?_, ?_, (h.nodup_of_sublist hsub).1,
    (h.nodup_of_sublist hsub).2⟩
  · intro e he hcur
    rw [hidx, List.mem_filter] at he
    obtain ⟨he, hkeep⟩ := he
    have hb : e.anchor ≠ a := by
      simp only [Bool.and_eq_true] at hkeep
      simpa using hkeep.1
    simp only [discard, sweep, current, SourceTracker.generation_discard_eq_ite,
      beq_false_of_ne hb, Bool.false_eq_true, ↓reduceIte] at hcur
    rw [memoized_discard, beq_false_of_ne hb]
    exact h.memoized_of_current e he hcur
  · intro b p ns hm hns
    rw [memoized_discard] at hm
    split at hm
    · cases hm
    · next hb =>
      have hb : b ≠ a := by simpa using hb
      have hg : (c.discard a).tracker.generation b = c.tracker.generation b := by
        simp [discard, sweep, SourceTracker.generation_discard_eq_ite, hb]
      rw [hg, hidx, List.mem_filter]
      refine ⟨h.mem_of_memoized b p ns hm hns, ?_⟩
      simp [SourceTracker.generation_discard_eq_ite, hb]

/-- A cache that remembers, at an anchor without up-to-date entries, a result that is no
namespaced query, and changes nothing else of the index, stays exact. -/
theorem indexed_of_remember_unindexed {c' : QueryCache} (h : c.Indexed) {a : Nat}
    {r : Option CachedQuery} (hidx : c'.index = c.index) (htr : c'.tracker = c.tracker)
    (hstale : ∀ e ∈ c.index, e.anchor = a → c.current e = false)
    (hmem : ∀ b, c'.memoized b = if b = a then some r else c.memoized b)
    (hr : ∀ p ∈ r, p.node.namespace? = none) : c'.Indexed := by
  have hcur : ∀ e, c'.current e = c.current e := by
    intro e
    simp [current, htr]
  refine ⟨by rw [hidx]; exact h.namespace_eq, ?_, ?_, by rw [hidx]; exact h.anchors_nodup,
    by rw [hidx]; exact h.stamps_nodup⟩
  · intro e he hc'
    rw [hidx] at he
    rw [hcur] at hc'
    have hb : e.anchor ≠ a := by
      intro hea
      rw [hstale e he hea] at hc'
      cases hc'
    rw [hmem, if_neg hb]
    exact h.memoized_of_current e he hc'
  · intro b p ns hm hns
    rw [hmem] at hm
    split at hm
    · -- what the anchor remembers now has no namespace
      cases hm
      rw [hr p rfl] at hns
      cases hns
    · rw [hidx, htr]
      exact h.mem_of_memoized b p ns hm hns

/-- A parse of a namespaced query sweeps the anchor's entries and those out of date, then
indexes the query. -/
theorem index_parseAt_namespaced {a g : Nat} {parse : Nat → Option Node} {n : Node}
    {ns : Namespace} (hp : parse a = some n) (hn : n.namespace? = some ns) :
    (c.parseAt a g parse).2.index =
      c.index.filter (fun e => some e.anchor != some a && c.current e) ++ [⟨ns, a, g, ⟨c.parses, n⟩⟩] := by
  rw [parseAt_index]
  simp only [hp, hn]

/-- A parse at an anchor without up-to-date entries that yields a namespaced query keeps the
index exact: the sweep drops the anchor's stale entries, and the new entry has a fresh stamp. -/
theorem indexed_parseAt_namespaced (hc : c.Coherent) (h : c.Indexed) {a : Nat}
    {parse : Nat → Option Node} {n : Node} {ns : Namespace} (hp : parse a = some n)
    (hn : n.namespace? = some ns) : (c.parseAt a (c.tracker.generation a) parse).2.Indexed := by
  let kept := c.index.filter fun e => some e.anchor != some a && c.current e
  let new : IndexEntry := ⟨ns, a, c.tracker.generation a, ⟨c.parses, n⟩⟩
  have hidx : (c.parseAt a (c.tracker.generation a) parse).2.index = kept ++ [new] :=
    index_parseAt_namespaced hp hn
  have hmem : ∀ b, (c.parseAt a (c.tracker.generation a) parse).2.memoized b =
      if b = a then some (some ⟨c.parses, n⟩) else c.memoized b := by
    intro b
    rw [memoized_parseAt, hp, Option.map_some]
  have hkept : ∀ e ∈ kept, e ∈ c.index ∧ e.anchor ≠ a ∧ c.current e = true := by
    intro e he
    simp only [kept, List.mem_filter, Bool.and_eq_true, bne_iff_ne, ne_eq, Option.some.injEq] at he
    exact ⟨he.1, he.2.1, he.2.2⟩
  have hsub : kept.Sublist c.index := List.filter_sublist
  refine ⟨?_, ?_, ?_, ?_, ?_⟩
  · intro e he
    rw [hidx, List.mem_append, List.mem_singleton] at he
    rcases he with he | rfl
    · exact h.namespace_eq e (hkept e he).1
    · exact hn
  · intro e he hcur
    rw [hidx, List.mem_append, List.mem_singleton] at he
    rcases he with he | rfl
    · obtain ⟨he, hb, hcur⟩ := hkept e he
      rw [hmem, if_neg hb]
      exact h.memoized_of_current e he hcur
    · rw [hmem, if_pos rfl]
  · intro b p ns' hm hns
    rw [hmem] at hm
    rw [hidx, parseAt_tracker, List.mem_append, List.mem_singleton]
    split at hm
    · -- the anchor parsed now is indexed by the new entry
      next hb =>
      subst hb
      cases hm
      rw [hn] at hns
      cases hns
      exact .inr rfl
    · next hb =>
      refine .inl (List.mem_filter.2 ⟨h.mem_of_memoized b p ns' hm hns, ?_⟩)
      simp [hb, current]
  · have hfresh : ∀ e ∈ kept, e.anchor ≠ a := fun e he => (hkept e he).2.1
    rw [hidx, List.map_append, List.nodup_append]
    refine ⟨(h.nodup_of_sublist hsub).1, by simp, ?_⟩
    simpa using hfresh
  · -- every stamp indexed so far is below the parse count, the new entry's stamp
    have hfresh : ∀ e ∈ kept, e.query.stamp ≠ c.parses :=
      fun e he => Nat.ne_of_lt (hc.index_stamp e (hkept e he).1)
    rw [hidx, List.map_append, List.nodup_append]
    refine ⟨(h.nodup_of_sublist hsub).2, by simp, ?_⟩
    simpa using hfresh

theorem indexed_queryAt (hc : c.Coherent) (h : c.Indexed) (a : Nat) (parse : Nat → Option Node) :
    (c.queryAt a parse).2.Indexed := by
  cases hm : c.memoized a with
  | some r =>
    rw [queryAt_of_memoized hm]
    exact h
  | none =>
    rw [queryAt_of_not_memoized hm]
    -- an up-to-date entry of the anchor would be remembered, and nothing is
    have hstale : ∀ e ∈ c.index, e.anchor = a → c.current e = false := by
      intro e he hea
      cases hcur : c.current e
      · rfl
      · have := h.memoized_of_current e he hcur
        rw [hea, hm] at this
        cases this
    have hmem := memoized_parseAt c a parse
    have htr := parseAt_tracker c a (c.tracker.generation a) parse
    cases hp : parse a with
    | none =>
      refine indexed_of_remember_unindexed h ?_ htr hstale (r := none) ?_ (by simp)
      · rw [parseAt_index, hp]
      · simpa [hp] using hmem
    | some n =>
      cases hn : n.namespace? with
      | none =>
        refine indexed_of_remember_unindexed h ?_ htr hstale (r := some ⟨c.parses, n⟩) ?_
          (by simpa using hn)
        · rw [parseAt_index]
          simp only [hp, hn]
        · simpa [hp] using hmem
      | some ns => exact indexed_parseAt_namespaced hc h hp hn

/-! ### Reading the index -/

/-- With an exact index, the siblings of a namespaced query are the queries remembered for
other anchors in its namespace, other than the query itself. -/
theorem mem_siblings_iff (h : c.Indexed) {q : CachedQuery} {ns : Namespace}
    (hq : q.node.namespace? = some ns) (p : CachedQuery) :
    p ∈ c.siblings q ↔ ∃ b, Origin.expr b ≠ q.node.source ∧ c.memoized b = some (some p) ∧
      p.node.namespace? = some ns ∧ p.stamp ≠ q.stamp := by
  simp only [siblings, hq, List.mem_map, List.mem_filter, Bool.and_eq_true, beq_iff_eq,
    bne_iff_ne, ne_eq]
  constructor
  · rintro ⟨e, ⟨he, ⟨⟨rfl, hsrc⟩, hcur⟩, hstamp⟩, rfl⟩
    exact ⟨e.anchor, hsrc, h.memoized_of_current e he hcur, h.namespace_eq e he, hstamp⟩
  · rintro ⟨b, hsrc, hm, hns, hstamp⟩
    refine ⟨⟨ns, b, c.tracker.generation b, p⟩, ⟨h.mem_of_memoized b p ns hm hns, ?_, hstamp⟩, rfl⟩
    exact ⟨⟨rfl, hsrc⟩, by simp [current]⟩

/-- With an exact index, no query is anyone's sibling twice. -/
theorem nodup_siblings (h : c.Indexed) (q : CachedQuery) : (c.siblings q).Nodup := by
  unfold siblings
  split
  · exact List.nodup_nil
  · -- the entries read are distinct parses, so their queries are distinct
    next ns _ =>
    have hstamps := (h.nodup_of_sublist (List.filter_sublist (p := fun e =>
      e.ns == ns && Origin.expr e.anchor != q.node.source && c.current e &&
        e.query.stamp != q.stamp))).2
    refine List.Pairwise.of_map (S := (· ≠ ·)) CachedQuery.stamp
      (fun _ _ hne heq => hne (congrArg _ heq)) ?_
    rw [List.map_map]
    exact hstamps

theorem mem_memo_of_memoized (hc : c.Coherent) {b : Nat} {r : Option CachedQuery}
    (hm : c.memoized b = some r) : ∃ m, (b, m) ∈ c.memo := by
  unfold memoized at hm
  split at hm
  · next m hl => exact ⟨m, (Keyed.lookup_eq_some_iff_mem hc.memo_nodup).1 hl⟩
  · cases hm

/-- When every entry of an exact index is up to date, the index has one entry per anchor with
a remembered namespaced query, and no other. -/
theorem indexed_eq_namespacedCount (hc : c.Coherent) (h : c.Indexed)
    (hall : ∀ e ∈ c.index, c.current e = true) : c.indexed = c.namespacedCount := by
  have hkeys : ((c.memo.filter fun x => c.namespacedAt x.1).map (·.1)).Nodup :=
    hc.memo_nodup.sublist (List.filter_sublist.map _)
  have hperm : (c.index.map (·.anchor)).Perm ((c.memo.filter fun x => c.namespacedAt x.1).map (·.1)) := by
    apply (List.perm_ext_iff_of_nodup h.anchors_nodup hkeys).2
    intro b
    simp only [List.mem_map, List.mem_filter]
    constructor
    · rintro ⟨e, he, rfl⟩
      have hm := h.memoized_of_current e he (hall e he)
      obtain ⟨m, hmem⟩ := mem_memo_of_memoized hc hm
      refine ⟨(e.anchor, m), ⟨hmem, ?_⟩, rfl⟩
      simp [namespacedAt, hm, h.namespace_eq e he]
    · rintro ⟨⟨b, m⟩, ⟨-, hb⟩, rfl⟩
      simp only [namespacedAt] at hb
      split at hb
      · next p hm =>
        obtain ⟨ns, hns⟩ := Option.isSome_iff_exists.1 hb
        exact ⟨_, h.mem_of_memoized b p ns hm hns, rfl⟩
      · cases hb
  calc c.indexed = (c.index.map (·.anchor)).length := (List.length_map _).symm
    _ = ((c.memo.filter fun x => c.namespacedAt x.1).map (·.1)).length := hperm.length_eq
    _ = c.namespacedCount := List.length_map _

end QueryCache

namespace CacheOp

variable {c : QueryCache}

/-- Every operation but a discard in the tracker alone keeps the index exact. -/
theorem indexed_apply (hc : c.Coherent) (h : c.Indexed) {op : CacheOp}
    (hd : op.discardsInTracker = false) : (op.apply c).Indexed := by
  cases op with
  | queryAt a parse => exact QueryCache.indexed_queryAt hc h a parse
  | invalidate a => exact QueryCache.indexed_invalidate hc h a
  | discard a => exact QueryCache.indexed_discard h a
  | tracker op => exact QueryCache.indexed_tracker hc h op (forgets_eq_false hd)

/-- Every run whose discards go through the cache keeps the index exact. -/
theorem indexed_run (hc : c.Coherent) (h : c.Indexed) {ops : List CacheOp}
    (hops : ∀ op ∈ ops, op.discardsInTracker = false) : (run c ops).Indexed := by
  induction ops generalizing c with
  | nil => exact h
  | cons op rest ih =>
    exact ih (coherent_apply hc op) (indexed_apply hc h (hops op List.mem_cons_self))
      (fun op' hop' => hops op' (List.mem_cons_of_mem op hop'))

/-- A write of the index sweeps every entry out of date: right after it, all are current. -/
theorem current_of_writesIndex {op : CacheOp} (hw : op.writesIndex c = true) :
    ∀ e ∈ (op.apply c).index, (op.apply c).current e = true := by
  cases op with
  | queryAt a parse =>
    simp only [writesIndex, Bool.and_eq_true, Option.isNone_iff_eq_none, Option.isSome_iff_exists,
      Option.bind_eq_some_iff] at hw
    obtain ⟨hm, ns, n, hp, hn⟩ := hw
    intro e he
    simp only [apply, QueryCache.queryAt_of_not_memoized hm] at he ⊢
    rw [QueryCache.index_parseAt_namespaced hp hn, List.mem_append, List.mem_singleton] at he
    simp only [QueryCache.current, QueryCache.parseAt_tracker]
    rcases he with he | rfl
    · exact (Bool.and_eq_true _ _ ▸ (List.mem_filter.1 he).2).2
    · exact BEq.rfl
  | discard a =>
    intro e he
    exact (Bool.and_eq_true _ _ ▸ (List.mem_filter.1 he).2).2
  | invalidate a => cases hw
  | tracker op => cases hw

end CacheOp

/-! ### Along a run -/

/-- **Exact siblings.** After any run whose discards go through the cache, the siblings of a
query with a known namespace are, each once, the queries remembered at their anchors' current
generations for other anchors in that namespace, the query itself left out. Right after any
write of the index, every entry is up to date and is what its anchor remembers, no anchor has
two entries, and the index counts exactly the anchors with a remembered namespaced query. -/
theorem siblings_run_exact (ops : List CacheOp) (hops : ∀ op ∈ ops, op.discardsInTracker = false) :
    let c := CacheOp.run {} ops
    (∀ q ns, q.node.namespace? = some ns →
      (c.siblings q).Nodup ∧
      ∀ p, p ∈ c.siblings q ↔ ∃ b, Origin.expr b ≠ q.node.source ∧
        c.memoized b = some (some p) ∧ p.node.namespace? = some ns ∧ p.stamp ≠ q.stamp) ∧
    (∀ op : CacheOp, op.writesIndex c = true →
      let c' := op.apply c
      (∀ e ∈ c'.index, c'.current e = true ∧ c'.memoized e.anchor = some (some e.query)) ∧
      (c'.index.map (·.anchor)).Nodup ∧ c'.indexed = c'.namespacedCount) := by
  intro c
  have hc : c.Coherent := CacheOp.coherent_run QueryCache.coherent_empty ops
  have h : c.Indexed := CacheOp.indexed_run QueryCache.coherent_empty QueryCache.indexed_empty hops
  refine ⟨fun q ns hq => ⟨QueryCache.nodup_siblings h q, QueryCache.mem_siblings_iff h hq⟩, ?_⟩
  intro op hw
  -- a write is a look-up or a discard, never a discard in the tracker alone
  have hd : op.discardsInTracker = false := by
    cases op with
    | tracker op => cases hw
    | _ => rfl
  have hc' := CacheOp.coherent_apply hc op
  have h' := CacheOp.indexed_apply hc h hd
  have hall := CacheOp.current_of_writesIndex hw
  exact ⟨fun e he => ⟨hall e he, h'.memoized_of_current e he (hall e he)⟩, h'.anchors_nodup,
    QueryCache.indexed_eq_namespacedCount hc' h' hall⟩

/-- Two anchors whose queries read one collection are siblings. -/
theorem siblings_run_exact_users :
    let users : Nat → Option Node :=
      fun a => some ⟨.expr a, [.collection (.known none (.expr a) ⟨"shop", "users"⟩ none)]⟩
    let c := CacheOp.run {} [.queryAt 0 users, .queryAt 1 users]
    ⟨0, ⟨.expr 0, [.collection (.known none (.expr 0) ⟨"shop", "users"⟩ none)]⟩⟩ ∈
      c.siblings ⟨1, ⟨.expr 1, [.collection (.known none (.expr 1) ⟨"shop", "users"⟩ none)]⟩⟩ := by
  intro users c
  have hexact := siblings_run_exact [.queryAt 0 users, .queryAt 1 users] (by decide)
  exact ((hexact.1 _ ⟨"shop", "users"⟩ rfl).2 _).2 ⟨0, by decide, rfl, rfl, by decide⟩

/-- A discard in the tracker alone makes an entry current again whose query the cache no
longer remembers: it is read as a sibling, and counted by the next write of the index. The
query is then held only by whoever asked for it, so that an index holding its queries weakly
returns it while it is still held. -/
theorem siblings_after_trackerDiscard :
    let users : Nat → Option Node :=
      fun a => some ⟨.expr a, [.collection (.known none (.expr a) ⟨"shop", "users"⟩ none)]⟩
    let c := CacheOp.run {} [.queryAt 0 users, .invalidate 0, .tracker (.discard 0)]
    c.memoized 0 = none ∧
      c.siblings ⟨7, ⟨.expr 1, [.collection (.known none (.expr 1) ⟨"shop", "users"⟩ none)]⟩⟩ =
        [⟨0, ⟨.expr 0, [.collection (.known none (.expr 0) ⟨"shop", "users"⟩ none)]⟩⟩] ∧
      ((CacheOp.queryAt 1 users).apply c).indexed = 2 ∧
      ((CacheOp.queryAt 1 users).apply c).namespacedCount = 1 :=
  ⟨rfl, rfl, rfl, rfl⟩

end QueryScope
