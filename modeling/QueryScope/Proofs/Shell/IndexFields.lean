import QueryScope.Shell.Index
import QueryScope.Proofs.Bson.Canonical
/-!
# The fields of an index suggestion

An index suggestion lists the schema fields a query compares with a role that counts for an
index: equality (rank 0), sort (rank 1) or range (rank 2). Its candidates are met in the
order of the query's filters, those of its pipeline stages included, and then its sort keys
(`Node.indexCandidates`). Main statement (`Node.indexCommand_lists_fields`): the suggestion is
empty exactly when no field qualifies, and otherwise lists the qualifying fields, each once,
ordered by the best rank each has anywhere and, for equal best ranks, by where each is first
met (`IndexBefore`); its `createIndex` call has one key per listed field.

Two steps make the list. Adding the candidates one by one keeps one entry per field in the
order first met, with the best rank met so far (`Tally`, preserved by `tally_addIndexField`).
The stable sort by rank then keeps that order between fields of one rank
(`pairwise_mergeSort_of_pairwise`).
-/

namespace QueryScope

/-- The ranks of the roles that count for an index. -/
theorem Role.indexRank?_eq_some_iff {role : Role} {r : Nat} :
    role.indexRank? = some r ↔
      (role = .equality ∧ r = 0) ∨ (role = .sort ∧ r = 1) ∨ (role = .range ∧ r = 2) := by
  cases role <;> simp [Role.indexRank?, eq_comm]

theorem Role.indexRank?_isSome_iff {role : Role} :
    (role.indexRank?).isSome ↔ role ∈ [Role.equality, .sort, .range] := by
  cases role <;> simp [Role.indexRank?]

namespace Node

/-- The schema fields a query compares with a role that counts for an index, with the rank of
the role, in the order the query meets them. -/
def indexCandidates (q : Node) : List (String × Nat) :=
  (q.allFilters ++ q.children .sorts).filterMap indexCandidate?

/-- A node is a candidate when it names an operator whose role counts and a schema field. -/
theorem indexCandidate?_eq_some_iff {n : Node} {f : String} {r : Nat} :
    n.indexCandidate? = some (f, r) ↔
      ∃ o, n.operator? = some o ∧ o.role.indexRank? = some r ∧
        ∃ s d, n.fieldRef? = some (.named .fromSchema s f d) := by
  unfold indexCandidate?
  cases n.operator? with
  | none => simp
  | some o =>
    simp only [Option.bind_eq_bind, Option.bind_some, Option.some.injEq, exists_eq_left']
    split
    · next s p d hfield =>
      cases hr : o.role.indexRank? <;> simp [hfield, eq_comm, and_comm]
    · next hnot =>
      simp only [reduceCtorEq, false_iff, not_and, not_exists]
      intro _ s d hfield
      exact hnot s f d hfield

/-- The fields that qualify are those of some node met, with an operator whose role counts
and a schema field. -/
theorem mem_indexCandidates_iff {q : Node} {f : String} :
    (∃ r, (f, r) ∈ q.indexCandidates) ↔
      ∃ n ∈ q.allFilters ++ q.children .sorts, ∃ o, n.operator? = some o ∧
        o.role ∈ [Role.equality, .sort, .range] ∧ ∃ s d, n.fieldRef? = some (.named .fromSchema s f d) := by
  simp only [indexCandidates, List.mem_filterMap, indexCandidate?_eq_some_iff]
  constructor
  · rintro ⟨r, n, hn, o, ho, hr, hfield⟩
    exact ⟨n, hn, o, ho, Role.indexRank?_isSome_iff.1 (by simp [hr]), hfield⟩
  · rintro ⟨n, hn, o, ho, hrole, hfield⟩
    obtain ⟨r, hr⟩ := Option.isSome_iff_exists.1 (Role.indexRank?_isSome_iff.2 hrole)
    exact ⟨r, n, hn, o, ho, hr, hfield⟩

end Node

/-! ### The order of an index -/

section Order

variable (cs : List (String × Nat))

/-- The best rank of a field among candidates: one it has, and no better one. -/
def IsBestRank (f : String) (r : Nat) : Prop :=
  (f, r) ∈ cs ∧ ∀ r', (f, r') ∈ cs → r ≤ r'

/-- Where a field is first met among candidates. -/
def firstSeen (f : String) : Nat :=
  cs.findIdx (·.1 == f)

/-- `f` goes before `g` in an index: a better best rank, or the same one and met first. -/
def IndexBefore (f g : String) : Prop :=
  ∃ a b, IsBestRank cs f a ∧ IsBestRank cs g b ∧ (a < b ∨ (a = b ∧ firstSeen cs f < firstSeen cs g))

variable {cs}

theorem firstSeen_lt {f : String} (h : f ∈ cs.map (·.1)) : firstSeen cs f < cs.length := by
  obtain ⟨c, hc, rfl⟩ := List.mem_map.1 h
  exact List.findIdx_lt_length_of_exists ⟨c, hc, by simp⟩

theorem firstSeen_append_of_mem {f : String} (h : f ∈ cs.map (·.1)) (ys : List (String × Nat)) :
    firstSeen (cs ++ ys) f = firstSeen cs f := by
  have hlt : cs.findIdx (·.1 == f) < cs.length := firstSeen_lt h
  rw [firstSeen, List.findIdx_append, if_pos hlt]
  rfl

theorem firstSeen_append_of_not_mem {f : String} (h : f ∉ cs.map (·.1)) (r : Nat) :
    firstSeen (cs ++ [(f, r)]) f = cs.length := by
  have hnone : cs.findIdx (·.1 == f) = cs.length := by
    rw [List.findIdx_eq_length]
    intro c hc
    rw [beq_eq_false_iff_ne]
    rintro rfl
    exact h (List.mem_map_of_mem hc)
  rw [firstSeen, List.findIdx_append, hnone, if_neg (Nat.lt_irrefl _)]
  simp

end Order

/-! ### Adding candidates one by one -/

/-- What adding candidates one by one keeps: one entry per field met, in the order first met,
each with the best rank of the field. -/
structure Tally (cs fields : List (String × Nat)) : Prop where
  nodup : (fields.map (·.1)).Nodup
  mem : ∀ f, f ∈ fields.map (·.1) ↔ f ∈ cs.map (·.1)
  order : (fields.map (·.1)).Pairwise fun f g => firstSeen cs f < firstSeen cs g
  best : ∀ x ∈ fields, IsBestRank cs x.1 x.2

theorem tally_nil : Tally [] [] :=
  ⟨List.nodup_nil, by simp, List.Pairwise.nil, by simp⟩

section Step

variable {cs fields : List (String × Nat)}

/-- Raising a known field to a better rank keeps the fields and their order. -/
theorem keys_raise (fields : List (String × Nat)) (c : String × Nat) :
    (fields.map fun (f, r) => if f == c.1 then (f, min r c.2) else (f, r)).map (·.1) =
      fields.map (·.1) := by
  rw [List.map_map]
  apply List.map_congr_left
  rintro ⟨f, r⟩ _
  simp only [Function.comp_apply]
  split <;> rfl

/-- A field other than the new candidate's keeps its best rank. -/
theorem isBestRank_append_of_ne {f g : String} {r s : Nat} (h : IsBestRank cs f r) (hne : f ≠ g) :
    IsBestRank (cs ++ [(g, s)]) f r := by
  refine ⟨List.mem_append_left _ h.1, fun r' hr' => h.2 r' ?_⟩
  rcases List.mem_append.1 hr' with hr' | hr'
  · exact hr'
  · simp only [List.mem_singleton, Prod.mk.injEq] at hr'
    exact absurd hr'.1 hne

/-- A field met again takes the better of its two ranks. -/
theorem isBestRank_append_min {f : String} {r s : Nat} (h : IsBestRank cs f r) :
    IsBestRank (cs ++ [(f, s)]) f (min r s) := by
  refine ⟨?_, fun r' hr' => ?_⟩
  · by_cases hle : r ≤ s
    · rw [Nat.min_eq_left hle]
      exact List.mem_append_left _ h.1
    · rw [Nat.min_eq_right (by omega)]
      simp
  · rcases List.mem_append.1 hr' with hr' | hr'
    · exact Nat.le_trans (Nat.min_le_left _ _) (h.2 r' hr')
    · simp only [List.mem_singleton, Prod.mk.injEq] at hr'
      rw [hr'.2]
      exact Nat.min_le_right _ _

/-- A field met for the first time has the rank it is met with. -/
theorem isBestRank_append_new {f : String} {s : Nat} (h : f ∉ cs.map (·.1)) :
    IsBestRank (cs ++ [(f, s)]) f s := by
  refine ⟨by simp, fun r' hr' => ?_⟩
  rcases List.mem_append.1 hr' with hr' | hr'
  · exact absurd (List.mem_map_of_mem (f := (·.1)) hr') h
  · simp only [List.mem_singleton, Prod.mk.injEq] at hr'
    exact Nat.le_of_eq hr'.2.symm

/-- The order of fields met before a new candidate is kept. -/
theorem order_append (ht : Tally cs fields) (ys : List (String × Nat)) :
    (fields.map (·.1)).Pairwise fun f g => firstSeen (cs ++ ys) f < firstSeen (cs ++ ys) g := by
  refine ht.order.imp_of_mem fun hf hg hlt => ?_
  rw [firstSeen_append_of_mem ((ht.mem _).1 hf), firstSeen_append_of_mem ((ht.mem _).1 hg)]
  exact hlt

/-- A field met before takes the better of its two ranks, in place. -/
theorem tally_raise {g : String} {s : Nat} (ht : Tally cs fields) (hmem : g ∈ fields.map (·.1)) :
    Tally (cs ++ [(g, s)]) (addIndexField fields (g, s)) := by
  have hany : fields.any (·.1 == g) = true := by
    obtain ⟨x, hx, rfl⟩ := List.mem_map.1 hmem
    exact List.any_eq_true.2 ⟨x, hx, by simp⟩
  rw [addIndexField, if_pos hany]
  refine ⟨by rw [keys_raise]; exact ht.nodup, fun f => ?_,
    by rw [keys_raise]; exact order_append ht _, fun x hx => ?_⟩
  · -- the same fields, the new candidate's among them
    rw [keys_raise, ht.mem, List.map_append, List.mem_append]
    simp only [List.map_cons, List.map_nil, List.mem_singleton]
    constructor
    · exact .inl
    · rintro (h | rfl)
      · exact h
      · exact (ht.mem _).1 hmem
  · obtain ⟨⟨f, r⟩, hy, rfl⟩ := List.mem_map.1 hx
    by_cases hf : f = g
    · subst hf
      simpa using isBestRank_append_min (s := s) (ht.best _ hy)
    · simpa [hf] using isBestRank_append_of_ne (s := s) (ht.best _ hy) hf

/-- A field met for the first time goes at the end, with the rank it is met with. -/
theorem tally_append_new {g : String} {s : Nat} (ht : Tally cs fields)
    (hnotin : g ∉ fields.map (·.1)) :
    Tally (cs ++ [(g, s)]) (addIndexField fields (g, s)) := by
  have hany : ¬ fields.any (·.1 == g) = true := by
    intro hany
    obtain ⟨x, hx, hxg⟩ := List.any_eq_true.1 hany
    exact hnotin (List.mem_map.2 ⟨x, hx, by simpa using hxg⟩)
  rw [addIndexField, if_neg hany]
  have hnotcs : g ∉ cs.map (·.1) := fun h => hnotin ((ht.mem _).2 h)
  refine ⟨?_, fun f => ?_, ?_, fun x hx => ?_⟩
  · rw [List.map_append, List.nodup_append]
    refine ⟨ht.nodup, by simp, ?_⟩
    intro a ha b hb
    simp only [List.map_cons, List.map_nil, List.mem_singleton] at hb
    subst hb
    rintro rfl
    exact hnotin ha
  · simp [ht.mem]
  · -- the new field is first met after all the others
    rw [List.map_append, List.pairwise_append]
    refine ⟨order_append ht _, by simp, ?_⟩
    intro f hf h hh
    simp only [List.map_cons, List.map_nil, List.mem_singleton] at hh
    subst hh
    rw [firstSeen_append_of_mem ((ht.mem _).1 hf), firstSeen_append_of_not_mem hnotcs]
    exact firstSeen_lt ((ht.mem _).1 hf)
  · rcases List.mem_append.1 hx with hx | hx
    · refine isBestRank_append_of_ne (ht.best _ hx) fun hxg => hnotin ?_
      exact hxg ▸ List.mem_map_of_mem hx
    · simp only [List.mem_singleton] at hx
      subst hx
      exact isBestRank_append_new hnotcs

/-- Adding a candidate keeps the tally. -/
theorem tally_addIndexField {g : String} {s : Nat} (ht : Tally cs fields) :
    Tally (cs ++ [(g, s)]) (addIndexField fields (g, s)) := by
  by_cases hmem : g ∈ fields.map (·.1)
  · exact tally_raise ht hmem
  · exact tally_append_new ht hmem

end Step

/-- Adding every candidate gives the tally of all of them. -/
theorem tally_foldl (cs : List (String × Nat)) :
    ∀ {seen fields : List (String × Nat)}, Tally seen fields →
      Tally (seen ++ cs) (cs.foldl addIndexField fields) := by
  -- induction on the candidates left, each step by `tally_addIndexField`
  induction cs with
  | nil => intro seen fields ht; simpa using ht
  | cons c cs ih =>
    intro seen fields ht
    rw [List.foldl_cons, ← List.singleton_append, ← List.append_assoc]
    exact ih (tally_addIndexField ht)

/-! ### The list of fields -/

namespace Node

/-- The fields of a query's index, as the tally of its candidates sorted by rank. -/
theorem indexFields_eq (q : Node) :
    q.indexFields = (((q.indexCandidates.foldl addIndexField []).mergeSort
      fun a b => decide (a.2 ≤ b.2)).map (·.1)) := rfl

/-- The fields of a query's index: each qualifying field once, ordered by best rank and then
by where it is first met. -/
theorem indexFields_spec (q : Node) :
    q.indexFields.Nodup ∧ (∀ f, f ∈ q.indexFields ↔ ∃ r, (f, r) ∈ q.indexCandidates) ∧
      q.indexFields.Pairwise (IndexBefore q.indexCandidates) := by
  have ht : Tally q.indexCandidates (q.indexCandidates.foldl addIndexField []) := by
    simpa using tally_foldl q.indexCandidates tally_nil
  rw [indexFields_eq]
  generalize q.indexCandidates.foldl addIndexField [] = fields at ht ⊢
  have hperm := List.mergeSort_perm fields fun a b => decide (a.2 ≤ b.2)
  have hkeys := hperm.map (·.1)
  refine ⟨hkeys.nodup_iff.2 ht.nodup, fun f => ?_, ?_⟩
  · rw [hkeys.mem_iff, ht.mem]
    simp
  · -- sorted by rank, and by first sight within a rank since the sort is stable
    have htrans : ∀ a b c : String × Nat, decide (a.2 ≤ b.2) = true →
        decide (b.2 ≤ c.2) = true → decide (a.2 ≤ c.2) = true := by
      intro a b c hab hbc
      simp at *
      omega
    have htotal : ∀ a b : String × Nat, (decide (a.2 ≤ b.2) || decide (b.2 ≤ a.2)) = true := by
      intro a b
      simp
      omega
    have hsorted := List.pairwise_mergeSort htrans htotal fields
    have horder : fields.Pairwise fun a b =>
        a.2 = b.2 → firstSeen q.indexCandidates a.1 < firstSeen q.indexCandidates b.1 := by
      refine (List.pairwise_map.1 ht.order).imp ?_
      intro a b h _
      exact h
    have hstable := pairwise_mergeSort_of_pairwise htrans htotal
      (fun x y h hxy => by simp at h; omega) horder
    rw [List.pairwise_map]
    refine (hsorted.and hstable).imp_of_mem fun ha hb ⟨hle, hfirst⟩ => ?_
    refine ⟨_, _, ht.best _ (hperm.mem_iff.1 ha), ht.best _ (hperm.mem_iff.1 hb), ?_⟩
    simp only [decide_eq_true_eq] at hle
    rcases Nat.lt_or_eq_of_le hle with hlt | heq
    · exact .inl hlt
    · exact .inr ⟨heq, hfirst heq⟩

/-- The keys of a `createIndex` call for `n` fields, numbered from one. -/
def indexKeys (n : Nat) : List String :=
  (List.range n).map fun i => quote ("<your_field_" ++ toString (i + 1) ++ ">") ++ ": 1"

/-- The suggestion is empty exactly when no field qualifies. -/
theorem indexCommand_eq_empty_iff (q : Node) : q.indexCommand = "" ↔ q.indexFields = [] := by
  unfold indexCommand
  split
  · next h => simp [h]
  · next fields hne =>
    split
    next major minor _ =>
    split
    next db coll _ =>
    constructor
    · -- the text starts with its heading
      intro h
      have hstart : ("// Potential fields to consider indexing: ").toList ≠ [] := by decide
      exfalso
      apply hstart
      have := congrArg String.toList h
      simp only [String.toList_append, List.append_assoc, String.toList_empty,
        List.append_eq_nil_iff] at this
      exact this.1
    · intro h
      exact absurd h hne

/-- A suggestion starts with the fields it lists and ends with one key per field. -/
theorem indexCommand_fields_and_keys (q : Node) (h : q.indexFields ≠ []) :
    ("// Potential fields to consider indexing: " ++ ", ".intercalate q.indexFields).toList <+:
      q.indexCommand.toList ∧
    (", ".intercalate (indexKeys q.indexFields.length) ++ " \x7d)").toList <:+
      q.indexCommand.toList := by
  unfold indexCommand
  split
  · next hnil => exact absurd hnil h
  · next fields hfields =>
    split
    next major minor _ =>
    split
    next db coll _ =>
    simp only [String.toList_append]
    refine ⟨?_, ⟨_, (List.append_assoc _ _ _).symm⟩⟩
    simp only [List.append_assoc]
    exact List.prefix_append _ _

/-- The index suggestion of a query lists the fields its filters (those of its pipeline
stages included) and its sort keys compare as schema fields with an equality, sort or range
operator, each once, ordered by the best role each has and then by where each is first met;
it is empty exactly when there is none, and has one key per listed field. -/
theorem indexCommand_lists_fields (q : Node) :
    (q.indexCommand = "" ↔ q.indexFields = []) ∧
    (q.indexFields ≠ [] →
      ("// Potential fields to consider indexing: " ++ ", ".intercalate q.indexFields).toList <+:
        q.indexCommand.toList ∧
      (", ".intercalate (indexKeys q.indexFields.length) ++ " \x7d)").toList <:+
        q.indexCommand.toList) ∧
    q.indexFields.Nodup ∧
    (∀ f, f ∈ q.indexFields ↔ ∃ n ∈ q.allFilters ++ q.children .sorts, ∃ o, n.operator? = some o ∧
      o.role ∈ [Role.equality, .sort, .range] ∧ ∃ s d, n.fieldRef? = some (.named .fromSchema s f d)) ∧
    q.indexFields.Pairwise (IndexBefore q.indexCandidates) := by
  obtain ⟨hnodup, hmem, hpairwise⟩ := indexFields_spec q
  exact ⟨indexCommand_eq_empty_iff q, indexCommand_fields_and_keys q, hnodup,
    fun f => (hmem f).trans mem_indexCandidates_iff, hpairwise⟩

end Node

end QueryScope
