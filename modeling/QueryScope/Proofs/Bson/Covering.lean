import QueryScope.Proofs.Bson.Merging
import QueryScope.Query.Schema
/-!
# Types that cover others

A schema's type is *observed*: sampled documents show no computed type, and every union in
them has a member other than null. `Covers f g` says that a field of type `f` offers every
alternative a field of type `g` offers, document fields and array elements covered in turn:

* the merge of two observed types covers both (`covers_merge`);
* one path segment keeps a type covered, unless the covered type steps to null
  (`covers_step`), and so does a whole path (`covers_typeOf`);
* a covered type that is not null is covered by one that is not null (`ne_null_of_covers`);
* a value type in which null appears nowhere (`nullFree`) fits a covering type wherever it
  fits the covered one (`assignable_of_covers`). Null itself does not: it fits `any`, and not
  the union `string | any` that covers it.

Equality of observed types is exact, so the duplicates a union drops are the very
alternatives it keeps.
-/

namespace QueryScope

namespace Bson

/-! ### Observed types -/

mutual
/-- Whether a type is one that sampled documents show: no computed type in it, and every
union in it has a member other than null. -/
def observed : Bson → Bool
  | .array t => observed t
  | .object fs => observedFields fs
  | .anyOf ms => !(nonNull ms).isEmpty && observedList ms
  | .computed _ _ => false
  | _ => true

/-- Whether each type of a list is observed. -/
def observedList : List Bson → Bool
  | [] => true
  | t :: ts => observed t && observedList ts

/-- Whether each field type of a document is observed. -/
def observedFields : List (String × Bson) → Bool
  | [] => true
  | (_, t) :: fs => observed t && observedFields fs
end

theorem observedList_iff {ms : List Bson} :
    observedList ms = true ↔ ∀ m ∈ ms, observed m = true := by
  induction ms with
  | nil => simp [observedList]
  | cons m ms ih => simp [observedList, ih]

theorem observedFields_iff {fs : List (String × Bson)} :
    observedFields fs = true ↔ ∀ p ∈ fs, observed p.2 = true := by
  induction fs with
  | nil => simp [observedFields]
  | cons p fs ih => simp [observedFields, ih]

@[simp] theorem observed_anyOf {ms : List Bson} :
    observed (.anyOf ms) = true ↔ nonNull ms ≠ [] ∧ ∀ m ∈ ms, observed m = true := by
  simp [observed, observedList_iff]

@[simp] theorem observed_object {fs : List (String × Bson)} :
    observed (.object fs) = true ↔ ∀ p ∈ fs, observed p.2 = true := by
  simp [observed, observedFields_iff]

theorem not_observed_computed (b : Bson) (e : Node) : observed (.computed b e) = false := by
  simp [observed]

mutual
/-- A type equal to an observed type is that type: equality can be loose only in the
expressions of computed types. -/
theorem eq_of_beq_observed : ∀ (a b : Bson), observed b = true → Bson.beq a b = true → a = b
  | a, b, ho, h => by
    unfold Bson.beq at h
    split at h
    case h_12 a b =>
      rw [eq_of_beq_observed a b ho h]
    case h_13 fs gs =>
      rw [eq_of_beqFields_observed fs gs ho h]
    case h_14 ms n ms' n' =>
      simp only [Bool.and_eq_true, beq_iff_eq] at h
      obtain ⟨rfl, rfl⟩ := h
      rfl
    case h_15 ms ms' =>
      simp only [observed, Bool.and_eq_true] at ho
      rw [eq_of_beqList_observed ms ms' ho.2 h]
    case h_16 =>
      simp [observed] at ho
    case h_17 => cases h
    all_goals rfl

theorem eq_of_beqList_observed :
    ∀ (ms ms' : List Bson), observedList ms' = true → Bson.beqList ms ms' = true → ms = ms'
  | [], [], _, _ => rfl
  | a :: as, b :: bs, ho, h => by
    simp only [Bson.beqList, Bool.and_eq_true] at h
    simp only [observedList, Bool.and_eq_true] at ho
    rw [eq_of_beq_observed a b ho.1 h.1, eq_of_beqList_observed as bs ho.2 h.2]
  | [], _ :: _, _, h => by simp [Bson.beqList] at h
  | _ :: _, [], _, h => by simp [Bson.beqList] at h

theorem eq_of_beqFields_observed :
    ∀ (fs gs : List (String × Bson)), observedFields gs = true → Bson.beqFields fs gs = true →
      fs = gs
  | [], [], _, _ => rfl
  | (k, a) :: as, (k', b) :: bs, ho, h => by
    simp only [Bson.beqFields, Bool.and_eq_true, beq_iff_eq] at h
    simp only [observedFields, Bool.and_eq_true] at ho
    obtain ⟨⟨rfl, h1⟩, h2⟩ := h
    rw [eq_of_beq_observed a b ho.1 h1, eq_of_beqFields_observed as bs ho.2 h2]
  | [], _ :: _, _, h => by simp [Bson.beqFields] at h
  | _ :: _, [], _, h => by simp [Bson.beqFields] at h
end

/-! ### Alternatives of one type -/

@[simp] theorem alternatives_anyOf (ms : List Bson) : alternatives [.anyOf ms] = ms := by
  simp [alternatives]

theorem mem_alternatives_iff {ts : List Bson} {x : Bson} :
    x ∈ alternatives ts ↔ ∃ t ∈ ts, x ∈ alternatives [t] := by
  simp [alternatives]

/-- An alternative of a type is the type itself, when it is not a union, or a member. -/
theorem mem_alternatives_singleton {t x : Bson} (hx : x ∈ alternatives [t]) :
    (t.isUnion = false ∧ x = t) ∨ ∃ ms, t = .anyOf ms ∧ x ∈ ms := by
  cases t with
  | anyOf ms => exact .inr ⟨ms, rfl, by simpa using hx⟩
  | _ => exact .inl ⟨rfl, by simpa [alternatives] using hx⟩

theorem isUnion_of_mem_alternatives {t x : Bson} (hw : wellFormed t = true)
    (hx : x ∈ alternatives [t]) : x.isUnion = false := by
  rcases mem_alternatives_singleton hx with ⟨hu, rfl⟩ | ⟨ms, rfl, hm⟩
  · exact hu
  · exact (wellFormed_anyOf.1 hw).1 x hm

theorem wellFormed_of_mem_alternatives {t x : Bson} (hw : wellFormed t = true)
    (hx : x ∈ alternatives [t]) : wellFormed x = true := by
  rcases mem_alternatives_singleton hx with ⟨-, rfl⟩ | ⟨ms, rfl, hm⟩
  · exact hw
  · exact (wellFormed_anyOf.1 hw).2 x hm

theorem observed_of_mem_alternatives {t x : Bson} (ho : observed t = true)
    (hx : x ∈ alternatives [t]) : observed x = true := by
  rcases mem_alternatives_singleton hx with ⟨-, rfl⟩ | ⟨ms, rfl, hm⟩
  · exact ho
  · exact (observed_anyOf.1 ho).2 x hm

/-- An observed type offers some alternative. -/
theorem alternatives_ne_nil {t : Bson} (ho : observed t = true) : alternatives [t] ≠ [] := by
  cases t with
  | anyOf ms =>
    rw [alternatives_anyOf]
    rintro rfl
    exact (observed_anyOf.1 ho).1 rfl
  | _ => simp [alternatives]

theorem flat_of_wellFormed {t : Bson} (hw : wellFormed t = true) : t.flat = true := by
  cases t with
  | anyOf ms => simpa [flat] using (wellFormed_anyOf.1 hw).1
  | _ => rfl

/-! ### The alternatives of a union -/

theorem exists_mem_unionMembers {ts : List Bson} (hne : alternatives ts ≠ []) :
    ∃ m, m ∈ unionMembers ts := by
  obtain ⟨a, ha⟩ := List.exists_mem_of_ne_nil _ hne
  rcases unionMembers_covers ha with h | ⟨m, hm, -⟩
  exacts [⟨a, h⟩, ⟨m, hm⟩]

/-- A union offers only alternatives of the types it joins. -/
theorem alternatives_union_subset {ts : List Bson} (hflat : ∀ t ∈ ts, t.flat = true)
    (hne : alternatives ts ≠ []) : ∀ x ∈ alternatives [union ts], x ∈ alternatives ts := by
  intro x hx
  obtain ⟨m, hm⟩ := exists_mem_unionMembers hne
  rcases union_of_mem hm with ⟨-, hun⟩ | hun
  · rw [hun, alternatives_singleton (isUnion_eq_false_of_mem hflat hm), List.mem_singleton] at hx
    rw [hx]
    exact mem_alternatives_of_mem hm
  · rw [hun, alternatives_anyOf] at hx
    exact mem_alternatives_of_mem hx

/-- A union offers each alternative of the types it joins that is not a union and that only
itself equals. -/
theorem mem_alternatives_union {ts : List Bson} {x : Bson} (hx : x ∈ alternatives ts)
    (hu : x.isUnion = false) (hexact : ∀ m, Bson.beq m x = true → m = x) :
    x ∈ alternatives [union ts] := by
  have hm : x ∈ unionMembers ts := by
    rcases unionMembers_covers hx with h | ⟨m, hm, hmx⟩
    · exact h
    · rwa [hexact m hmx] at hm
  rcases union_of_mem hm with ⟨-, hun⟩ | hun
  · rw [hun, alternatives_singleton hu]
    exact List.mem_singleton_self x
  · rw [hun, alternatives_anyOf]
    exact hm

theorem wellFormed_union {ts : List Bson} (h : ∀ t ∈ ts, wellFormed t = true) :
    wellFormed (union ts) = true := by
  have hm : ∀ m ∈ unionMembers ts, wellFormed m = true := fun m hm => by
    obtain ⟨t, ht, hmt⟩ := mem_alternatives_iff.1 (mem_alternatives_of_mem hm)
    exact wellFormed_of_mem_alternatives (h t ht) hmt
  have hflat : ∀ t ∈ ts, t.flat = true := fun t ht => flat_of_wellFormed (h t ht)
  unfold union
  split
  next => simp [wellFormed]
  next m heq => exact hm m (by simp [heq])
  next => exact wellFormed_anyOf.2 ⟨fun m hm' => isUnion_eq_false_of_mem hflat hm', hm⟩

/-- The union of observed types is observed: a union type has two members that are not equal,
so not both null. -/
theorem observed_union {ts : List Bson} (h : ∀ t ∈ ts, observed t = true) :
    observed (union ts) = true := by
  have hm : ∀ m ∈ unionMembers ts, observed m = true := fun m hm => by
    obtain ⟨t, ht, hmt⟩ := mem_alternatives_iff.1 (mem_alternatives_of_mem hm)
    exact observed_of_mem_alternatives (h t ht) hmt
  have hd := unionMembers_distinct ts
  unfold union
  rcases hms : unionMembers ts with _ | ⟨a, _ | ⟨b, rest⟩⟩
  · simp [observed]
  · exact hm a (by simp [hms])
  · rw [hms] at hm hd
    show observed (.anyOf (a :: b :: rest)) = true
    refine observed_anyOf.2 ⟨fun hn => ?_, hm⟩
    have hall := nonNull_eq_nil_iff.1 hn
    have hab := (List.pairwise_cons.1 hd).1 b (by simp)
    rw [eq_null_of_beq_null (hall a (by simp)), eq_null_of_beq_null (hall b (by simp)),
      beq_null_self] at hab
    cases hab

/-! ### One segment down -/

theorem stepList_eq_map (seg : String) (ms : List Bson) : stepList seg ms = ms.map (step seg) := by
  induction ms with
  | nil => simp [stepList]
  | cons m ms ih => simp [stepList, ih]

theorem step_null (seg : String) : step seg .null = .null := by
  simp [step]

theorem wellFormed_step (seg : String) (t : Bson) (hw : wellFormed t = true) :
    wellFormed (step seg t) = true := by
  cases t with
  | object fs =>
    simp only [step]
    cases hk : fs.lookup seg with
    | none => simp [wellFormed]
    | some u => exact (wellFormed_object.1 hw).2 _ (mem_of_lookup_eq_some hk)
  | array e =>
    simp only [step]
    split
    · exact hw
    · exact wellFormed_step seg e hw
  | anyOf ms =>
    simp only [step]
    refine wellFormed_union fun x hx => ?_
    rw [stepList_eq_map, List.mem_map] at hx
    obtain ⟨m, hm, rfl⟩ := hx
    have := List.sizeOf_lt_of_mem hm
    exact wellFormed_step seg m ((wellFormed_anyOf.1 hw).2 m hm)
  | computed b e =>
    simp only [step]
    exact wellFormed_step seg b hw
  | _ => simp [step, wellFormed]
termination_by sizeOf t
decreasing_by
  all_goals subst_vars
  all_goals simp_wf
  all_goals omega

theorem observed_step (seg : String) (t : Bson) (ho : observed t = true) :
    observed (step seg t) = true := by
  cases t with
  | object fs =>
    simp only [step]
    cases hk : fs.lookup seg with
    | none => simp [observed]
    | some u => exact observed_object.1 ho _ (mem_of_lookup_eq_some hk)
  | array e =>
    simp only [step]
    split
    · exact ho
    · exact observed_step seg e ho
  | anyOf ms =>
    simp only [step]
    refine observed_union fun x hx => ?_
    rw [stepList_eq_map, List.mem_map] at hx
    obtain ⟨m, hm, rfl⟩ := hx
    have := List.sizeOf_lt_of_mem hm
    exact observed_step seg m ((observed_anyOf.1 ho).2 m hm)
  | computed b e => simp [observed] at ho
  | _ => simp [step, observed]
termination_by sizeOf t
decreasing_by
  all_goals subst_vars
  all_goals simp_wf
  all_goals omega

theorem mem_alternatives_stepList {seg : String} {ts : List Bson} {x : Bson} :
    x ∈ alternatives (stepList seg ts) ↔ ∃ t ∈ ts, x ∈ alternatives [step seg t] := by
  rw [mem_alternatives_iff, stepList_eq_map]
  simp

/-- One segment below an observed type offers only what it offers below the type's
alternatives. -/
theorem alternatives_step_subset (seg : String) {t : Bson} (hw : wellFormed t = true)
    (ho : observed t = true) :
    ∀ x ∈ alternatives [step seg t], x ∈ alternatives (stepList seg (alternatives [t])) := by
  cases t with
  | anyOf ms =>
    rw [alternatives_anyOf]
    simp only [step]
    refine alternatives_union_subset (fun x hx => ?_) ?_
    · rw [stepList_eq_map, List.mem_map] at hx
      obtain ⟨m, hm, rfl⟩ := hx
      exact flat_of_wellFormed (wellFormed_step seg m ((wellFormed_anyOf.1 hw).2 m hm))
    · -- a member other than null steps to a type that offers something
      obtain ⟨m, hm⟩ := List.exists_mem_of_ne_nil _ (observed_anyOf.1 ho).1
      have hm' := (List.mem_filter.1 hm).1
      obtain ⟨x, hx⟩ := List.exists_mem_of_ne_nil _
        (alternatives_ne_nil (observed_step seg m ((observed_anyOf.1 ho).2 m hm')))
      exact List.ne_nil_of_mem (mem_alternatives_stepList.2 ⟨m, hm', hx⟩)
  | _ => simp [alternatives, stepList]

/-- One segment below a type offers what it offers below the type's alternatives, each
alternative that is not a union and that only itself equals. -/
theorem mem_alternatives_step (seg : String) (f : Bson) {x : Bson}
    (hx : x ∈ alternatives (stepList seg (alternatives [f]))) (hu : x.isUnion = false)
    (hexact : ∀ m, Bson.beq m x = true → m = x) : x ∈ alternatives [step seg f] := by
  cases f with
  | anyOf ms =>
    rw [alternatives_anyOf] at hx
    simp only [step]
    exact mem_alternatives_union hx hu hexact
  | _ => simpa [alternatives, stepList] using hx

/-! ### Covering -/

/-- `Covers f g`: a field of type `f` offers each alternative that a field of type `g` offers,
or both are arrays whose elements cover, or documents in which each field of `g` is a field of
`f` whose type covers. -/
inductive Covers : Bson → Bson → Prop
  | offers {f g : Bson} : (∀ x ∈ alternatives [g], x ∈ alternatives [f]) → Covers f g
  | array {f g : Bson} : Covers f g → Covers (.array f) (.array g)
  | object {fs gs : List (String × Bson)} :
      (∀ k g, gs.lookup k = some g → (fs.lookup k).isSome = true) →
      (∀ k g, gs.lookup k = some g → Covers ((fs.lookup k).getD .null) g) →
      Covers (.object fs) (.object gs)

theorem Covers.refl (t : Bson) : Covers t t := .offers fun _ hx => hx

/-- A type covering an observed type is not computed: it offers an observed alternative. -/
theorem Covers.not_computed {f g : Bson} (hc : Covers f g) (ho : observed g = true) :
    ∀ b e, f ≠ .computed b e := by
  rintro b e rfl
  cases hc with
  | offers h =>
    obtain ⟨x, hx⟩ := List.exists_mem_of_ne_nil _ (alternatives_ne_nil ho)
    have hxf := h x hx
    simp only [alternatives, List.flatMap_cons, List.flatMap_nil, List.append_nil,
      List.mem_singleton] at hxf
    rw [hxf] at hx
    simpa [not_observed_computed] using observed_of_mem_alternatives ho hx

/-- A type covering an observed type that is not null is not null. -/
theorem ne_null_of_covers {f g : Bson} (hc : Covers f g) (ho : observed g = true)
    (hg : g ≠ .null) : f ≠ .null := by
  rintro rfl
  cases hc with
  | offers h =>
    -- every alternative of `g` is null, and an observed type offers one that is not
    have hnull : ∀ x ∈ alternatives [g], x = .null := fun x hx => by
      simpa [alternatives] using h x hx
    cases g with
    | null => exact hg rfl
    | anyOf ms =>
      obtain ⟨m, hm⟩ := List.exists_mem_of_ne_nil _ (observed_anyOf.1 ho).1
      exact ne_null_of_mem_nonNull hm (hnull m (by simpa using (List.mem_filter.1 hm).1))
    | _ => exact hg (hnull _ (by simp [alternatives]))

/-- One segment below, a covered observed type stays covered unless it steps to null. -/
theorem covers_step (seg : String) {f g : Bson} (hc : Covers f g) (hw : wellFormed g = true)
    (ho : observed g = true) : Covers (step seg f) (step seg g) ∨ step seg g = .null := by
  induction hc with
  | @offers f g h =>
    refine .inl (.offers fun x hx => ?_)
    have hws := wellFormed_step seg g hw
    have hos := observed_step seg g ho
    obtain ⟨m, hm, hxm⟩ := mem_alternatives_stepList.1 (alternatives_step_subset seg hw ho x hx)
    exact mem_alternatives_step seg f (mem_alternatives_stepList.2 ⟨m, h m hm, hxm⟩)
      (isUnion_of_mem_alternatives hws hx)
      (fun m' hm' => eq_of_beq_observed m' x (observed_of_mem_alternatives hos hx) hm')
  | array hfg ih =>
    simp only [step]
    split
    · exact .inl hfg
    · exact ih hw ho
  | @object fs gs _ hcov =>
    simp only [step]
    cases hk : gs.lookup seg with
    | none => exact .inr rfl
    | some u => exact .inl (hcov seg u hk)

/-- Along a path, a covered observed type stays covered until it becomes null. -/
theorem covers_foldl_step : ∀ (segs : List String) {f g : Bson}, wellFormed g = true →
    observed g = true → Covers f g ∨ g = .null →
    Covers (segs.foldl (fun t seg => step seg t) f) (segs.foldl (fun t seg => step seg t) g) ∨
      segs.foldl (fun t seg => step seg t) g = .null
  | [], _, _, _, _, h => h
  | seg :: segs, _, g, hw, ho, h => by
    refine covers_foldl_step segs (wellFormed_step seg g hw) (observed_step seg g ho) ?_
    rcases h with h | rfl
    · exact covers_step seg h hw ho
    · exact .inr (step_null seg)

theorem foldl_step_invariant : ∀ (segs : List String) {g : Bson}, wellFormed g = true →
    observed g = true →
    wellFormed (segs.foldl (fun t seg => step seg t) g) = true ∧
      observed (segs.foldl (fun t seg => step seg t) g) = true
  | [], _, hw, ho => ⟨hw, ho⟩
  | seg :: segs, g, hw, ho =>
    foldl_step_invariant segs (wellFormed_step seg g hw) (observed_step seg g ho)

/-! ### The merge covers both types -/

/-- A union of two observed types offers each alternative of either. -/
theorem covers_union_pair {a b x : Bson} (hx : x = a ∨ x = b) (hw : wellFormed x = true)
    (ho : observed x = true) : Covers (union [a, b]) x := by
  refine .offers fun y hy => mem_alternatives_union ?_ (isUnion_of_mem_alternatives hw hy)
    fun m hm => eq_of_beq_observed m y (observed_of_mem_alternatives ho hy) hm
  rw [alternatives_cons]
  rcases hx with rfl | rfl
  · exact List.mem_append_left _ hy
  · exact List.mem_append_right _ hy

/-- The merge of two well-formed observed types covers both. -/
theorem covers_merge (a b : Bson) : wellFormed a = true → wellFormed b = true →
    observed a = true → observed b = true → Covers (merge a b) a ∧ Covers (merge a b) b := by
  induction a, b using merge.induct with
  | case1 xs ys ih =>
    -- documents: each field's type is covered by its merge, or kept where one side lacks it
    intro hwa hwb hoa hob
    rw [wellFormed_object] at hwa hwb
    rw [observed_object] at hoa hob
    have hky := nodup_keys_of_sorted hwb.1
    rw [merge_object]
    constructor
    · refine .object (fun k t ht => ?_) (fun k t ht => ?_)
      · rw [lookup_foldl_insertField _ k hky, ht]
        cases ys.lookup k <;> rfl
      · have ht' := mem_of_lookup_eq_some ht
        rw [lookup_foldl_insertField _ k hky, ht]
        cases hu : ys.lookup k with
        | none => exact Covers.refl t
        | some u =>
          have hu' := mem_of_lookup_eq_some hu
          simp only [Option.elim, Option.getD_some, mergeField, ht]
          exact (ih k u hu' k t ht' (hwa.2 _ ht') (hwb.2 _ hu') (hoa _ ht') (hob _ hu')).1
    · refine .object (fun k u hu => ?_) (fun k u hu => ?_)
      · rw [lookup_foldl_insertField _ k hky, hu]
        rfl
      · have hu' := mem_of_lookup_eq_some hu
        rw [lookup_foldl_insertField _ k hky, hu]
        simp only [Option.elim, Option.getD_some, mergeField]
        cases ht : xs.lookup k with
        | none => exact Covers.refl u
        | some t =>
          have ht' := mem_of_lookup_eq_some ht
          exact (ih k u hu' k t ht' (hwa.2 _ ht') (hwb.2 _ hu') (hoa _ ht') (hob _ hu')).2
  | case2 x y ih =>
    intro hwa hwb hoa hob
    rw [merge.eq_2]
    have h := ih hwa hwb hoa hob
    exact ⟨.array h.1, .array h.2⟩
  | case3 a b hobj harr hab =>
    -- equal observed types are the same type
    intro _ _ _ hob
    rw [merge.eq_3 a b hobj harr, if_pos hab]
    obtain rfl := eq_of_beq_observed a b hob hab
    exact ⟨Covers.refl a, Covers.refl a⟩
  | case4 a b hobj harr hab =>
    intro hwa hwb hoa hob
    rw [merge.eq_3 a b hobj harr, if_neg hab]
    exact ⟨covers_union_pair (.inl rfl) hwa hoa, covers_union_pair (.inr rfl) hwb hob⟩

end Bson

namespace Schema

theorem typeOf_mk (ns : Namespace) (t : Bson) (path : String) :
    (Schema.mk ns t).typeOf path = (path.splitOn ".").foldl (fun t seg => Bson.step seg t) t :=
  rfl

/-- At every path, the type a covering schema gives covers the type an observed schema gives,
unless the latter is null. -/
theorem covers_typeOf (ns : Namespace) (path : String) {f g : Bson} (hc : Bson.Covers f g)
    (hw : g.wellFormed = true) (ho : g.observed = true) :
    Bson.Covers ((Schema.mk ns f).typeOf path) ((Schema.mk ns g).typeOf path) ∨
      (Schema.mk ns g).typeOf path = .null :=
  Bson.covers_foldl_step _ hw ho (.inl hc)

theorem typeOf_invariant (ns : Namespace) (path : String) {g : Bson}
    (hw : g.wellFormed = true) (ho : g.observed = true) :
    ((Schema.mk ns g).typeOf path).wellFormed = true ∧
      ((Schema.mk ns g).typeOf path).observed = true :=
  Bson.foldl_step_invariant _ hw ho

end Schema

namespace Bson

/-! ### Values fit a covering type -/

mutual
/-- Whether null appears nowhere in a value type: it is not null, each union in it has a
member other than null, and its other members, fields, elements and bases are free of null in
turn. -/
def nullFree : Bson → Bool
  | .null => false
  | .array t => nullFree t
  | .object fs => nullFreeFields fs
  | .anyOf ms => !(nonNull ms).isEmpty && nullFreeList ms
  | .computed b _ => nullFree b
  | _ => true

/-- Whether each member of a union other than null is free of null. -/
def nullFreeList : List Bson → Bool
  | [] => true
  | t :: ts => (t == .null || nullFree t) && nullFreeList ts

/-- Whether each field type of a document is free of null. -/
def nullFreeFields : List (String × Bson) → Bool
  | [] => true
  | (_, t) :: fs => nullFree t && nullFreeFields fs
end

theorem nullFreeList_iff {ms : List Bson} :
    nullFreeList ms = true ↔ ∀ m ∈ nonNull ms, nullFree m = true := by
  induction ms with
  | nil => simp [nullFreeList, nonNull]
  | cons m ms ih =>
    rw [nonNull] at ih
    by_cases hm : (m == .null) = true
    · simp [nullFreeList, nonNull, hm, ih]
    · simp [nullFreeList, nonNull, hm, ih]

theorem nullFreeFields_iff {fs : List (String × Bson)} :
    nullFreeFields fs = true ↔ ∀ p ∈ fs, nullFree p.2 = true := by
  induction fs with
  | nil => simp [nullFreeFields]
  | cons p fs ih => simp [nullFreeFields, ih]

@[simp] theorem nullFree_anyOf {ms : List Bson} :
    nullFree (.anyOf ms) = true ↔ nonNull ms ≠ [] ∧ ∀ m ∈ nonNull ms, nullFree m = true := by
  simp [nullFree, nullFreeList_iff]

@[simp] theorem nullFree_object {fs : List (String × Bson)} :
    nullFree (.object fs) = true ↔ ∀ p ∈ fs, nullFree p.2 = true := by
  simp [nullFree, nullFreeFields_iff]

/-- Whether a type is a scalar or an enum: none of null, `any`, a document, an array, a union
or a computed type. -/
def isScalar : Bson → Bool
  | .null | .any | .array _ | .object _ | .anyOf _ | .computed _ _ => false
  | _ => true

theorem assignable_scalar_array {v : Bson} (hs : isScalar v = true) (e : Bson) :
    assignable v (.array e) = assignable v e := by
  cases v <;> simp [isScalar] at hs <;> rw [assignable.eq_19] <;> simp

theorem assignable_scalar_object {v : Bson} (hs : isScalar v = true)
    (fs : List (String × Bson)) : assignable v (.object fs) = false := by
  cases v <;> simp [isScalar] at hs <;> rw [assignable.eq_20] <;> simp [BEq.beq, Bson.beq]

/-- A union value with a member other than null fits a type that is neither null nor computed
exactly when each such member does. -/
theorem assignable_anyOf_left_iff {vs : List Bson} {f : Bson} (hne : nonNull vs ≠ [])
    (hc : ∀ b e, f ≠ .computed b e) (hn : f ≠ .null) :
    assignable (.anyOf vs) f = true ↔ ∀ m ∈ nonNull vs, assignable m f = true := by
  by_cases ha : f = .any
  · subst ha
    simp [assignable_any_right]
  · rw [assignable_anyOf_left hc ha hn, if_neg hne, List.all_eq_true]

theorem assignable_anyOf_null {vs : List Bson} (hne : nonNull vs ≠ []) :
    assignable (.anyOf vs) .null = false := by
  rw [assignable.eq_8, Bool.eq_false_iff]
  intro h
  exact hne (nonNull_eq_nil_iff.2 (List.all_eq_true.1 h))

/-- A value that is none of null, `any`, a union or a computed type fits a type that is not
computed exactly when it fits one of the type's alternatives. -/
theorem assignable_eq_any_alternatives {v f : Bson} (hc : ∀ b e, v ≠ .computed b e)
    (ha : v ≠ .any) (hn : v ≠ .null) (hu : ∀ ms, v ≠ .anyOf ms) (hf : ∀ b e, f ≠ .computed b e) :
    assignable v f = (alternatives [f]).any (assignable v ·) := by
  cases f with
  | anyOf ms => rw [alternatives_anyOf, assignable_anyOf_right hc ha hn hu]
  | computed b e => exact absurd rfl (hf b e)
  | _ => simp [alternatives]

theorem assignable_of_offers {v f g : Bson} (hc : ∀ b e, v ≠ .computed b e) (ha : v ≠ .any)
    (hn : v ≠ .null) (hu : ∀ ms, v ≠ .anyOf ms)
    (hsub : ∀ x ∈ alternatives [g], x ∈ alternatives [f]) (hf : ∀ b e, f ≠ .computed b e)
    (hg : ∀ b e, g ≠ .computed b e) (h : assignable v g = true) : assignable v f = true := by
  rw [assignable_eq_any_alternatives hc ha hn hu hg, List.any_eq_true] at h
  obtain ⟨x, hx, hvx⟩ := h
  rw [assignable_eq_any_alternatives hc ha hn hu hf, List.any_eq_true]
  exact ⟨x, hsub x hx, hvx⟩

theorem not_computed_of_observed {g : Bson} (ho : observed g = true) :
    ∀ b e, g ≠ .computed b e := by
  rintro b e rfl
  rw [not_observed_computed] at ho
  cases ho

theorem assignable_of_covers_scalar {v : Bson} (hs : isScalar v = true) {f g : Bson}
    (hc : Covers f g) (hw : wellFormed g = true) (ho : observed g = true)
    (h : assignable v g = true) : assignable v f = true := by
  have hv : (∀ b e, v ≠ .computed b e) ∧ v ≠ .any ∧ v ≠ .null ∧ ∀ ms, v ≠ .anyOf ms := by
    cases v <;> simp_all [isScalar]
  induction hc with
  | offers hsub =>
    exact assignable_of_offers hv.1 hv.2.1 hv.2.2.1 hv.2.2.2 hsub
      ((Covers.offers hsub).not_computed ho) (not_computed_of_observed ho) h
  | array _ ih =>
    rw [assignable_scalar_array hs] at h ⊢
    exact ih hw ho h
  | object =>
    rw [assignable_scalar_object hs] at h
    cases h

/-- A value type free of null fits a covering type wherever it fits the well-formed observed
type it covers. -/
theorem assignable_of_covers (v : Bson) (hv : nullFree v = true) {f g : Bson} (hc : Covers f g)
    (hw : wellFormed g = true) (ho : observed g = true) (h : assignable v g = true) :
    assignable v f = true := by
  cases v with
  | null => simp [nullFree] at hv
  | any => exact assignable_any_left f
  | computed b e =>
    rw [assignable_computed_left] at h ⊢
    exact assignable_of_covers b hv hc hw ho h
  | anyOf vs =>
    -- each member other than null fits `g`, and so fits `f`
    obtain ⟨hne, hmem⟩ := nullFree_anyOf.1 hv
    have hgn : g ≠ .null := by
      rintro rfl
      rw [assignable_anyOf_null hne] at h
      cases h
    have hfit := (assignable_anyOf_left_iff hne (not_computed_of_observed ho) hgn).1 h
    refine (assignable_anyOf_left_iff hne (hc.not_computed ho)
      (ne_null_of_covers hc ho hgn)).2 fun m hm => ?_
    have := sizeOf_lt_of_mem_nonNull hm
    exact assignable_of_covers m (hmem m hm) hc hw ho (hfit m hm)
  | array a =>
    induction hc with
    | offers hsub =>
      exact assignable_of_offers (by simp) (by simp) (by simp) (by simp) hsub
        ((Covers.offers hsub).not_computed ho) (not_computed_of_observed ho) h
    | array hfg _ =>
      rw [assignable.eq_13] at h ⊢
      exact assignable_of_covers a hv hfg hw ho h
    | object hkeys hcov =>
      -- an array fits a document as its elements do
      rw [assignable.eq_14 _ _ (by simp) (by simp) (by simp) (by simp)] at h ⊢
      exact assignable_of_covers a hv (.object hkeys hcov) hw ho h
  | object vs =>
    induction hc with
    | offers hsub =>
      exact assignable_of_offers (by simp) (by simp) (by simp) (by simp) hsub
        ((Covers.offers hsub).not_computed ho) (not_computed_of_observed ho) h
    | array =>
      rw [assignable.eq_12 _ _ (by simp) (by simp) (by simp) (by simp)] at h
      cases h
    | @object fs gs hkeys hcov =>
      -- each field fits the covering field under its name
      rw [assignable_object_iff] at h ⊢
      rintro ⟨k, t⟩ hp
      obtain ⟨u, hu, hfit⟩ := h (k, t) hp
      have hu' := mem_of_lookup_eq_some hu
      obtain ⟨f', hf'⟩ := Option.isSome_iff_exists.1 (hkeys k u hu)
      have hcf := hcov k u hu
      rw [hf', Option.getD_some] at hcf
      have := sizeOf_field_lt hp
      exact ⟨f', hf', assignable_of_covers t (nullFree_object.1 hv _ hp) hcf
        ((wellFormed_object.1 hw).2 _ hu') (observed_object.1 ho _ hu') hfit⟩
  | _ => exact assignable_of_covers_scalar rfl hc hw ho h
termination_by sizeOf v
decreasing_by
  all_goals subst_vars
  all_goals simp_wf
  all_goals omega

end Bson

end QueryScope
