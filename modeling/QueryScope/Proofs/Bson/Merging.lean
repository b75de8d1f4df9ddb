import QueryScope.Proofs.Bson.Assignability
import QueryScope.Proofs.Interchange.RoundTrip
/-!
# Merging observed types

`Bson.merge a b` is the type of a field observed once as `a` and once as `b`: documents merge
field by field, arrays merge their elements, equal types stay as they are, and any other pair
becomes the union of the two.

Main statement (`Bson.merge_bound_and_symmetric`), for types of the shape the type
constructors give (`wellFormed`: document fields sorted by name without repeats, no union
among a union's members):

* the merge is an upper bound, `a` and `b` both fit `merge a b`, when null is explicit in both
  (`explicitNull`): every union has a member and no computed type stands for null. A computed
  null merged with `string` gives the union `string | computed null`, which has no null member,
  so the computed null, fitting as null does, does not fit it;
* the merge is symmetric, `merge a b == merge b a`, when `==` is equality on the types
  occurring in `a` and `b` and rank and text tell any two of them apart. Where they do not, a
  union keeps the order in which its members were met: two enums of one name merge into
  `K | K` in either order (`merge_not_bound_nor_symmetric`).

Assignability never looks at the expression of a computed type, while `==` compares it,
doubles included. The proofs therefore reason about types with their expressions forgotten
(`erase`), which two types `==` each other share.
-/

namespace QueryScope

namespace Bson

/-! ### Types without their expressions -/

/-- The expression every type with its expressions forgotten carries. -/
def erasedExpression : Node := .mk .erased []

mutual
/-- The type with the expression of each computed type in it forgotten. -/
def erase : Bson → Bson
  | .array t => .array (erase t)
  | .object fs => .object (eraseFields fs)
  | .anyOf ms => .anyOf (eraseList ms)
  | .computed b _ => .computed (erase b) erasedExpression
  | t => t

/-- Forget the expressions in each type of a list. -/
def eraseList : List Bson → List Bson
  | [] => []
  | t :: ts => erase t :: eraseList ts

/-- Forget the expressions in each field type of a document. -/
def eraseFields : List (String × Bson) → List (String × Bson)
  | [] => []
  | (k, t) :: fs => (k, erase t) :: eraseFields fs
end

mutual
/-- Types that `==` each other differ at most in the expressions of their computed types. -/
theorem erase_eq_of_beq : ∀ (a b : Bson), Bson.beq a b = true → a.erase = b.erase
  | a, b, h => by
    -- one case per shape that equality accepts; types of two shapes are never equal
    unfold Bson.beq at h
    split at h
    case h_12 a b =>
      simp only [erase]
      rw [erase_eq_of_beq a b h]
    case h_13 fs gs =>
      simp only [erase]
      rw [eraseFields_eq_of_beqFields fs gs h]
    case h_14 ms n ms' n' =>
      simp only [Bool.and_eq_true, beq_iff_eq] at h
      obtain ⟨rfl, rfl⟩ := h
      rfl
    case h_15 ms ms' =>
      simp only [erase]
      rw [eraseList_eq_of_beqList ms ms' h]
    case h_16 a _ b _ =>
      simp only [Bool.and_eq_true] at h
      simp only [erase]
      rw [erase_eq_of_beq a b h.1]
    case h_17 => cases h
    all_goals rfl

theorem eraseList_eq_of_beqList :
    ∀ (ms ms' : List Bson), Bson.beqList ms ms' = true → eraseList ms = eraseList ms'
  | [], [], _ => rfl
  | a :: as, b :: bs, h => by
    simp only [Bson.beqList, Bool.and_eq_true] at h
    simp only [eraseList, erase_eq_of_beq a b h.1, eraseList_eq_of_beqList as bs h.2]
  | [], _ :: _, h => by simp [Bson.beqList] at h
  | _ :: _, [], h => by simp [Bson.beqList] at h

theorem eraseFields_eq_of_beqFields :
    ∀ (fs gs : List (String × Bson)), Bson.beqFields fs gs = true → eraseFields fs = eraseFields gs
  | [], [], _ => rfl
  | (k, a) :: as, (k', b) :: bs, h => by
    simp only [Bson.beqFields, Bool.and_eq_true, beq_iff_eq] at h
    obtain ⟨⟨rfl, h1⟩, h2⟩ := h
    simp only [eraseFields, erase_eq_of_beq a b h1, eraseFields_eq_of_beqFields as bs h2]
  | [], _ :: _, h => by simp [Bson.beqFields] at h
  | _ :: _, [], h => by simp [Bson.beqFields] at h
end

/-- Each type of a list has a type of the same erased form in a list of that erased form. -/
theorem exists_erase_eq_of_eraseList_eq :
    ∀ {ms ms' : List Bson}, eraseList ms = eraseList ms' →
      ∀ m ∈ ms, ∃ m' ∈ ms', m.erase = m'.erase
  | [], _, _, m, hm => by simp at hm
  | _ :: _, [], h, _, _ => by simp [eraseList] at h
  | a :: as, b :: bs, h, m, hm => by
    simp only [eraseList, List.cons.injEq] at h
    rcases List.mem_cons.1 hm with rfl | hm
    · exact ⟨b, List.mem_cons_self, h.1⟩
    · obtain ⟨m', hm', he⟩ := exists_erase_eq_of_eraseList_eq h.2 m hm
      exact ⟨m', List.mem_cons_of_mem b hm', he⟩

/-- A field found under a name has a field of the same erased form under that name in a
document of the same erased form. -/
theorem lookup_of_eraseFields_eq {k : String} :
    ∀ {fs gs : List (String × Bson)}, eraseFields fs = eraseFields gs →
      ∀ {t : Bson}, fs.lookup k = some t → ∃ e, gs.lookup k = some e ∧ t.erase = e.erase
  | [], _, _, _, ht => by simp at ht
  | _ :: _, [], h, _, _ => by simp [eraseFields] at h
  | (k₁, a) :: as, (k₂, b) :: bs, h, t, ht => by
    simp only [eraseFields, List.cons.injEq, Prod.mk.injEq] at h
    obtain ⟨⟨rfl, hab⟩, hrest⟩ := h
    rw [List.lookup_cons] at ht ⊢
    split at ht
    · cases ht
      exact ⟨b, rfl, hab⟩
    · exact lookup_of_eraseFields_eq hrest ht

/-- Null keeps its erased form only in itself. -/
theorem eq_null_of_erase_eq_null {t : Bson} (h : t.erase = .null) : t = .null := by
  cases t <;> simp_all [erase]

/-! ### Explicit null and well-formed types -/

/-- Whether a type stands for null as a value: under its computed wrappers it is null, or a
union of nothing but null. -/
def standsForNull (t : Bson) : Bool :=
  match t.base with
  | .null => true
  | .anyOf ms => (nonNull ms).isEmpty
  | _ => false

mutual
/-- Whether null is explicit in a type: every union in it has a member and no computed type in
it stands for null, so that a part fitting only where null fits is null itself or a union
holding null. -/
def explicitNull : Bson → Bool
  | .array t => explicitNull t
  | .object fs => explicitNullFields fs
  | .anyOf ms => !ms.isEmpty && explicitNullList ms
  | .computed b _ => !b.standsForNull && explicitNull b
  | _ => true

/-- Whether null is explicit in each type of a list. -/
def explicitNullList : List Bson → Bool
  | [] => true
  | t :: ts => explicitNull t && explicitNullList ts

/-- Whether null is explicit in each field type of a document. -/
def explicitNullFields : List (String × Bson) → Bool
  | [] => true
  | (_, t) :: fs => explicitNull t && explicitNullFields fs
end

mutual
/-- Whether a type has the shape the type constructors give it: the fields of each document
sorted by name without repeats, and no union among the members of a union. -/
def wellFormed : Bson → Bool
  | .array t => wellFormed t
  | .object fs => decide (fs.Pairwise fun p q => p.1 < q.1) && wellFormedFields fs
  | .anyOf ms => ms.all (fun m => !m.isUnion) && wellFormedList ms
  | .computed b _ => wellFormed b
  | _ => true

/-- Whether each type of a list is well formed. -/
def wellFormedList : List Bson → Bool
  | [] => true
  | t :: ts => wellFormed t && wellFormedList ts

/-- Whether each field type of a document is well formed. -/
def wellFormedFields : List (String × Bson) → Bool
  | [] => true
  | (_, t) :: fs => wellFormed t && wellFormedFields fs
end

theorem explicitNullList_iff {ms : List Bson} :
    explicitNullList ms = true ↔ ∀ m ∈ ms, explicitNull m = true := by
  induction ms with
  | nil => simp [explicitNullList]
  | cons m ms ih => simp [explicitNullList, ih]

theorem explicitNullFields_iff {fs : List (String × Bson)} :
    explicitNullFields fs = true ↔ ∀ p ∈ fs, explicitNull p.2 = true := by
  induction fs with
  | nil => simp [explicitNullFields]
  | cons p fs ih => simp [explicitNullFields, ih]

theorem wellFormedList_iff {ms : List Bson} :
    wellFormedList ms = true ↔ ∀ m ∈ ms, wellFormed m = true := by
  induction ms with
  | nil => simp [wellFormedList]
  | cons m ms ih => simp [wellFormedList, ih]

theorem wellFormedFields_iff {fs : List (String × Bson)} :
    wellFormedFields fs = true ↔ ∀ p ∈ fs, wellFormed p.2 = true := by
  induction fs with
  | nil => simp [wellFormedFields]
  | cons p fs ih => simp [wellFormedFields, ih]

@[simp] theorem explicitNull_anyOf {ms : List Bson} :
    explicitNull (.anyOf ms) = true ↔ ms ≠ [] ∧ ∀ m ∈ ms, explicitNull m = true := by
  simp [explicitNull, explicitNullList_iff]

@[simp] theorem explicitNull_object {fs : List (String × Bson)} :
    explicitNull (.object fs) = true ↔ ∀ p ∈ fs, explicitNull p.2 = true := by
  simp [explicitNull, explicitNullFields_iff]

@[simp] theorem wellFormed_anyOf {ms : List Bson} :
    wellFormed (.anyOf ms) = true ↔
      (∀ m ∈ ms, m.isUnion = false) ∧ ∀ m ∈ ms, wellFormed m = true := by
  simp [wellFormed, wellFormedList_iff]

@[simp] theorem wellFormed_object {fs : List (String × Bson)} :
    wellFormed (.object fs) = true ↔
      fs.Pairwise (fun p q => p.1 < q.1) ∧ ∀ p ∈ fs, wellFormed p.2 = true := by
  simp [wellFormed, wellFormedFields_iff]

theorem standsForNull_computed (b : Bson) (e : Node) :
    standsForNull (.computed b e) = standsForNull b := by
  simp only [standsForNull, base]

theorem explicitNull_base : ∀ {t : Bson}, explicitNull t = true → explicitNull t.base = true
  | .computed b _, h => by
    rw [base]
    simp only [explicitNull, Bool.and_eq_true] at h
    exact explicitNull_base h.2
  | .null, h | .boolean, h | .int32, h | .int64, h | .double, h | .decimal128, h | .string, h
  | .objectId, h | .uuid, h | .date, h | .array _, h | .object _, h | .enumeration _ _, h
  | .anyOf _, h | .any, h => h

theorem wellFormed_base : ∀ {t : Bson}, wellFormed t = true → wellFormed t.base = true
  | .computed b _, h => by
    rw [base]
    exact wellFormed_base h
  | .null, h | .boolean, h | .int32, h | .int64, h | .double, h | .decimal128, h | .string, h
  | .objectId, h | .uuid, h | .date, h | .array _, h | .object _, h | .enumeration _ _, h
  | .anyOf _, h | .any, h => h

/-- A type other than null and a union stands for null only as a computed type, which null
made explicit excludes. -/
theorem standsForNull_eq_false {t : Bson} (hn : t ≠ .null) (hu : t.isUnion = false)
    (he : explicitNull t = true) : standsForNull t = false := by
  cases t with
  | null => exact absurd rfl hn
  | anyOf _ => simp [isUnion] at hu
  | computed b e =>
    simp only [explicitNull, Bool.and_eq_true, Bool.not_eq_true'] at he
    rw [standsForNull_computed, he.1]
  | _ => rfl

theorem standsForNull_base (t : Bson) : standsForNull t.base = standsForNull t := by
  simp only [standsForNull, base_base]

theorem ne_null_of_mem_nonNull {ms : List Bson} {x : Bson} (hx : x ∈ nonNull ms) : x ≠ .null := by
  rintro rfl
  have := (List.mem_filter.1 hx).2
  rw [beq_null_self] at this
  cases this

/-! ### Fitting a union through a member -/

/-- A union field takes a value fitting one of its members, provided it holds null when the
value stands for null. -/
theorem assignable_anyOf_of_fits {ms : List Bson} {m : Bson} (hm : m ∈ ms) (v : Bson)
    (hw : wellFormed v = true) (he : explicitNull v = true)
    (hnull : standsForNull v = true → hasNull ms = true) (hv : assignable v m = true) :
    assignable v (.anyOf ms) = true := by
  rw [assignable_base_left] at hv ⊢
  rw [← standsForNull_base] at hnull
  have hvb := base_ne_computed v
  -- by the shape of the value under its computed wrappers
  by_cases hvn : v.base = .null
  · rw [hvn, assignable_null]
    exact hnull (by rw [hvn]; rfl)
  by_cases hva : v.base = .any
  · rw [hva]
    exact assignable_any_left _
  by_cases hvu : ∃ vs, v.base = .anyOf vs
  · obtain ⟨vs, hvs⟩ := hvu
    rw [hvs] at hv hnull ⊢
    rw [assignable_anyOf_left (by simp) (by simp) (by simp)]
    split
    · -- a union of nothing but null stands for null
      rename_i hnn
      exact hnull (by simp [standsForNull, base, hnn])
    · rename_i hne
      have hwb := wellFormed_base hw
      have heb := explicitNull_base he
      rw [hvs, wellFormed_anyOf] at hwb
      rw [hvs, explicitNull_anyOf] at heb
      refine List.all_eq_true.2 fun x hx => ?_
      have hx' := (List.mem_filter.1 hx).1
      -- each other member is neither null nor a union, so it does not stand for null
      have hxs := standsForNull_eq_false (ne_null_of_mem_nonNull hx) (hwb.1 x hx') (heb.2 x hx')
      exact assignable_anyOf_of_fits hm x (hwb.2 x hx') (heb.2 x hx')
        (fun h => absurd (hxs ▸ h) (by simp)) (assignable_of_mem_nonNull hne hx hv)
  · simp only [not_exists] at hvu
    rw [assignable_anyOf_right hvb hva hvn hvu, List.any_eq_true]
    exact ⟨m, hm, hv⟩
termination_by sizeOf v
decreasing_by
  have h1 := List.sizeOf_lt_of_mem (List.mem_filter.1 hx).1
  have h2 := sizeOf_base_le v
  rw [hvs] at h2
  simp at h2
  omega

/-- The field found in a document under a name by the search assignability makes. -/
theorem lookup_eq_of_find?_attach (es : List (String × Bson)) (k : String) :
    (es.attach.find? fun e => e.1.1 == k).map (fun e => e.1.2) = es.lookup k := by
  have h := List.find?_subtype (l := es.attach) (f := fun e => e.1.1 == k)
    (g := fun p => p.1 == k) (fun _ _ => rfl)
  rw [List.unattach_attach] at h
  have hmap : (es.attach.find? fun e => e.1.1 == k).map (fun e => e.1.2) =
      ((es.attach.find? fun e => e.1.1 == k).map Subtype.val).map Prod.snd := by
    rw [Option.map_map]
    rfl
  rw [hmap, h]
  clear h hmap
  induction es with
  | nil => rfl
  | cons p es ih =>
    obtain ⟨k', t⟩ := p
    rw [List.lookup_cons, List.find?_cons]
    by_cases hk : k = k'
    · subst hk
      simp
    · have hk' : (k' == k) = false := by simpa using Ne.symm hk
      have hk'' : (k == k') = false := by simpa using hk
      simp only [hk', hk'']
      exact ih

/-- A document fits a document that has each of its fields with a type the field fits. -/
theorem assignable_object_iff {vs es : List (String × Bson)} :
    assignable (.object vs) (.object es) = true ↔
      ∀ p ∈ vs, ∃ e, es.lookup p.1 = some e ∧ assignable p.2 e = true := by
  rw [assignable.eq_11, List.all_eq_true]
  constructor
  · rintro h ⟨k, t⟩ hp
    have hk := h ⟨(k, t), hp⟩ (List.mem_attach _ _)
    have hl := lookup_eq_of_find?_attach es k
    dsimp only at hk
    split at hk
    · rename_i k' e _ hfind
      rw [hfind] at hl
      exact ⟨e, hl.symm, hk⟩
    · cases hk
  · rintro h ⟨⟨k, t⟩, hp⟩ -
    obtain ⟨e, he, ht⟩ := h (k, t) hp
    have hl := lookup_eq_of_find?_attach es k
    dsimp only
    split
    · rename_i k' e' _ hfind
      rw [hfind, he] at hl
      cases hl
      exact ht
    · rename_i hfind
      rw [hfind, he] at hl
      cases hl

/-- In a document naming each field once, a field is found under its name. -/
theorem lookup_of_mem {fs : List (String × Bson)} (hk : (fs.map (·.1)).Nodup) {k : String}
    {t : Bson} (h : (k, t) ∈ fs) : fs.lookup k = some t := by
  induction fs with
  | nil => simp at h
  | cons p fs ih =>
    obtain ⟨k', t'⟩ := p
    rw [List.map_cons, List.nodup_cons] at hk
    rw [List.lookup_cons]
    rcases List.mem_cons.1 h with h | h
    · cases h
      simp
    · have hne : k ≠ k' := fun heq => hk.1 (heq ▸ List.mem_map_of_mem (f := (·.1)) h)
      have hb : (k == k') = false := by simpa using hne
      simp only [hb]
      exact ih hk.2 h

/-! ### Types fit the types of their erased form -/

mutual
/-- A well-formed type in which null is explicit fits every type of its erased form, itself
included. -/
theorem assignable_of_erase_eq : ∀ (x : Bson), wellFormed x = true → explicitNull x = true →
    ∀ y : Bson, x.erase = y.erase → assignable x y = true
  | .computed b e, hw, he, y, hxy => by
    cases y <;> simp [erase] at hxy
    rename_i b' e'
    simp only [wellFormed, explicitNull, Bool.and_eq_true] at hw he
    rw [assignable_base, base, base, ← assignable_base]
    exact assignable_of_erase_eq b hw he.2 b' hxy
  | .array a, hw, he, y, hxy => by
    cases y <;> simp [erase] at hxy
    rw [assignable.eq_13]
    exact assignable_of_erase_eq a hw he _ hxy
  | .object fs, hw, he, y, hxy => by
    cases y <;> simp [erase] at hxy
    rename_i gs
    rw [wellFormed_object] at hw
    rw [explicitNull_object] at he
    refine assignable_object_iff.2 fun ⟨k, t⟩ hp => ?_
    -- the field of the same name in the other document has the same erased form
    obtain ⟨e, hge, hte⟩ :=
      lookup_of_eraseFields_eq hxy (lookup_of_mem (nodup_keys_of_sorted hw.1) hp)
    exact ⟨e, hge, assignable_of_erase_eq_fields fs
      (wellFormedFields_iff.2 hw.2) (explicitNullFields_iff.2 he) (k, t) hp e hte⟩
  | .anyOf ms, hw, he, y, hxy => by
    cases y <;> simp [erase] at hxy
    rename_i ms'
    rw [wellFormed_anyOf] at hw
    rw [explicitNull_anyOf] at he
    rw [assignable_anyOf_left (by simp) (by simp) (by simp)]
    split
    · -- nothing but null: the other union holds null too
      rename_i hnn
      obtain ⟨m, hm⟩ := List.exists_mem_of_ne_nil ms he.1
      have hmn := eq_null_of_beq_null (nonNull_eq_nil_iff.1 hnn m hm)
      subst hmn
      obtain ⟨m', hm', hme⟩ := exists_erase_eq_of_eraseList_eq hxy .null hm
      rw [eq_null_of_erase_eq_null hme.symm] at hm'
      exact hasNull_iff_mem.2 hm'
    · refine List.all_eq_true.2 fun x hx => ?_
      have hx' := (List.mem_filter.1 hx).1
      obtain ⟨x', hx'', hxe⟩ := exists_erase_eq_of_eraseList_eq hxy x hx'
      have hxs := standsForNull_eq_false (ne_null_of_mem_nonNull hx) (hw.1 x hx') (he.2 x hx')
      exact assignable_anyOf_of_fits hx'' x (hw.2 x hx') (he.2 x hx')
        (fun h => absurd (hxs ▸ h) (by simp))
        (assignable_of_erase_eq_list ms (wellFormedList_iff.2 hw.2)
          (explicitNullList_iff.2 he.2) x hx' x' hxe)
  | .null, _, _, y, hxy => by
    rw [eq_null_of_erase_eq_null hxy.symm]
    exact assignable.eq_5
  | .any, _, _, y, _ => assignable_any_left y
  | .enumeration ms n, _, _, y, hxy => by
    cases y <;> simp [erase] at hxy
    obtain ⟨rfl, rfl⟩ := hxy
    rw [assignable.eq_15]
    simp
  | .boolean, _, _, y, hxy | .int32, _, _, y, hxy | .int64, _, _, y, hxy
  | .double, _, _, y, hxy | .decimal128, _, _, y, hxy | .string, _, _, y, hxy
  | .objectId, _, _, y, hxy | .uuid, _, _, y, hxy | .date, _, _, y, hxy => by
    cases y <;> simp [erase] at hxy
    all_goals rw [assignable.eq_20] <;> simp [BEq.beq, Bson.beq]

/-- Each member of a list fits every type of its erased form. -/
theorem assignable_of_erase_eq_list : ∀ (ms : List Bson), wellFormedList ms = true →
    explicitNullList ms = true → ∀ m ∈ ms, ∀ y : Bson, m.erase = y.erase → assignable m y = true
  | [], _, _ => by simp
  | t :: ts, hw, he => by
    simp only [wellFormedList, explicitNullList, Bool.and_eq_true] at hw he
    intro m hm
    rcases List.mem_cons.1 hm with hmt | hm
    · rw [hmt]
      exact assignable_of_erase_eq t hw.1 he.1
    · exact assignable_of_erase_eq_list ts hw.2 he.2 m hm

/-- Each field type of a document fits every type of its erased form. -/
theorem assignable_of_erase_eq_fields : ∀ (fs : List (String × Bson)),
    wellFormedFields fs = true → explicitNullFields fs = true →
      ∀ p ∈ fs, ∀ y : Bson, p.2.erase = y.erase → assignable p.2 y = true
  | [], _, _ => by simp
  | (k, t) :: fs, hw, he => by
    simp only [wellFormedFields, explicitNullFields, Bool.and_eq_true] at hw he
    intro p hp
    rcases List.mem_cons.1 hp with hpt | hp
    · rw [hpt]
      exact assignable_of_erase_eq t hw.1 he.1
    · exact assignable_of_erase_eq_fields fs hw.2 he.2 p hp
end

/-! ### Fitting the union of a list -/

/-- Forgetting expressions commutes with stripping the computed wrappers. -/
theorem erase_base : ∀ t : Bson, t.base.erase = t.erase.base
  | .computed b _ => by rw [base, erase, base, erase_base b]
  | .null | .boolean | .int32 | .int64 | .double | .decimal128 | .string | .objectId | .uuid
  | .date | .array _ | .object _ | .enumeration _ _ | .anyOf _ | .any => rfl

/-- A value fits a type as it fits the type's base. -/
theorem assignable_base_field (v f : Bson) : assignable v f.base = assignable v f := by
  rw [assignable_base v f, assignable_base v f.base, base_base]

/-- A union value fits a type other than null as null does when it has no member but null,
and otherwise when each of its other members fits. -/
theorem assignable_anyOf_value {f : Bson} (hn : f.base ≠ .null) (ms : List Bson) :
    assignable (.anyOf ms) f =
      if nonNull ms = [] then isNullable f else (nonNull ms).all (assignable · f) := by
  have hall : (nonNull ms).all (assignable · f) = (nonNull ms).all (assignable · f.base) :=
    List.all_congr rfl fun x => (assignable_base_field x f).symm
  rw [← assignable_base_field, ← isNullable_base, hall]
  by_cases ha : f.base = .any
  · rw [ha, assignable_any_right]
    split
    · rfl
    · exact (List.all_eq_true.2 fun x _ => assignable_any_right x).symm
  · exact assignable_anyOf_left (base_ne_computed f) ha hn ms

/-- A member of the union of a list: an alternative the list offers, or one equal to it. -/
theorem exists_member_erase_eq {ts : List Bson} {x : Bson} (hx : x ∈ alternatives ts) :
    ∃ m ∈ unionMembers ts, m.erase = x.erase := by
  rcases unionMembers_covers hx with h | ⟨m, hm, hmx⟩
  · exact ⟨x, h, rfl⟩
  · exact ⟨m, hm, erase_eq_of_beq m x hmx⟩

/-- An alternative of a list fits the union of the list, when it is not itself a union and
null is explicit in it. -/
theorem assignable_union_of_alternative {ts : List Bson} {x : Bson} (hx : x ∈ alternatives ts)
    (hu : x.isUnion = false) (hw : wellFormed x = true) (he : explicitNull x = true) :
    assignable x (union ts) = true := by
  obtain ⟨m, hm, hme⟩ := exists_member_erase_eq hx
  have hxm := assignable_of_erase_eq x hw he m hme.symm
  rcases union_of_mem hm with ⟨-, hun⟩ | hun
  · rwa [hun]
  · rw [hun]
    refine assignable_anyOf_of_fits hm x hw he (fun hs => ?_) hxm
    -- only null itself stands for null here, and its member is null as well
    by_cases hxn : x = .null
    · subst hxn
      rw [eq_null_of_erase_eq_null hme] at hm
      exact hasNull_iff_mem.2 hm
    · rw [standsForNull_eq_false hxn hu he] at hs
      cases hs

/-- A union whose members are alternatives of a list fits the union of the list, when null is
explicit in it. -/
theorem assignable_union_of_subset {ts ms : List Bson} (hsub : ∀ y ∈ ms, y ∈ alternatives ts)
    (hw : wellFormed (.anyOf ms) = true) (he : explicitNull (.anyOf ms) = true) :
    assignable (.anyOf ms) (union ts) = true := by
  rw [wellFormed_anyOf] at hw
  rw [explicitNull_anyOf] at he
  by_cases hb : (union ts).base = .null
  · -- the union is null itself, so each member, offered as an alternative, is null
    have hnull : ∀ y ∈ ms, y = .null := by
      intro y hy
      obtain ⟨m, hm, hme⟩ := exists_member_erase_eq (hsub y hy)
      have hmb : m.base = .null := by
        rcases union_of_mem hm with ⟨-, hun⟩ | hun
        · rwa [hun] at hb
        · rw [hun] at hb
          cases hb
      have hyb : y.base = .null := by
        apply eq_null_of_erase_eq_null
        rw [erase_base, ← hme, ← erase_base, hmb]
        rfl
      by_contra hyn
      have hs := standsForNull_eq_false hyn (hw.1 y hy) (he.2 y hy)
      simp [standsForNull, hyb] at hs
    rw [← assignable_base_field, hb, assignable.eq_8, List.all_eq_true]
    intro y hy
    rw [hnull y hy]
    exact beq_null_self
  · rw [assignable_anyOf_value hb]
    split
    · -- nothing but null: null is among the alternatives
      rename_i hnn
      obtain ⟨y, hy⟩ := List.exists_mem_of_ne_nil ms he.1
      have hyn := eq_null_of_beq_null (nonNull_eq_nil_iff.1 hnn y hy)
      exact isNullable_union (hyn ▸ hsub y hy)
    · refine List.all_eq_true.2 fun x hx => ?_
      have hx' := (List.mem_filter.1 hx).1
      exact assignable_union_of_alternative (hsub x hx') (hw.1 x hx') (hw.2 x hx') (he.2 x hx')

/-! ### Documents merged field by field -/

/-- The type a field observed as `t` gets in the merge with a document of fields `xs`: its
merge with the field of that name in `xs`, or `t` itself when `xs` has none. -/
def mergeField (xs : List (String × Bson)) (k : String) (t : Bson) : Bson :=
  (xs.lookup k).elim t fun e => merge e t

/-- Merging documents inserts the fields of the second into the first, in order, each merged
with the first document's field of its name. -/
theorem merge_object (xs ys : List (String × Bson)) :
    merge (.object xs) (.object ys) =
      .object (ys.foldl (fun acc p => insertField p.1 (mergeField xs p.1 p.2) acc) xs) := by
  rw [merge.eq_1]
  conv_rhs => rw [← List.foldl_attach]
  refine congrArg (fun f => Bson.object (List.foldl f xs ys.attach))
    (funext fun acc => funext fun p => ?_)
  obtain ⟨⟨k, t⟩, _⟩ := p
  have hl := lookup_eq_of_find?_attach xs k
  dsimp only
  split
  · rename_i e _ hfind
    rw [hfind] at hl
    simp [mergeField, ← hl]
  · rename_i hfind
    rw [hfind] at hl
    simp [mergeField, ← hl]

theorem lookup_cons_ne {k k' : String} {t : Bson} {fs : List (String × Bson)} (h : k' ≠ k) :
    ((k, t) :: fs).lookup k' = fs.lookup k' := by
  rw [List.lookup_cons]
  simp [beq_eq_false_iff_ne.2 h]

/-- Inserting a field replaces the field of its name and leaves the others. -/
theorem lookup_insertField (k : String) (t : Bson) (k' : String) :
    ∀ fs : List (String × Bson),
      (insertField k t fs).lookup k' = if k' = k then some t else fs.lookup k'
  | [] => by
    rw [insertField]
    by_cases h : k' = k
    · subst h
      simp [List.lookup_cons_self]
    · simp [lookup_cons_ne h, h]
  | (k₁, t₁) :: fs => by
    rw [insertField]
    by_cases h : k' = k
    · subst h
      split
      · simp [List.lookup_cons_self]
      · split
        · simp [List.lookup_cons_self]
        · rename_i heq
          rw [lookup_cons_ne heq, lookup_insertField k' t k' fs, if_pos rfl, if_pos rfl]
    · rw [if_neg h]
      split
      · rw [lookup_cons_ne h]
      · split
        · rename_i heq
          subst heq
          rw [lookup_cons_ne h, lookup_cons_ne h]
        · rw [List.lookup_cons, List.lookup_cons, lookup_insertField k t k' fs, if_neg h]

/-- A field of a document naming each field once is found under its name after inserting
the fields of the document, each under its own name. -/
theorem lookup_foldl_insertField (g : String → Bson → Bson) (k : String) :
    ∀ {ys : List (String × Bson)}, (ys.map (·.1)).Nodup → ∀ acc : List (String × Bson),
      (ys.foldl (fun acc p => insertField p.1 (g p.1 p.2) acc) acc).lookup k =
        (ys.lookup k).elim (acc.lookup k) fun u => some (g k u)
  | [], _, acc => rfl
  | (k₁, u₁) :: ys, hk, acc => by
    rw [List.map_cons, List.nodup_cons] at hk
    rw [List.foldl_cons, lookup_foldl_insertField g k hk.2, lookup_insertField]
    by_cases h : k = k₁
    · subst h
      have hnone : ys.lookup k = none :=
        List.lookup_eq_none_iff.2 fun p hp => bne_iff_ne.2 fun heq => hk.1 (by
          rw [heq]
          simpa using List.mem_map_of_mem (f := fun q : String × Bson => q.1) hp)
      simp [hnone, List.lookup_cons_self]
    · simp [h, lookup_cons_ne h]

theorem mem_of_lookup_eq_some {fs : List (String × Bson)} {k : String} {t : Bson}
    (h : fs.lookup k = some t) : (k, t) ∈ fs := by
  obtain ⟨l₁, l₂, rfl, -⟩ := List.lookup_eq_some_iff.1 h
  simp

/-! ### The merge is an upper bound -/

theorem alternative_of_mem {ts : List Bson} {t : Bson} (ht : t ∈ ts) (hu : t.isUnion = false) :
    t ∈ alternatives ts := by
  have hself := alternatives_singleton hu
  simp only [alternatives, List.flatMap_cons, List.flatMap_nil, List.append_nil] at hself
  refine List.mem_flatMap.2 ⟨t, ht, ?_⟩
  rw [hself]
  exact List.mem_singleton_self t

theorem alternative_of_mem_anyOf {ts ms : List Bson} {y : Bson} (h : .anyOf ms ∈ ts)
    (hy : y ∈ ms) : y ∈ alternatives ts :=
  List.mem_flatMap.2 ⟨.anyOf ms, h, hy⟩

/-- A type given to a union fits the union, when it is well formed and null is explicit in
it. -/
theorem assignable_union_of_given {ts : List Bson} {t : Bson} (ht : t ∈ ts)
    (hw : wellFormed t = true) (he : explicitNull t = true) : assignable t (union ts) = true := by
  cases hu : t.isUnion with
  | false => exact assignable_union_of_alternative (alternative_of_mem ht hu) hu hw he
  | true =>
    obtain ⟨ms, rfl⟩ : ∃ ms, t = .anyOf ms := by
      cases t <;> simp_all [isUnion]
    exact assignable_union_of_subset (fun y hy => alternative_of_mem_anyOf ht hy) hw he

/-- Each of two well-formed types in which null is explicit fits their merge. -/
theorem assignable_merge (a b : Bson) : wellFormed a = true → wellFormed b = true →
    explicitNull a = true → explicitNull b = true →
    assignable a (merge a b) = true ∧ assignable b (merge a b) = true := by
  induction a, b using merge.induct with
  | case1 xs ys ih =>
    -- documents: each field fits its merge, or itself where the other document lacks it
    intro hwa hwb hea heb
    rw [wellFormed_object] at hwa hwb
    rw [explicitNull_object] at hea heb
    have hkx := nodup_keys_of_sorted hwa.1
    have hky := nodup_keys_of_sorted hwb.1
    rw [merge_object]
    constructor
    · refine assignable_object_iff.2 fun ⟨k, t⟩ hp => ?_
      have hxt := lookup_of_mem hkx hp
      rw [lookup_foldl_insertField _ k hky, hxt]
      cases hu : ys.lookup k with
      | none => exact ⟨t, rfl, assignable_of_erase_eq t (hwa.2 _ hp) (hea _ hp) t rfl⟩
      | some u =>
        have hu' := mem_of_lookup_eq_some hu
        refine ⟨merge t u, by simp [mergeField, hxt], ?_⟩
        exact (ih k u hu' k t hp (hwa.2 _ hp) (hwb.2 _ hu') (hea _ hp) (heb _ hu')).1
    · refine assignable_object_iff.2 fun ⟨k, u⟩ hp => ?_
      rw [lookup_foldl_insertField _ k hky, lookup_of_mem hky hp]
      cases ht : xs.lookup k with
      | none =>
        exact ⟨u, by simp [mergeField, ht], assignable_of_erase_eq u (hwb.2 _ hp) (heb _ hp) u rfl⟩
      | some t =>
        have ht' := mem_of_lookup_eq_some ht
        refine ⟨merge t u, by simp [mergeField, ht], ?_⟩
        exact (ih k u hp k t ht' (hwa.2 _ ht') (hwb.2 _ hp) (hea _ ht') (heb _ hp)).2
  | case2 x y ih =>
    intro hwa hwb hea heb
    rw [merge.eq_2, assignable.eq_13, assignable.eq_13]
    exact ih hwa hwb hea heb
  | case3 a b hobj harr hab =>
    -- equal types: the merge is the first, which the second fits as its erased form
    intro hwa hwb hea heb
    rw [merge.eq_3 a b hobj harr, if_pos hab]
    exact ⟨assignable_of_erase_eq a hwa hea a rfl,
      assignable_of_erase_eq b hwb heb a (erase_eq_of_beq a b hab).symm⟩
  | case4 a b hobj harr hab =>
    intro hwa hwb hea heb
    rw [merge.eq_3 a b hobj harr, if_neg hab]
    exact ⟨assignable_union_of_given List.mem_cons_self hwa hea,
      assignable_union_of_given (List.mem_cons_of_mem a List.mem_cons_self) hwb heb⟩

/-! ### Documents stay sorted -/

theorem mem_insertField {k : String} {t : Bson} {p : String × Bson} :
    ∀ {fs : List (String × Bson)}, p ∈ insertField k t fs → p = (k, t) ∨ p ∈ fs
  | [], h => by simpa [insertField] using h
  | (k', t') :: fs, h => by
    rw [insertField] at h
    split_ifs at h with hlt heq
    · rcases List.mem_cons.1 h with h | h
      · exact .inl h
      · exact .inr h
    · rcases List.mem_cons.1 h with h | h
      · exact .inl h
      · exact .inr (List.mem_cons_of_mem _ h)
    · rcases List.mem_cons.1 h with h | h
      · exact .inr (h ▸ List.mem_cons_self)
      · exact (mem_insertField h).imp id (List.mem_cons_of_mem _)

theorem sorted_insertField (k : String) (t : Bson) :
    ∀ {fs : List (String × Bson)}, fs.Pairwise (fun p q => p.1 < q.1) →
      (insertField k t fs).Pairwise (fun p q => p.1 < q.1)
  | [], _ => List.pairwise_singleton _ _
  | (k', t') :: fs, h => by
    rw [List.pairwise_cons] at h
    rw [insertField]
    split_ifs with hlt heq
    · refine List.Pairwise.cons (fun q hq => ?_) (List.Pairwise.cons h.1 h.2)
      rcases List.mem_cons.1 hq with rfl | hq
      · exact hlt
      · exact lt_trans hlt (h.1 q hq)
    · subst heq
      exact List.Pairwise.cons h.1 h.2
    · -- the new field goes after the head, whose name is smaller
      have hgt : k' < k := lt_of_le_of_ne (not_lt.1 hlt) (Ne.symm heq)
      refine List.Pairwise.cons (fun q hq => ?_) (sorted_insertField k t h.2)
      rcases mem_insertField hq with rfl | hq
      · exact hgt
      · exact h.1 q hq

theorem sorted_foldl_insertField (g : String → Bson → Bson) :
    ∀ (ys : List (String × Bson)) {acc : List (String × Bson)},
      acc.Pairwise (fun p q => p.1 < q.1) →
      (ys.foldl (fun acc p => insertField p.1 (g p.1 p.2) acc) acc).Pairwise
        (fun p q => p.1 < q.1)
  | [], _, h => h
  | _ :: ys, _, h => sorted_foldl_insertField g ys (sorted_insertField _ _ h)

theorem mem_foldl_insertField (g : String → Bson → Bson) {p : String × Bson} :
    ∀ (ys : List (String × Bson)) {acc : List (String × Bson)},
      p ∈ ys.foldl (fun acc q => insertField q.1 (g q.1 q.2) acc) acc →
      p ∈ acc ∨ ∃ q ∈ ys, p = (q.1, g q.1 q.2)
  | [], _, h => .inl h
  | q :: ys, _, h => by
    rcases mem_foldl_insertField g ys h with h | ⟨q', hq', rfl⟩
    · rcases mem_insertField h with rfl | h
      · exact .inr ⟨q, List.mem_cons_self, rfl⟩
      · exact .inl h
    · exact .inr ⟨q', List.mem_cons_of_mem _ hq', rfl⟩

/-- Two documents sorted by field name that agree on every field are the same. -/
theorem eq_of_sorted_of_lookup {fs gs : List (String × Bson)}
    (hf : fs.Pairwise (fun p q => p.1 < q.1)) (hg : gs.Pairwise (fun p q => p.1 < q.1))
    (h : ∀ k, fs.lookup k = gs.lookup k) : fs = gs := by
  have hkf := nodup_keys_of_sorted hf
  have hkg := nodup_keys_of_sorted hg
  have hmem : ∀ p, p ∈ fs ↔ p ∈ gs := fun ⟨k, _⟩ =>
    ⟨fun hp => mem_of_lookup_eq_some ((h k).symm.trans (lookup_of_mem hkf hp)),
      fun hp => mem_of_lookup_eq_some ((h k).trans (lookup_of_mem hkg hp))⟩
  have hperm : fs.Perm gs :=
    (List.perm_ext_iff_of_nodup (hkf.of_map _) (hkg.of_map _)).2 hmem
  refine hperm.eq_of_pairwise (fun p q _ _ hpq hqp => ?_) hf hg
  exact absurd (lt_trans hpq hqp) (lt_irrefl _)

/-! ### The merge is symmetric -/

mutual
/-- The types a merge may meet in a type: the type itself, and those of its element, its
fields and its members. A computed type counts as a whole, as the merge treats it. -/
def parts : Bson → List Bson
  | .array t => .array t :: parts t
  | .object fs => .object fs :: partsFields fs
  | .anyOf ms => .anyOf ms :: partsList ms
  | t => [t]

/-- The parts of each type of a list. -/
def partsList : List Bson → List Bson
  | [] => []
  | t :: ts => parts t ++ partsList ts

/-- The parts of each field type of a document. -/
def partsFields : List (String × Bson) → List Bson
  | [] => []
  | (_, t) :: fs => parts t ++ partsFields fs
end

theorem self_mem_parts (t : Bson) : t ∈ parts t := by
  cases t <;> simp [parts]

theorem parts_subset_partsList {ms : List Bson} {m : Bson} (hm : m ∈ ms) :
    parts m ⊆ partsList ms := by
  induction ms with
  | nil => cases hm
  | cons t ts ih =>
    rcases List.mem_cons.1 hm with rfl | hm
    · exact List.subset_append_left _ _
    · exact List.Subset.trans (ih hm) (List.subset_append_right _ _)

theorem parts_subset_partsFields {fs : List (String × Bson)} {k : String} {t : Bson}
    (ht : (k, t) ∈ fs) : parts t ⊆ partsFields fs := by
  induction fs with
  | nil => cases ht
  | cons p fs ih =>
    obtain ⟨k', t'⟩ := p
    rcases List.mem_cons.1 ht with h | ht
    · cases h
      exact List.subset_append_left _ _
    · exact List.Subset.trans (ih ht) (List.subset_append_right _ _)

/-- Each alternative a list offers is a part of one of its types. -/
theorem mem_parts_of_alternative {ts : List Bson} {x : Bson} (hx : x ∈ alternatives ts) :
    ∃ t ∈ ts, x ∈ parts t := by
  obtain ⟨t, ht, hxt⟩ := List.mem_flatMap.1 hx
  refine ⟨t, ht, ?_⟩
  cases t with
  | anyOf ms => exact List.mem_cons_of_mem _ (parts_subset_partsList hxt (self_mem_parts x))
  | _ =>
    rw [List.mem_singleton.1 hxt]
    exact self_mem_parts _

/-- The parts of the two field types the merge of two documents meets under one name are
parts of the documents. -/
theorem parts_fields_subset {xs ys : List (String × Bson)} {k k' : String} {t u : Bson}
    (ht : (k, t) ∈ xs) (hu : (k', u) ∈ ys) :
    ∀ x ∈ parts t ++ parts u, x ∈ parts (.object xs) ++ parts (.object ys) := by
  intro x hx
  rcases List.mem_append.1 hx with hx | hx
  · exact List.mem_append_left _ (List.mem_cons_of_mem _ (parts_subset_partsFields ht hx))
  · exact List.mem_append_right _ (List.mem_cons_of_mem _ (parts_subset_partsFields hu hx))

theorem parts_elements_subset {x y : Bson} :
    ∀ z ∈ parts x ++ parts y, z ∈ parts (.array x) ++ parts (.array y) := by
  intro z hz
  rcases List.mem_append.1 hz with hz | hz
  · exact List.mem_append_left _ (List.mem_cons_of_mem _ hz)
  · exact List.mem_append_right _ (List.mem_cons_of_mem _ hz)

theorem alternatives_pair_subset (a b : Bson) :
    ∀ x ∈ alternatives [a, b], x ∈ parts a ++ parts b := by
  intro x hx
  obtain ⟨t, ht, hxt⟩ := mem_parts_of_alternative hx
  rcases List.mem_pair.1 ht with rfl | rfl
  · exact List.mem_append_left _ hxt
  · exact List.mem_append_right _ hxt

/-- Types on which `==` is equality and which rank and text tell apart. A union of such
types does not depend on the order it meets them in. -/
structure Separated (ts : List Bson) : Prop where
  exact : ∀ x ∈ ts, ∀ y ∈ ts, (x == y) = true ↔ x = y
  keyed : ∀ x ∈ ts, ∀ y ∈ ts, x.rank = y.rank → x.display = y.display → x = y

theorem Separated.mono {ts ts' : List Bson} (h : Separated ts) (hsub : ∀ x ∈ ts', x ∈ ts) :
    Separated ts' :=
  ⟨fun x hx y hy => h.exact x (hsub x hx) y (hsub y hy),
    fun x hx y hy => h.keyed x (hsub x hx) y (hsub y hy)⟩

theorem union_pair_comm {a b : Bson} (h : Separated (parts a ++ parts b)) :
    union [a, b] = union [b, a] := by
  have hsep := h.mono (alternatives_pair_subset a b)
  have hsame : ∀ t, t ∈ alternatives [b, a] ↔ t ∈ alternatives [a, b] := fun t => by
    simp only [alternatives, List.flatMap_cons, List.flatMap_nil, List.append_nil,
      List.mem_append]
    exact or_comm
  unfold union
  rw [unionMembers_eq_of_alternatives hsame hsep.exact hsep.keyed]

/-- The merge does not depend on the order of its arguments, for well-formed types on whose
parts `==` is equality and which rank and text tell apart. -/
theorem merge_comm (a b : Bson) : wellFormed a = true → wellFormed b = true →
    Separated (parts a ++ parts b) → merge a b = merge b a := by
  induction a, b using merge.induct with
  | case1 xs ys ih =>
    -- both merges are sorted and agree on every field name
    intro hwa hwb hsep
    rw [wellFormed_object] at hwa hwb
    have hkx := nodup_keys_of_sorted hwa.1
    have hky := nodup_keys_of_sorted hwb.1
    rw [merge_object, merge_object]
    congr 1
    refine eq_of_sorted_of_lookup (sorted_foldl_insertField _ ys hwa.1)
      (sorted_foldl_insertField _ xs hwb.1) fun k => ?_
    rw [lookup_foldl_insertField _ k hky, lookup_foldl_insertField _ k hkx]
    cases hu : ys.lookup k with
    | none => cases xs.lookup k <;> simp [mergeField, hu]
    | some u =>
      cases ht : xs.lookup k with
      | none => simp [mergeField, ht]
      | some t =>
        have hu' := mem_of_lookup_eq_some hu
        have ht' := mem_of_lookup_eq_some ht
        simp only [Option.elim, mergeField, ht, hu]
        rw [ih k u hu' k t ht' (hwa.2 _ ht') (hwb.2 _ hu')
          (hsep.mono (parts_fields_subset ht' hu'))]
  | case2 x y ih =>
    intro hwa hwb hsep
    rw [merge.eq_2, merge.eq_2, ih hwa hwb (hsep.mono parts_elements_subset)]
  | case3 a b hobj harr hab =>
    intro _ _ hsep
    obtain rfl := (hsep.exact a (List.mem_append_left _ (self_mem_parts a)) b
      (List.mem_append_right _ (self_mem_parts b))).1 hab
    rfl
  | case4 a b hobj harr hab =>
    intro _ _ hsep
    have ha := List.mem_append_left (parts b) (self_mem_parts a)
    have hb := List.mem_append_right (parts a) (self_mem_parts b)
    have hba : ¬(b == a) = true := fun h => by
      obtain rfl := (hsep.exact b hb a ha).1 h
      exact hab ((hsep.exact b hb b hb).2 rfl)
    rw [merge.eq_3 a b hobj harr, if_neg hab,
      merge.eq_3 b a (fun ys xs hb ha => hobj xs ys ha hb) (fun y x hb ha => harr x y ha hb),
      if_neg hba, union_pair_comm hsep]

/-! ### Equality holds of the merge itself -/

theorem beqList_self : ∀ {ms : List Bson}, (∀ m ∈ ms, (m == m) = true) → Bson.beqList ms ms = true
  | [], _ => by simp only [Bson.beqList]
  | m :: ms, h => by
    simp only [Bson.beqList, Bool.and_eq_true]
    exact ⟨h m List.mem_cons_self, beqList_self fun x hx => h x (List.mem_cons_of_mem _ hx)⟩

theorem beqFields_self :
    ∀ {fs : List (String × Bson)}, (∀ p ∈ fs, (p.2 == p.2) = true) → Bson.beqFields fs fs = true
  | [], _ => by simp only [Bson.beqFields]
  | (k, t) :: fs, h => by
    simp only [Bson.beqFields, beq_self_eq_true, Bool.true_and, Bool.and_eq_true]
    exact ⟨h (k, t) List.mem_cons_self,
      beqFields_self fun p hp => h p (List.mem_cons_of_mem _ hp)⟩

/-- The union of types equal to themselves is equal to itself. -/
theorem beq_self_union {ts : List Bson} (h : ∀ x ∈ alternatives ts, (x == x) = true) :
    (union ts == union ts) = true := by
  have hm : ∀ m ∈ unionMembers ts, (m == m) = true := fun m hm => h m (mem_alternatives_of_mem hm)
  unfold union
  split
  next => simp only [BEq.beq, Bson.beq]
  next m heq => exact hm m (by simp [heq])
  next =>
    change Bson.beq (.anyOf _) (.anyOf _) = true
    simp only [Bson.beq]
    exact beqList_self hm

/-- The merge of two types is equal to itself when their parts are: `==` may fail to be
reflexive only on the expressions of computed types. -/
theorem beq_self_merge (a b : Bson) :
    (∀ x ∈ parts a ++ parts b, (x == x) = true) → (merge a b == merge a b) = true := by
  induction a, b using merge.induct with
  | case1 xs ys ih =>
    -- each field of the merge is a field of one document or the merge of two
    intro h
    rw [merge_object]
    change Bson.beq (.object _) (.object _) = true
    simp only [Bson.beq]
    refine beqFields_self fun p hp => ?_
    rcases mem_foldl_insertField _ ys hp with hp | ⟨⟨k, u⟩, hu, rfl⟩
    · exact h p.2 (List.mem_append_left _
        (List.mem_cons_of_mem _ (parts_subset_partsFields hp (self_mem_parts _))))
    · simp only [mergeField]
      cases ht : xs.lookup k with
      | none =>
        exact h u (List.mem_append_right _
          (List.mem_cons_of_mem _ (parts_subset_partsFields hu (self_mem_parts _))))
      | some t =>
        have ht' := mem_of_lookup_eq_some ht
        exact ih k u hu k t ht' fun x hx => h x (parts_fields_subset ht' hu x hx)
  | case2 x y ih =>
    intro h
    rw [merge.eq_2]
    change Bson.beq (.array _) (.array _) = true
    simp only [Bson.beq]
    exact ih fun z hz => h z (parts_elements_subset z hz)
  | case3 a b hobj harr hab =>
    intro h
    rw [merge.eq_3 a b hobj harr, if_pos hab]
    exact h a (List.mem_append_left _ (self_mem_parts a))
  | case4 a b hobj harr hab =>
    intro h
    rw [merge.eq_3 a b hobj harr, if_neg hab]
    exact beq_self_union fun x hx => h x (alternatives_pair_subset a b x hx)

/-! ### Main statement -/

/-- The merge of two well-formed types is an upper bound of both when null is explicit in
them, and it does not depend on their order when `==` is equality on their parts and rank
and text tell those apart. -/
theorem merge_bound_and_symmetric (a b : Bson) (hwa : wellFormed a = true)
    (hwb : wellFormed b = true) :
    (explicitNull a = true → explicitNull b = true →
      assignable a (merge a b) = true ∧ assignable b (merge a b) = true) ∧
    (Separated (parts a ++ parts b) → (merge a b == merge b a) = true) := by
  refine ⟨assignable_merge a b hwa hwb, fun hsep => ?_⟩
  rw [← merge_comm a b hwa hwb hsep]
  exact beq_self_merge a b fun x hx => (hsep.exact x hx x hx).2 rfl

theorem merge_bound_and_symmetric_documents :
    wellFormed (.object [("n", .int32)]) = true ∧ wellFormed (.object [("n", .string)]) = true ∧
    explicitNull (.object [("n", .int32)]) = true ∧
    explicitNull (.object [("n", .string)]) = true ∧
    Separated (parts (.object [("n", .int32)]) ++ parts (.object [("n", .string)])) ∧
    (assignable (.object [("n", .int32)])
        (merge (.object [("n", .int32)]) (.object [("n", .string)])) = true ∧
      assignable (.object [("n", .string)])
        (merge (.object [("n", .int32)]) (.object [("n", .string)])) = true) ∧
    (merge (.object [("n", .int32)]) (.object [("n", .string)]) ==
      merge (.object [("n", .string)]) (.object [("n", .int32)])) = true := by
  have hwa : wellFormed (.object [("n", .int32)]) = true := by decide
  have hwb : wellFormed (.object [("n", .string)]) = true := by decide
  have hea : explicitNull (.object [("n", .int32)]) = true := by decide
  have heb : explicitNull (.object [("n", .string)]) = true := by decide
  have hsep : Separated (parts (.object [("n", .int32)]) ++ parts (.object [("n", .string)])) := by
    constructor
    · simp [parts, partsFields, BEq.beq, Bson.beq, Bson.beqFields]
    · simp [parts, partsFields, rank, Bson.display, Bson.displayFields]
  exact ⟨hwa, hwb, hea, heb, hsep, (merge_bound_and_symmetric _ _ hwa hwb).1 hea heb,
    (merge_bound_and_symmetric _ _ hwa hwb).2 hsep⟩

/-- Two enums of one name have one rank and one text, so their merge keeps them in the order
they are given. -/
theorem merge_enumerations_of_name {ms ms' : List String} (n : String) (h : ms ≠ ms') :
    merge (.enumeration ms (some n)) (.enumeration ms' (some n)) =
      .anyOf [.enumeration ms (some n), .enumeration ms' (some n)] := by
  have hne : (Bson.enumeration ms (some n) == .enumeration ms' (some n)) = false := by
    change Bson.beq _ _ = false
    simp [Bson.beq, h]
  have hle := memberLe_of_key (a := .enumeration ms (some n)) (b := .enumeration ms' (some n))
    rfl rfl
  rw [merge]
  · rw [if_neg (by simp [hne]), union, unionMembers_of_canonical
      ⟨List.pairwise_pair.2 hne, by simp [isUnion], List.pairwise_pair.2 hle⟩]
  all_goals simp

/-- The merge is neither an upper bound nor symmetric without its hypotheses: a computed null
merged with `string` gives a union without null, which the computed null, fitting as null
does, does not fit; two enums of one name merge into a union in the order they are given. -/
theorem merge_not_bound_nor_symmetric :
    assignable (.computed .null erasedExpression)
      (merge (.computed .null erasedExpression) .string) = false ∧
    (merge (.enumeration ["A"] (some "K")) (.enumeration ["B"] (some "K")) ==
      merge (.enumeration ["B"] (some "K")) (.enumeration ["A"] (some "K"))) = false := by
  have hnull : merge (.computed .null erasedExpression) .string =
      .anyOf [.string, .computed .null erasedExpression] := by
    rw [merge]
    · have hne : (Bson.computed .null erasedExpression == Bson.string) = false := by
        simp [BEq.beq, Bson.beq]
      have hsep : Separated (parts (.computed .null erasedExpression) ++ parts .string) := by
        constructor
        · simp [parts, BEq.beq, Bson.beq, Node.beq, Node.beqComponents, erasedExpression]
        · simp [parts, rank]
      rw [if_neg (by simp [hne]), union_pair_comm hsep, union,
        unionMembers_of_canonical ⟨List.pairwise_pair.2 (by decide +kernel), by decide, by decide⟩]
    all_goals simp
  refine ⟨?_, ?_⟩
  · rw [hnull, assignable_computed_left, assignable_null]
    simp [isNullable, hasNull, BEq.beq, Bson.beq]
  · rw [merge_enumerations_of_name "K" (by simp), merge_enumerations_of_name "K" (by simp)]
    simp only [BEq.beq, Bson.beq, Bson.beqList]
    decide

end Bson

end QueryScope
