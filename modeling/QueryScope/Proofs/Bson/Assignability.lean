import Mathlib.Data.List.Nodup
import QueryScope.Bson.Merge
import QueryScope.Proofs.Bson.Canonical
/-!
# Assignability of BSON types

`Bson.assignable v f` says whether a value of type `v` may be stored in a field of type `f`.
Its rules are read here one shape at a time, and its laws follow from them:

* a computed type fits, and is fitted, as its base (`assignable_base`);
* null fits exactly the types that admit null (`assignable_null`);
* a union field takes a value that is neither a union nor computed exactly when one of its
  members does, except null, which it takes only when null itself is a member
  (`assignable_union_iff`), so `string | any` rejects null though `any` takes it;
* a union field takes what one of its members takes, provided it holds null when that member
  admits null (`assignable_anyOf_of_mem`).

Main statement (`assignable_self_and_nullable`): a *regular* type fits itself and its nullable
form. A type is regular when every union in it has a member, no two equal members, and null
among its members when one of them admits null, and every document in it names each field
once. The unions the library builds have distinct members and documents name each field once;
the other two conditions cannot be dropped: an empty union, or a union holding a computed null
but not null itself, does not fit itself (`assignable_self_fails`).
-/

namespace QueryScope

namespace Bson

/-! ### The rules, one shape at a time -/

theorem assignable_computed_left (b f : Bson) (e : Node) :
    assignable (.computed b e) f = assignable b f :=
  assignable.eq_1 f b e

theorem assignable_computed_right {v : Bson} (hv : ∀ b e, v ≠ .computed b e) (b : Bson)
    (e : Node) : assignable v (.computed b e) = assignable v b :=
  assignable.eq_2 v b e hv

theorem base_ne_computed : ∀ (t b : Bson) (e : Node), t.base ≠ .computed b e
  | .computed t _, b, e => by rw [base]; exact base_ne_computed t b e
  | .null, _, _ | .boolean, _, _ | .int32, _, _ | .int64, _, _ | .double, _, _
  | .decimal128, _, _ | .string, _, _ | .objectId, _, _ | .uuid, _, _ | .date, _, _
  | .array _, _, _ | .object _, _, _ | .enumeration _ _, _, _ | .anyOf _, _, _
  | .any, _, _ => by simp [base]

theorem assignable_base_left : ∀ v f : Bson, assignable v f = assignable v.base f
  | .computed b e, f => by rw [assignable_computed_left, assignable_base_left b f, base]
  | .null, _ | .boolean, _ | .int32, _ | .int64, _ | .double, _ | .decimal128, _ | .string, _
  | .objectId, _ | .uuid, _ | .date, _ | .array _, _ | .object _, _ | .enumeration _ _, _
  | .anyOf _, _ | .any, _ => rfl

theorem assignable_base_right {v : Bson} (hv : ∀ b e, v ≠ .computed b e) :
    ∀ f : Bson, assignable v f = assignable v f.base
  | .computed b e => by rw [assignable_computed_right hv, assignable_base_right hv b, base]
  | .null | .boolean | .int32 | .int64 | .double | .decimal128 | .string | .objectId | .uuid
  | .date | .array _ | .object _ | .enumeration _ _ | .anyOf _ | .any => rfl

/-- A computed type fits, and is fitted, as its base. -/
theorem assignable_base (v f : Bson) : assignable v f = assignable v.base f.base := by
  rw [assignable_base_left, assignable_base_right (base_ne_computed v)]

/-- Null fits exactly the types that admit null. -/
theorem assignable_null (f : Bson) : assignable .null f = isNullable f := by
  cases f with
  | computed b e => rw [assignable_computed_right (by simp), assignable_null b, isNullable]
  | null => exact assignable.eq_5
  | anyOf ms => exact assignable.eq_6 ms
  | any => exact assignable.eq_4 .null (by simp) (by simp)
  | _ => rw [assignable.eq_7] <;> simp [isNullable]

theorem assignable_any_left (f : Bson) : assignable .any f = true := by
  cases f with
  | computed b e => rw [assignable_computed_right (by simp), assignable_any_left b]
  | _ => exact assignable.eq_3 _ (by simp)

theorem assignable_any_right (v : Bson) : assignable v .any = true := by
  rw [assignable_base]
  by_cases ha : v.base = .any
  · rw [ha, assignable_any_left]
  · exact assignable.eq_4 _ (base_ne_computed v) ha

/-- A union field takes a value that is neither null, `any`, a union nor computed exactly
when one of its members does. -/
theorem assignable_anyOf_right {v : Bson} (hc : ∀ b e, v ≠ .computed b e) (ha : v ≠ .any)
    (hn : v ≠ .null) (hu : ∀ ms, v ≠ .anyOf ms) (ms : List Bson) :
    assignable v (.anyOf ms) = ms.any (assignable v ·) := by
  rw [assignable.eq_10 v ms hc ha hn hu]
  simp

theorem eq_null_of_beq_null : ∀ {m : Bson}, (m == .null) = true → m = .null
  | .null, _ => rfl
  | .boolean, h | .int32, h | .int64, h | .double, h | .decimal128, h | .string, h
  | .objectId, h | .uuid, h | .date, h | .array _, h | .object _, h | .enumeration _ _, h
  | .anyOf _, h | .computed _ _, h | .any, h => by simp [BEq.beq, Bson.beq] at h

theorem beq_null_self : (Bson.null == Bson.null) = true := by
  simp [BEq.beq, Bson.beq]

/-- A union admits null exactly when null is one of its members. -/
theorem hasNull_iff_mem {ms : List Bson} : hasNull ms = true ↔ .null ∈ ms := by
  simp only [hasNull, List.any_eq_true]
  constructor
  · rintro ⟨m, hm, h⟩
    rwa [eq_null_of_beq_null h] at hm
  · intro h
    exact ⟨.null, h, beq_null_self⟩

/-- A union field takes a value that is neither a union nor computed exactly when one of its
members does, except null, which it takes only when null is a member. -/
theorem assignable_union_iff {v : Bson} {ms : List Bson} (hu : ∀ ns, v ≠ .anyOf ns)
    (hc : ∀ b e, v ≠ .computed b e) (hne : ms ≠ []) :
    assignable v (.anyOf ms) = true ↔
      (∃ m ∈ ms, assignable v m = true) ∧ (v = .null → hasNull ms = true) := by
  by_cases hn : v = .null
  · -- null fits a union only by being one of its members
    subst hn
    rw [assignable.eq_6]
    constructor
    · intro h
      exact ⟨⟨.null, hasNull_iff_mem.1 h, assignable.eq_5⟩, fun _ => h⟩
    · exact fun h => h.2 rfl
  by_cases ha : v = .any
  · subst ha
    simpa [assignable_any_left] using List.exists_mem_of_ne_nil ms hne
  · rw [assignable_anyOf_right hc ha hn hu]
    simp [hn]

theorem assignable_union_iff_null_string_or_any :
    ((∀ ns, Bson.null ≠ .anyOf ns) ∧ (∀ b e, Bson.null ≠ .computed b e) ∧
      [Bson.string, .any] ≠ []) ∧
    (assignable .null (.anyOf [.string, .any]) = true ↔
      (∃ m ∈ [Bson.string, .any], assignable .null m = true) ∧
        (Bson.null = .null → hasNull [.string, .any] = true)) :=
  ⟨⟨by simp, by simp, by simp⟩, assignable_union_iff (by simp) (by simp) (by simp)⟩

/-- Merging `string` with `any` gives their union, which has a member that takes null and yet
does not take null itself. -/
theorem null_misfits_merge_string_any :
    merge .string .any = .anyOf [.string, .any] ∧
    ¬ (assignable .null (.anyOf [.string, .any]) = true ↔
      ∃ m ∈ [Bson.string, .any], assignable .null m = true) := by
  constructor
  · rw [merge]
    · have hne : (Bson.string == Bson.any) = false := by simp [BEq.beq, Bson.beq]
      rw [if_neg (by simp [hne]), union,
        unionMembers_of_canonical ⟨List.pairwise_pair.2 (by decide +kernel), by decide, by decide⟩]
    all_goals simp
  · rw [assignable.eq_6]
    simp [assignable_null, isNullable, hasNull, BEq.beq, Bson.beq]

/-! ### A union field takes what its members take -/

theorem isNullable_base : ∀ t : Bson, isNullable t.base = isNullable t
  | .computed b _ => by rw [base, isNullable_base b, isNullable]
  | .null | .boolean | .int32 | .int64 | .double | .decimal128 | .string | .objectId | .uuid
  | .date | .array _ | .object _ | .enumeration _ _ | .anyOf _ | .any => rfl

theorem base_base : ∀ t : Bson, t.base.base = t.base
  | .computed b _ => by rw [base, base_base b]
  | .null | .boolean | .int32 | .int64 | .double | .decimal128 | .string | .objectId | .uuid
  | .date | .array _ | .object _ | .enumeration _ _ | .anyOf _ | .any => rfl

theorem sizeOf_base_le : ∀ t : Bson, sizeOf t.base ≤ sizeOf t
  | .computed b e => by
    rw [base]
    have := sizeOf_base_le b
    simp only [Bson.computed.sizeOf_spec]
    omega
  | .null | .boolean | .int32 | .int64 | .double | .decimal128 | .string | .objectId | .uuid
  | .date | .array _ | .object _ | .enumeration _ _ | .anyOf _ | .any => le_refl _

theorem nonNull_eq_nil_iff {ms : List Bson} : nonNull ms = [] ↔ ∀ m ∈ ms, (m == .null) = true := by
  simp [nonNull, List.filter_eq_nil_iff]

/-- A union value fits a type that is neither null, `any` nor computed as null does when it
has no member but null, and otherwise when each of its other members fits. -/
theorem assignable_anyOf_left {f : Bson} (hc : ∀ b e, f ≠ .computed b e) (ha : f ≠ .any)
    (hn : f ≠ .null) (ms : List Bson) :
    assignable (.anyOf ms) f =
      if nonNull ms = [] then isNullable f else (nonNull ms).all (assignable · f) := by
  rw [assignable.eq_9 f ms hc ha hn]
  split
  · rename_i h
    simp [h, assignable_null]
  · rename_i h
    rw [if_neg h]
    simp

/-- A union of nothing but null fits as null does. -/
theorem assignable_anyOf_of_nonNull_nil {ms : List Bson} (h : nonNull ms = []) :
    ∀ f : Bson, assignable (.anyOf ms) f = isNullable f
  | .computed b e => by
    rw [assignable_computed_right (by simp), assignable_anyOf_of_nonNull_nil h b, isNullable]
  | .null => by
    rw [assignable.eq_8, nonNull_eq_nil_iff.1 h |> List.all_eq_true.2]
    rfl
  | .any => assignable_any_right _
  | .boolean | .int32 | .int64 | .double | .decimal128 | .string | .objectId | .uuid | .date
  | .array _ | .object _ | .enumeration _ _ | .anyOf _ => by
    rw [assignable_anyOf_left (by simp) (by simp) (by simp), if_pos h]

/-- A union fits a type only when each of its members other than null does. -/
theorem assignable_of_mem_nonNull {vs : List Bson} {m x : Bson} (hne : nonNull vs ≠ [])
    (hx : x ∈ nonNull vs) (hv : assignable (.anyOf vs) m = true) : assignable x m = true := by
  rw [assignable_base] at hv
  simp only [base] at hv
  by_cases hma : m.base = .any
  · rw [assignable_base, hma, assignable_any_right]
  by_cases hmn : m.base = .null
  · rw [hmn, assignable.eq_8] at hv
    exact absurd (nonNull_eq_nil_iff.2 (List.all_eq_true.1 hv)) hne
  rw [assignable_anyOf_left (base_ne_computed m) hma hmn, if_neg hne] at hv
  rw [assignable_base, ← base_base m, ← assignable_base]
  exact List.all_eq_true.1 hv x hx

/-- A union field takes what one of its members takes, provided it holds null when that member
admits null. -/
theorem assignable_anyOf_of_mem {ms : List Bson} {m : Bson} (hm : m ∈ ms)
    (hnull : isNullable m = true → hasNull ms = true) (v : Bson)
    (hv : assignable v m = true) : assignable v (.anyOf ms) = true := by
  rw [assignable_base] at hv ⊢
  simp only [base] at ⊢
  have hvb := base_ne_computed v
  have hnull' : isNullable m.base = true → hasNull ms = true := by rw [isNullable_base]; exact hnull
  -- by the shape of the value under its computed wrappers
  by_cases hvn : v.base = .null
  · rw [hvn, assignable_null] at hv ⊢
    exact hnull' hv
  by_cases hva : v.base = .any
  · rw [hva]
    exact assignable_any_left _
  by_cases hvu : ∃ vs, v.base = .anyOf vs
  · obtain ⟨vs, hvs⟩ := hvu
    rw [hvs, assignable_anyOf_left (by simp) (by simp) (by simp)]
    rw [hvs] at hv
    split
    · -- a union of nothing but null: the member takes null
      rw [assignable_anyOf_of_nonNull_nil (by assumption)] at hv
      simpa [isNullable] using hnull' hv
    · rename_i hne
      refine List.all_eq_true.2 fun x hx => ?_
      -- each other member of the value fits the member, as the whole value does
      have hxm := assignable_of_mem_nonNull hne hx (by rw [assignable_base]; exact hv)
      exact assignable_anyOf_of_mem hm hnull x hxm
  · simp only [not_exists] at hvu
    rw [assignable_anyOf_right hvb hva hvn hvu, List.any_eq_true]
    exact ⟨m, hm, (assignable_base_right hvb m).trans hv⟩
termination_by sizeOf v
decreasing_by
  have h1 := List.sizeOf_lt_of_mem (List.mem_filter.1 hx).1
  have h2 := sizeOf_base_le v
  rw [hvs] at h2
  simp at h2
  omega

/-! ### Types that fit themselves -/

mutual
/-- Whether every union in a type has a member, no two equal members, and null among its
members when one of them admits null, and every document names each of its fields once. -/
def regular : Bson → Bool
  | .array t => regular t
  | .object fs => decide (fs.map Prod.fst).Nodup && regularFields fs
  | .anyOf ms =>
    !ms.isEmpty && decide (Distinct ms) && (hasNull ms || !ms.any isNullable) && regularList ms
  | .computed b _ => regular b
  | _ => true

/-- Whether every type of a list is regular. -/
def regularList : List Bson → Bool
  | [] => true
  | t :: ts => regular t && regularList ts

/-- Whether every field type of a document is regular. -/
def regularFields : List (String × Bson) → Bool
  | [] => true
  | (_, t) :: fs => regular t && regularFields fs
end

/-- In a document naming each field once, the field found under a name is the one of that
name. -/
theorem eq_of_mem_of_nodup_keys {fs : List (String × Bson)} (hk : (fs.map Prod.fst).Nodup)
    {k : String} {t e : Bson} (ht : (k, t) ∈ fs) (he : (k, e) ∈ fs) : t = e := by
  have := List.inj_on_of_nodup_map hk ht he rfl
  simp only [Prod.mk.injEq, true_and] at this
  exact this

/-- A document fits itself when each of its fields does and it names each field once. -/
theorem assignable_object_self {fs : List (String × Bson)} (hk : (fs.map Prod.fst).Nodup)
    (hself : ∀ p ∈ fs, assignable p.2 p.2 = true) : assignable (.object fs) (.object fs) = true := by
  rw [assignable.eq_11, List.all_eq_true]
  rintro ⟨⟨k, t⟩, hmem⟩ -
  dsimp only
  split
  · rename_i k' e he hfind
    have hkey := List.find?_some hfind
    simp only [beq_iff_eq] at hkey
    subst hkey
    obtain rfl := eq_of_mem_of_nodup_keys hk hmem he
    exact hself _ hmem
  · rename_i hfind
    exact absurd (List.find?_eq_none.1 hfind ⟨(k, t), hmem⟩ (List.mem_attach _ _)) (by simp)

/-- Some member of a union of which not every member is null is not null. -/
theorem exists_mem_nonNull {ms : List Bson} (h : nonNull ms ≠ []) :
    ∃ m ∈ ms, (m == .null) = false := by
  obtain ⟨m, hm⟩ := List.exists_mem_of_ne_nil _ h
  have := List.mem_filter.1 hm
  exact ⟨m, this.1, by simpa using this.2⟩

/-- A regular union fits itself: a member admitting null brings null along. -/
theorem assignable_anyOf_self {ms : List Bson} (hne : ms ≠ [])
    (hnull : (hasNull ms || !ms.any isNullable) = true)
    (hself : ∀ m ∈ ms, assignable m m = true) : assignable (.anyOf ms) (.anyOf ms) = true := by
  rw [assignable_anyOf_left (by simp) (by simp) (by simp)]
  split
  · rename_i h
    obtain ⟨m, hm⟩ := List.exists_mem_of_ne_nil ms hne
    exact List.any_eq_true.2 ⟨m, hm, nonNull_eq_nil_iff.1 h m hm⟩
  · refine List.all_eq_true.2 fun m hm => ?_
    have hm' := (List.mem_filter.1 hm).1
    refine assignable_anyOf_of_mem hm' (fun hn => ?_) m (hself m hm')
    simp only [Bool.or_eq_true, Bool.not_eq_true', List.any_eq_false] at hnull
    exact hnull.resolve_right fun h => absurd hn (by simpa using h m hm')

mutual
/-- A regular type fits itself. -/
theorem assignable_self : ∀ t : Bson, regular t = true → assignable t t = true
  | .array a, h => by
    rw [assignable.eq_13]
    exact assignable_self a h
  | .object fs, h => by
    simp only [regular, Bool.and_eq_true, decide_eq_true_eq] at h
    exact assignable_object_self h.1 (assignable_self_fields fs h.2)
  | .anyOf ms, h => by
    simp only [regular, Bool.and_eq_true, Bool.not_eq_true', List.isEmpty_eq_false_iff] at h
    exact assignable_anyOf_self h.1.1.1 h.1.2 (assignable_self_list ms h.2)
  | .computed b e, h => by
    rw [assignable_base, base, ← assignable_base]
    exact assignable_self b h
  | .null, _ => assignable.eq_5
  | .any, _ => assignable_any_left .any
  | .enumeration ms n, _ => by rw [assignable.eq_15]; simp
  | .boolean, _ | .int32, _ | .int64, _ | .double, _ | .decimal128, _ | .string, _
  | .objectId, _ | .uuid, _ | .date, _ => by
    rw [assignable.eq_20] <;> simp [BEq.beq, Bson.beq]

/-- Every member of a regular list fits itself. -/
theorem assignable_self_list :
    ∀ ms : List Bson, regularList ms = true → ∀ m ∈ ms, assignable m m = true
  | [], _ => by simp
  | t :: ts, h => by
    simp only [regularList, Bool.and_eq_true] at h
    intro m hm
    rcases List.mem_cons.1 hm with hmt | hm
    · rw [hmt]
      exact assignable_self t h.1
    · exact assignable_self_list ts h.2 m hm

/-- Every field type of a regular document fits itself. -/
theorem assignable_self_fields :
    ∀ fs : List (String × Bson), regularFields fs = true → ∀ p ∈ fs, assignable p.2 p.2 = true
  | [], _ => by simp
  | (k, t) :: fs, h => by
    simp only [regularFields, Bool.and_eq_true] at h
    intro p hp
    rcases List.mem_cons.1 hp with hpt | hp
    · rw [hpt]
      exact assignable_self t h.1
    · exact assignable_self_fields fs h.2 p hp
end

/-! ### A regular type fits its nullable form -/

theorem hasNull_unionMembers {ts : List Bson} (h : .null ∈ alternatives ts) :
    hasNull (unionMembers ts) = true := by
  rcases unionMembers_covers h with h | ⟨m, hm, hmn⟩
  · exact hasNull_iff_mem.2 h
  · rw [eq_null_of_beq_null hmn] at hm
    exact hasNull_iff_mem.2 hm

/-- A union with a member `m` is `m` itself when `m` is its only member, and otherwise the
union type of its members. -/
theorem union_of_mem {ts : List Bson} {m : Bson} (hm : m ∈ unionMembers ts) :
    (unionMembers ts = [m] ∧ union ts = m) ∨ union ts = .anyOf (unionMembers ts) := by
  rw [union]
  split
  next heq =>
    rw [heq] at hm
    cases hm
  next x heq =>
    rw [heq, List.mem_singleton] at hm
    subst hm
    exact .inl ⟨heq, rfl⟩
  next => exact .inr rfl

/-- The union of types offering null admits null. -/
theorem isNullable_union {ts : List Bson} (h : .null ∈ alternatives ts) :
    isNullable (union ts) = true := by
  have hn := hasNull_unionMembers h
  rcases union_of_mem (hasNull_iff_mem.1 hn) with ⟨-, hu⟩ | hu
  · rw [hu]
    rfl
  · rw [hu, isNullable]
    exact hn

/-- A type fits the union of a list when it fits one of the union's members, provided the
union holds null when that member admits null. -/
theorem assignable_union_of_mem {ts : List Bson} {m : Bson} (hm : m ∈ unionMembers ts)
    (hnull : isNullable m = true → hasNull (unionMembers ts) = true) (v : Bson)
    (hv : assignable v m = true) : assignable v (union ts) = true := by
  rcases union_of_mem hm with ⟨-, hu⟩ | hu
  · rwa [hu]
  · rw [hu]
    exact assignable_anyOf_of_mem hm hnull v hv

/-- A union with two different members is a union type. -/
theorem union_eq_anyOf {ts : List Bson} {a b : Bson} (ha : a ∈ unionMembers ts)
    (hb : b ∈ unionMembers ts) (hab : a ≠ b) : union ts = .anyOf (unionMembers ts) := by
  rcases union_of_mem ha with ⟨hone, -⟩ | hu
  · rw [hone, List.mem_singleton] at hb
    exact absurd hb.symm hab
  · exact hu

/-- The alternatives of the first of distinct alternatives are all members of the union. -/
theorem mem_unionMembers_of_head {t : Bson} {rest : List Bson} (hd : Distinct (alternatives [t]))
    {m : Bson} (hm : m ∈ alternatives [t]) : m ∈ unionMembers (t :: rest) := by
  rw [unionMembers, List.mem_mergeSort, collectMembers_eq, alternatives_cons, List.foldl_append,
    foldl_pushUnique_eq_append hd (by simp), List.nil_append]
  exact subset_foldl_pushUnique hm

/-- A regular type fits its nullable form. -/
theorem assignable_nullable {t : Bson} (h : regular t = true) :
    assignable t (nullable t) = true := by
  have hnull : Bson.null ∈ alternatives [t, .null] := by
    rw [alternatives_cons]
    simp [alternatives]
  have hN := hasNull_unionMembers hnull
  by_cases hu : ∃ ms, t = .anyOf ms
  · obtain ⟨ms, rfl⟩ := hu
    simp only [regular, Bool.and_eq_true, decide_eq_true_eq] at h
    have hd : Distinct (alternatives [.anyOf ms]) := by simpa [alternatives] using h.1.1.2
    have hmem : ∀ x ∈ ms, x ∈ unionMembers [.anyOf ms, .null] := fun x hx =>
      mem_unionMembers_of_head hd (by simpa [alternatives] using hx)
    by_cases hnn : nonNull ms = []
    · -- nothing but null: the union fits as null does, and null fits the nullable form
      rw [assignable_anyOf_of_nonNull_nil hnn]
      exact isNullable_union hnull
    · -- a member that is not null and a null member make the nullable form a union type
      obtain ⟨m, hm, hmn⟩ := exists_mem_nonNull hnn
      obtain ⟨y, hy, hyn⟩ := List.any_eq_true.1 hN
      have hmy : m ≠ y := by
        rintro rfl
        rw [hmn] at hyn
        cases hyn
      rw [nullable, union_eq_anyOf (hmem m hm) hy hmy,
        assignable_anyOf_left (by simp) (by simp) (by simp), if_neg hnn]
      refine List.all_eq_true.2 fun x hx => ?_
      have hx' := (List.mem_filter.1 hx).1
      exact assignable_anyOf_of_mem (hmem x hx') (fun _ => hN) x
        (assignable_self_list ms h.2 x hx')
  · simp only [not_exists] at hu
    have hflat : t.isUnion = false := by
      cases t <;> simp_all [isUnion]
    have ht : alternatives [t] = [t] := alternatives_eq_self (by simpa using hflat)
    have htU : t ∈ unionMembers [t, .null] :=
      mem_unionMembers_of_head (by rw [ht]; exact List.pairwise_singleton _ _)
        (by rw [ht]; exact List.mem_singleton_self t)
    exact assignable_union_of_mem htU (fun _ => hN) t (assignable_self t h)

/-- A regular type fits itself and fits its nullable form: no union in it is empty, and a
union with a member admitting null holds null itself. -/
theorem assignable_self_and_nullable {t : Bson} (h : regular t = true) :
    assignable t t = true ∧ assignable t (nullable t) = true :=
  ⟨assignable_self t h, assignable_nullable h⟩

theorem assignable_self_and_nullable_profile :
    regular (.object [("age", .anyOf [.null, .int32]), ("tags", .array .string)]) = true ∧
    assignable (.object [("age", .anyOf [.null, .int32]), ("tags", .array .string)])
      (.object [("age", .anyOf [.null, .int32]), ("tags", .array .string)]) = true ∧
    assignable (.object [("age", .anyOf [.null, .int32]), ("tags", .array .string)])
      (nullable (.object [("age", .anyOf [.null, .int32]), ("tags", .array .string)])) = true :=
  ⟨by decide +kernel, assignable_self_and_nullable (by decide +kernel)⟩

/-- Neither part holds of every type: the empty union, as a document's field type, fits
neither the document nor its nullable form, and a union holding a computed null but not null
itself does not fit itself. -/
theorem assignable_self_fails :
    assignable (.object [("a", .anyOf [])]) (.object [("a", .anyOf [])]) = false ∧
    assignable (.object [("a", .anyOf [])]) (nullable (.object [("a", .anyOf [])])) = false ∧
    assignable (.anyOf [.string, .computed .null (.mk .erased [])])
      (.anyOf [.string, .computed .null (.mk .erased [])]) = false := by
  have hempty : assignable (.anyOf []) (.anyOf []) = false := by
    rw [assignable_anyOf_of_nonNull_nil rfl]
    rfl
  have hobj : assignable (.object [("a", .anyOf [])]) (.object [("a", .anyOf [])]) = false := by
    rw [assignable.eq_11]
    simp [hempty]
  refine ⟨hobj, ?_, ?_⟩
  · -- the nullable form is the union of the document and null
    have hobjU : Bson.object [("a", .anyOf [])] ∈ unionMembers [.object [("a", .anyOf [])], .null] :=
      mem_unionMembers_of_head (by simp [alternatives, Distinct]) (by simp [alternatives])
    have hnullU : Bson.null ∈ unionMembers [.object [("a", .anyOf [])], .null] :=
      hasNull_iff_mem.1 (hasNull_unionMembers (by simp [alternatives]))
    rw [nullable, union_eq_anyOf hobjU hnullU (by simp),
      assignable_anyOf_right (by simp) (by simp) (by simp) (by simp), List.any_eq_false]
    intro x hx
    have hx' : x = .object [("a", .anyOf [])] ∨ x = .null := by
      simpa [alternatives] using mem_alternatives_of_mem hx
    rcases hx' with rfl | rfl
    · simp [hobj]
    · rw [assignable.eq_12] <;> simp
  · -- the computed null takes the union only as null does, and null is not a member
    have hnn : nonNull [.string, .computed .null (.mk .erased [])] =
        [.string, .computed .null (.mk .erased [])] := by
      simp [nonNull, BEq.beq, Bson.beq]
    rw [assignable_anyOf_left (by simp) (by simp) (by simp), if_neg (by rw [hnn]; simp), hnn]
    simp [assignable_computed_left, assignable.eq_6, hasNull, BEq.beq, Bson.beq]

end Bson

end QueryScope
