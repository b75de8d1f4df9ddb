/-!
# Keyed lists

The state of an analysis session keeps its tables as association lists with unique keys:
setting a key replaces its value in place, or adds the key at the end. Looking a key up
after setting it finds the new value, and other keys keep theirs; both operations keep the
keys unique.
-/

namespace QueryScope.Keyed

variable {κ β : Type} [BEq κ]

/-- Set the value of a key. -/
def set (k : κ) (v : β) : List (κ × β) → List (κ × β)
  | [] => [(k, v)]
  | (k', v') :: rest => if k' == k then (k, v) :: rest else (k', v') :: set k v rest

/-- Remove a key. -/
def erase (k : κ) (xs : List (κ × β)) : List (κ × β) := xs.filter fun e => !(e.1 == k)

theorem lookup_set [LawfulBEq κ] (k : κ) (v : β) (xs : List (κ × β)) :
    (set k v xs).lookup k = some v := by
  induction xs with
  | nil => simp [set]
  | cons e rest ih =>
    obtain ⟨k', v'⟩ := e
    by_cases h : k' = k
    · subst h; simp [set]
    · have h' : (k' == k) = false := beq_false_of_ne h
      have h'' : (k == k') = false := beq_false_of_ne (Ne.symm h)
      simp [set, h', List.lookup_cons, h'', ih]

theorem lookup_erase [LawfulBEq κ] (k : κ) (xs : List (κ × β)) : (erase k xs).lookup k = none := by
  induction xs with
  | nil => rfl
  | cons e rest ih =>
    obtain ⟨k', v'⟩ := e
    by_cases h : k' = k
    · subst h; simpa [erase] using ih
    · have h'' : (k == k') = false := beq_false_of_ne (Ne.symm h)
      simp only [erase, List.filter_cons] at ih ⊢
      simp [h, List.lookup_cons, h'', ih]

theorem lookup_set_of_ne [LawfulBEq κ] {k k' : κ} (v : β) (xs : List (κ × β)) (h : k' ≠ k) :
    (set k v xs).lookup k' = xs.lookup k' := by
  induction xs with
  | nil => simp [set, List.lookup_cons, beq_false_of_ne h]
  | cons e rest ih =>
    obtain ⟨k'', v''⟩ := e
    by_cases hk : k'' = k
    · subst hk
      simp [set, List.lookup_cons, beq_false_of_ne h]
    · simp only [set, beq_false_of_ne hk, Bool.false_eq_true, ↓reduceIte, List.lookup_cons, ih]

/-- Setting a key changes the look-up of that key alone. -/
theorem lookup_set_eq_ite [LawfulBEq κ] (k k' : κ) (v : β) (xs : List (κ × β)) :
    (set k v xs).lookup k' = if k' == k then some v else xs.lookup k' := by
  by_cases h : k' = k
  · subst h
    simp [lookup_set]
  · simp [beq_false_of_ne h, lookup_set_of_ne v xs h]

theorem lookup_erase_of_ne [LawfulBEq κ] {k k' : κ} (xs : List (κ × β)) (h : k' ≠ k) :
    (erase k xs).lookup k' = xs.lookup k' := by
  induction xs with
  | nil => rfl
  | cons e rest ih =>
    obtain ⟨k'', v''⟩ := e
    simp only [erase, List.filter_cons] at ih ⊢
    by_cases hk : k'' = k
    · subst hk
      simp [List.lookup_cons, beq_false_of_ne h, ih]
    · simp [hk, List.lookup_cons, ih]

/-- Erasing a key changes the look-up of that key alone. -/
theorem lookup_erase_eq_ite [LawfulBEq κ] (k k' : κ) (xs : List (κ × β)) :
    (erase k xs).lookup k' = if k' == k then none else xs.lookup k' := by
  by_cases h : k' = k
  · subst h
    simp [lookup_erase]
  · simp [beq_false_of_ne h, lookup_erase_of_ne xs h]

/-- Setting keys one after the other to the same value. -/
theorem lookup_foldl_set [LawfulBEq κ] (v : β) (ks : List κ) (xs : List (κ × β)) (k : κ) :
    (ks.foldl (fun ys k' => set k' v ys) xs).lookup k = if k ∈ ks then some v else xs.lookup k := by
  induction ks generalizing xs with
  | nil => simp
  | cons k' rest ih =>
    rw [List.foldl_cons, ih, lookup_set_eq_ite]
    by_cases hr : k ∈ rest
    · simp [hr]
    · by_cases h : k = k' <;> simp [hr, h]

/-! ### Unique keys -/

/-- The keys after setting one: the same keys, or the new key at the end. -/
theorem keys_set [LawfulBEq κ] (k : κ) (v : β) (xs : List (κ × β)) :
    (set k v xs).map (·.1) = if k ∈ xs.map (·.1) then xs.map (·.1) else xs.map (·.1) ++ [k] := by
  induction xs with
  | nil => simp [set]
  | cons e rest ih =>
    obtain ⟨k'', v''⟩ := e
    by_cases hk : k'' = k
    · subst hk
      simp [set]
    · simp only [set, beq_false_of_ne hk, Bool.false_eq_true, ↓reduceIte, List.map_cons,
        List.mem_cons, ih]
      by_cases hm : k ∈ rest.map (·.1)
      · simp [hm]
      · simp [hm, Ne.symm hk]

theorem nodup_keys_set [LawfulBEq κ] (k : κ) (v : β) {xs : List (κ × β)}
    (h : (xs.map (·.1)).Nodup) : ((set k v xs).map (·.1)).Nodup := by
  rw [keys_set]
  split
  · exact h
  · next hm =>
    refine List.nodup_append.2 ⟨h, by simp, ?_⟩
    rintro a ha b hb rfl
    simp only [List.mem_singleton] at hb
    exact hm (hb ▸ ha)

theorem nodup_keys_erase (k : κ) {xs : List (κ × β)} (h : (xs.map (·.1)).Nodup) :
    ((erase k xs).map (·.1)).Nodup :=
  h.sublist (List.Sublist.map _ List.filter_sublist)

/-- With unique keys, a look-up finds exactly the entries of the list. -/
theorem lookup_eq_some_iff_mem [LawfulBEq κ] {xs : List (κ × β)} (h : (xs.map (·.1)).Nodup)
    {k : κ} {v : β} : xs.lookup k = some v ↔ (k, v) ∈ xs := by
  induction xs with
  | nil => simp
  | cons e rest ih =>
    obtain ⟨k', v'⟩ := e
    simp only [List.map_cons, List.nodup_cons, List.mem_map] at h
    by_cases hk : k = k'
    · subst hk
      have hfresh : ∀ w, (k, w) ∉ rest := fun w hw => h.1 ⟨(k, w), hw, rfl⟩
      simp only [List.lookup_cons, beq_self_eq_true, Option.some.injEq, List.mem_cons,
        Prod.mk.injEq, true_and]
      exact ⟨fun hv => Or.inl hv.symm, fun hv => hv.elim Eq.symm (fun hr => (hfresh v hr).elim)⟩
    · simp [List.lookup_cons, beq_false_of_ne hk, hk, ih h.2]

end QueryScope.Keyed
