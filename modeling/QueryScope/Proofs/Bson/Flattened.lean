import QueryScope.Proofs.Bson.Canonical
/-!
# The flattened form of a type

`Bson.flatten` rebuilds every union inside arrays, documents and unions with `Bson.union`: the
members are flattened first, then collected, deduplicated and sorted, and a union left with
one member becomes that member (with none, `any`). Computed types and enums are not looked
into.

`Flattened` is the form this leaves: arrays and documents hold flattened types, and a union
has at least two members, none of them a union, pairwise distinct and sorted by rank and text
(`Canonical`), each flattened in turn.

Main statement (`Bson.flatten_idempotent`): for every type `t`, `flatten t` is `Flattened`,
and `flatten` leaves a flattened type as it is, so `flatten (flatten t) = flatten t`. The two
halves are `flattened_flatten` (by the recursion of `flatten`, with `flattened_union` for the
unions) and `flatten_eq_self` (by induction on the form, with `union_of_canonical`: a
canonical list of two or more members is the member list of its own union).
-/

namespace QueryScope

namespace Bson

/-- A type in the form `flatten` leaves: arrays and documents hold such types, and a union has
at least two canonical members, each in this form. Other types, computed types and enums
among them, are taken as they are. -/
inductive Flattened : Bson → Prop
  | array {t : Bson} : Flattened t → Flattened (.array t)
  | object {fs : List (String × Bson)} : (∀ f ∈ fs, Flattened f.2) → Flattened (.object fs)
  | anyOf {ms : List Bson} : 2 ≤ ms.length → Canonical ms → (∀ m ∈ ms, Flattened m) →
      Flattened (.anyOf ms)
  | leaf {t : Bson} : (∀ e, t ≠ .array e) → (∀ fs, t ≠ .object fs) → (∀ ms, t ≠ .anyOf ms) →
      Flattened t

/-! ### Flattening lists and fields -/

theorem flattenList_eq_map (ms : List Bson) : flattenList ms = ms.map flatten := by
  induction ms with
  | nil => rfl
  | cons m ms ih => rw [flattenList, ih, List.map_cons]

theorem flattenFields_eq_map (fs : List (String × Bson)) :
    flattenFields fs = fs.map fun f => (f.1, flatten f.2) := by
  induction fs with
  | nil => rfl
  | cons f fs ih => rw [flattenFields, ih, List.map_cons]

theorem flatten_anyOf (ms : List Bson) : flatten (.anyOf ms) = union (ms.map flatten) := by
  rw [flatten, flattenList_eq_map]

theorem flatten_object (fs : List (String × Bson)) :
    flatten (.object fs) = .object (fs.map fun f => (f.1, flatten f.2)) := by
  rw [flatten, flattenFields_eq_map]

/-! ### What a flattened type offers to a union -/

namespace Flattened

/-- The members of a flattened union are flattened. -/
theorem of_mem_anyOf {ms : List Bson} (h : Flattened (.anyOf ms)) {m : Bson} (hm : m ∈ ms) :
    Flattened m := by
  cases h with
  | anyOf _ _ hms => exact hms m hm
  | leaf _ _ hu => exact absurd rfl (hu ms)

/-- A flattened union has no union among its members. -/
theorem flat {t : Bson} (h : Flattened t) : t.flat = true := by
  cases h with
  | anyOf _ hc _ => simpa [Bson.flat] using hc.flat
  | leaf _ _ hu =>
    cases t with
    | anyOf ms => exact absurd rfl (hu ms)
    | _ => rfl
  | _ => rfl

end Flattened

/-- The alternatives of flattened types are flattened: a union gives its members, any other
type itself. -/
theorem flattened_of_mem_alternatives {ts : List Bson} (h : ∀ t ∈ ts, Flattened t) {a : Bson}
    (ha : a ∈ alternatives ts) : Flattened a := by
  obtain ⟨t, ht, hat⟩ := List.mem_flatMap.1 ha
  split at hat
  · next ms => exact (h _ ht).of_mem_anyOf hat
  · rw [List.mem_singleton.1 hat]
    exact h t ht

/-- The union of flattened types is flattened: `any` for no member, the member for one, and a
union of canonical flattened members otherwise. -/
theorem flattened_union {ts : List Bson} (h : ∀ t ∈ ts, Flattened t) : Flattened (union ts) := by
  have hmem : ∀ m ∈ unionMembers ts, Flattened m :=
    fun m hm => flattened_of_mem_alternatives h (mem_alternatives_of_mem hm)
  have hcanon : Canonical (unionMembers ts) := canonical_unionMembers fun t ht => (h t ht).flat
  rw [union]
  -- no member gives `any`, one member is taken as it is, more make a union
  cases hm : unionMembers ts with
  | nil => exact .leaf (fun _ h => by cases h) (fun _ h => by cases h) (fun _ h => by cases h)
  | cons m rest =>
    cases rest with
    | nil => exact hmem m (hm ▸ List.mem_singleton_self m)
    | cons m' rest => exact .anyOf (by simp) (hm ▸ hcanon) (hm ▸ hmem)

/-! ### Flattening reaches the form, and keeps it -/

/-- `flatten` always gives a flattened type. -/
theorem flattened_flatten (t : Bson) : Flattened (flatten t) := by
  -- by the recursion of `flatten`, through the members of unions and the fields of documents
  refine flatten.induct (fun t => Flattened (flatten t)) (fun ms => ∀ m ∈ ms, Flattened (flatten m))
    (fun fs => ∀ f ∈ fs, Flattened (flatten f.2)) ?array ?object ?anyOf ?leaf ?fieldsNil
    ?fieldsCons ?nil ?cons t
  case array =>
    intro e ih
    rw [flatten]
    exact .array ih
  case object =>
    intro fs ih
    rw [flatten_object]
    exact .object fun f hf => by
      obtain ⟨g, hg, rfl⟩ := List.mem_map.1 hf
      exact ih g hg
  case anyOf =>
    intro ms ih
    rw [flatten_anyOf]
    exact flattened_union fun m hm => by
      obtain ⟨n, hn, rfl⟩ := List.mem_map.1 hm
      exact ih n hn
  case leaf =>
    intro t ha ho hu
    rw [flatten.eq_4 t ha ho hu]
    exact .leaf ha ho hu
  case fieldsNil => simp
  case fieldsCons =>
    intro k t fs ht hfs
    exact List.forall_mem_cons.2 ⟨ht, hfs⟩
  case nil => simp
  case cons =>
    intro t ts ht hts
    exact List.forall_mem_cons.2 ⟨ht, hts⟩

/-- A canonical list of at least two members is the member list of its own union. -/
theorem union_of_canonical {ms : List Bson} (h : Canonical ms) (hlen : 2 ≤ ms.length) :
    union ms = .anyOf ms := by
  rw [union, unionMembers_of_canonical h]
  cases ms with
  | nil => simp at hlen
  | cons m rest =>
    cases rest with
    | nil => simp at hlen
    | cons _ _ => rfl

/-- `flatten` leaves a flattened type as it is. -/
theorem flatten_eq_self {t : Bson} (h : Flattened t) : flatten t = t := by
  induction h with
  | array _ ih => rw [flatten, ih]
  | object _ ih =>
    have hfields : ∀ f ∈ _, (f.1, flatten f.2) = f := fun f hf => Prod.ext rfl (ih f hf)
    rw [flatten_object, List.map_congr_left hfields, List.map_id']
  | anyOf hlen hcanon _ ih =>
    rw [flatten_anyOf, List.map_congr_left ih, List.map_id', union_of_canonical hcanon hlen]
  | leaf ha ho hu => exact flatten.eq_4 _ ha ho hu

/-- Flattening is idempotent, and what it gives has no union of fewer than two members and no
union directly inside a union, outside computed types and enums: the members of each union
are pairwise distinct and sorted by rank and text. -/
theorem flatten_idempotent (t : Bson) : flatten (flatten t) = flatten t ∧ Flattened (flatten t) :=
  ⟨flatten_eq_self (flattened_flatten t), flattened_flatten t⟩

end Bson

end QueryScope
