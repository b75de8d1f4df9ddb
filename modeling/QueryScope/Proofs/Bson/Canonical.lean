import Mathlib.Data.String.Basic
import QueryScope.Bson.Union
/-!
# Unions in canonical form

`Bson.unionMembers` collects the members of a union from a list of types: each union of the
list gives its members and any other type itself (`Bson.alternatives`), a type equal to one
collected before is left out, and the members are sorted by rank and then by text with a
stable sort. Main statement (`Bson.unionMembers_canonical`): for a list whose unions are flat,
as every union the library builds is, the members are

* pairwise distinct, none of them a union, and sorted by rank and text;
* drawn from the alternatives of the list, leaving out only an alternative equal to a member;
* canonical: `unionMembers (unionMembers ts) = unionMembers ts`.

The order of the list does not matter where equality is exact on its alternatives and their
rank and text tell them apart. Rank and text alone do not: two enums of one name but different
members sort as equals and stay in the order they were given
(`Bson.unionMembers_depends_on_order`).

Equality of types compares doubles as numbers, so nothing is known of it beyond its
definition: distinctness after sorting rests on equal types having one rank and one text
(`Bson.display_eq_of_beq`), so that the sort never swaps an equal pair.
-/

namespace QueryScope

/-! ### Merge sort and relations between items -/

/-- Merge sort keeps a relation between the items of its input, in their order, when the
relation also holds between two items the sort swaps, that is whenever the one that came
later sorts strictly first. -/
theorem pairwise_mergeSort_of_pairwise {α : Type} {le : α → α → Bool} {R : α → α → Prop}
    (trans : ∀ a b c, le a b → le b c → le a c) (total : ∀ a b, le a b || le b a)
    (hswap : ∀ x y, le y x = false → R x y) :
    ∀ {l : List α}, l.Pairwise R → (l.mergeSort le).Pairwise R
  | [], _ => by simp
  | a :: l, h => by
    obtain ⟨l₁, l₂, h₁, h₂, h₃⟩ := List.mergeSort_cons trans total a l
    rw [List.pairwise_cons] at h
    have ih := pairwise_mergeSort_of_pairwise trans total hswap h.2
    rw [h₂, List.pairwise_append] at ih
    obtain ⟨hl₁, hl₂, hl₁₂⟩ := ih
    have hperm : List.Perm (l₁ ++ l₂) l := h₂ ▸ List.mergeSort_perm l le
    rw [h₁, List.pairwise_append, List.pairwise_cons]
    refine ⟨hl₁, ⟨fun y hy => h.1 y (hperm.subset (List.mem_append_right _ hy)), hl₂⟩, ?_⟩
    intro x hx y hy
    rcases List.mem_cons.1 hy with rfl | hy
    · exact hswap x y (by simpa using h₃ x hx)
    · exact hl₁₂ x hx y hy

namespace Bson

/-! ### Equal types have one key -/

mutual
/-- Equal types have one text: equality compares all the text shows. -/
theorem display_eq_of_beq : ∀ (a b : Bson), Bson.beq a b = true → a.display = b.display
  | a, b, h => by
    -- one case per shape that equality accepts; types of two shapes are never equal
    unfold Bson.beq at h
    split at h
    case h_12 a b =>
      simp only [Bson.display]
      rw [display_eq_of_beq a b h]
    case h_13 fs gs =>
      simp only [Bson.display]
      rw [displayFields_eq_of_beqFields fs gs h]
    case h_14 ms n ms' n' =>
      simp only [Bool.and_eq_true, beq_iff_eq] at h
      obtain ⟨rfl, rfl⟩ := h
      rfl
    case h_15 ms ms' =>
      simp only [Bson.display]
      rw [displayList_eq_of_beqList ms ms' h]
    case h_16 a _ b _ =>
      simp only [Bool.and_eq_true] at h
      simp only [Bson.display]
      rw [display_eq_of_beq a b h.1]
    case h_17 => cases h
    all_goals rfl

theorem displayList_eq_of_beqList :
    ∀ (ms ms' : List Bson), Bson.beqList ms ms' = true → Bson.displayList ms = Bson.displayList ms'
  | [], [], _ => rfl
  | a :: as, b :: bs, h => by
    simp only [Bson.beqList, Bool.and_eq_true] at h
    simp only [Bson.displayList, display_eq_of_beq a b h.1, displayList_eq_of_beqList as bs h.2]
  | [], _ :: _, h => by simp [Bson.beqList] at h
  | _ :: _, [], h => by simp [Bson.beqList] at h

theorem displayFields_eq_of_beqFields :
    ∀ (fs gs : List (String × Bson)), Bson.beqFields fs gs = true →
      Bson.displayFields fs = Bson.displayFields gs
  | [], [], _ => rfl
  | (k, a) :: as, (k', b) :: bs, h => by
    simp only [Bson.beqFields, Bool.and_eq_true, beq_iff_eq] at h
    obtain ⟨⟨rfl, h1⟩, h2⟩ := h
    simp only [Bson.displayFields, display_eq_of_beq a b h1, displayFields_eq_of_beqFields as bs h2]
  | [], _ :: _, h => by simp [Bson.beqFields] at h
  | _ :: _, [], h => by simp [Bson.beqFields] at h
end

/-- Equal types have one rank. -/
theorem rank_eq_of_beq {a b : Bson} (h : (a == b) = true) : a.rank = b.rank := by
  change Bson.beq a b = true at h
  unfold Bson.beq at h
  -- every arm but the last compares two types of one constructor, which share a rank; the
  -- last answers `false`
  split at h <;> first | rfl | cases h

/-! ### The order of union members -/

/-- A type goes before or with another when its rank is lower, or the same with a text that is
not greater. -/
theorem memberLe_iff {a b : Bson} :
    memberLe a b = true ↔ a.rank < b.rank ∨ (a.rank = b.rank ∧ a.display ≤ b.display) := by
  simp only [memberLe, Bool.or_eq_true, decide_eq_true_eq, Bool.and_eq_true, beq_iff_eq,
    Bool.not_eq_true', decide_eq_false_iff_not, not_lt]

theorem memberLe_trans (a b c : Bson) (hab : memberLe a b = true) (hbc : memberLe b c = true) :
    memberLe a c = true := by
  rw [memberLe_iff] at *
  rcases hab with h | ⟨h, h'⟩ <;> rcases hbc with g | ⟨g, g'⟩
  · exact Or.inl (by omega)
  · exact Or.inl (by omega)
  · exact Or.inl (by omega)
  · exact Or.inr ⟨by omega, le_trans h' g'⟩

theorem memberLe_total (a b : Bson) : (memberLe a b || memberLe b a) = true := by
  rw [Bool.or_eq_true, memberLe_iff, memberLe_iff]
  rcases lt_trichotomy a.rank b.rank with h | h | h
  · exact Or.inl (Or.inl h)
  · rcases le_total a.display b.display with g | g
    · exact Or.inl (Or.inr ⟨h, g⟩)
    · exact Or.inr (Or.inr ⟨h.symm, g⟩)
  · exact Or.inr (Or.inl h)

/-- Two types that sort either way have one rank and one text. -/
theorem memberLe_antisymm {a b : Bson} (hab : memberLe a b = true) (hba : memberLe b a = true) :
    a.rank = b.rank ∧ a.display = b.display := by
  rw [memberLe_iff] at hab hba
  rcases hab with h | ⟨h, h'⟩ <;> rcases hba with g | ⟨g, g'⟩
  · omega
  · omega
  · omega
  · exact ⟨h, le_antisymm h' g'⟩

theorem memberLe_of_key {a b : Bson} (hr : a.rank = b.rank) (hd : a.display = b.display) :
    memberLe a b = true :=
  memberLe_iff.2 (Or.inr ⟨hr, hd.le⟩)

/-- Equal types sort either way, so a pair the sort puts in strict order is not equal. -/
theorem beq_eq_false_of_memberLe {a b : Bson} (h : memberLe a b = false) : (b == a) = false := by
  cases hba : (b == a)
  · rfl
  · rw [memberLe_of_key (rank_eq_of_beq hba).symm (display_eq_of_beq b a hba).symm] at h
    cases h

/-! ### Collecting members -/

/-- The alternatives a list of types offers: a union its members, any other type itself. -/
def alternatives (ts : List Bson) : List Bson :=
  ts.flatMap fun t =>
    match t with
    | .anyOf ms => ms
    | t => [t]

/-- Whether a type is a union. -/
def isUnion : Bson → Bool
  | .anyOf _ => true
  | _ => false

/-- A union has no union among its members; any other type is flat as it is. -/
def flat : Bson → Bool
  | .anyOf ms => ms.all fun m => !m.isUnion
  | _ => true

theorem isUnion_eq_false_iff {t : Bson} : t.isUnion = false ↔ ∀ ms, t ≠ .anyOf ms := by
  cases t <;> simp [isUnion]

/-- No two types of the list are equal, in the order they come. -/
def Distinct (ms : List Bson) : Prop := ms.Pairwise fun a b => (a == b) = false

instance (ms : List Bson) : Decidable (Distinct ms) :=
  inferInstanceAs (Decidable (ms.Pairwise fun a b => (a == b) = false))

@[simp] theorem alternatives_nil : alternatives [] = [] := rfl

theorem alternatives_cons (t : Bson) (ts : List Bson) :
    alternatives (t :: ts) = alternatives [t] ++ alternatives ts := by
  simp [alternatives]

theorem alternatives_singleton {t : Bson} (h : t.isUnion = false) : alternatives [t] = [t] := by
  simp only [alternatives, List.flatMap_cons, List.flatMap_nil, List.append_nil]
  split
  next ms => simp [isUnion] at h
  next => rfl

/-- Collecting the members of a list collects its alternatives in order. -/
theorem collectMembers_eq (ts : List Bson) :
    collectMembers ts = (alternatives ts).foldl pushUnique [] := by
  suffices h : ∀ acc, ts.foldl (fun acc t =>
      match t with
      | .anyOf ms => ms.foldl pushUnique acc
      | t => pushUnique acc t) acc = (alternatives ts).foldl pushUnique acc from h []
  induction ts with
  | nil => intro acc; rfl
  | cons t ts ih =>
    intro acc
    rw [List.foldl_cons, ih, alternatives_cons, List.foldl_append]
    cases t <;> simp [alternatives]

/-! ### Collecting, one type and then a list -/

/-- A type equal to one collected before is left out; any other is added at the end. -/
theorem pushUnique_cases (acc : List Bson) (t : Bson) :
    (∃ a ∈ acc, (a == t) = true) ∧ pushUnique acc t = acc ∨
    (∀ a ∈ acc, (a == t) = false) ∧ pushUnique acc t = acc ++ [t] := by
  by_cases h : acc.any (· == t) = true
  · exact Or.inl ⟨List.any_eq_true.1 h, if_pos h⟩
  · exact Or.inr ⟨by simpa using h, if_neg h⟩

theorem pushUnique_eq_append {acc : List Bson} {t : Bson} (h : ∀ a ∈ acc, (a == t) = false) :
    pushUnique acc t = acc ++ [t] := by
  rcases pushUnique_cases acc t with ⟨⟨a, ha, hat⟩, -⟩ | ⟨-, heq⟩
  · rw [h a ha] at hat
    cases hat
  · exact heq

theorem distinct_pushUnique {acc : List Bson} (h : Distinct acc) (t : Bson) :
    Distinct (pushUnique acc t) := by
  rcases pushUnique_cases acc t with ⟨-, heq⟩ | ⟨hsep, heq⟩ <;> rw [heq]
  · exact h
  · exact List.pairwise_append.2 ⟨h, List.pairwise_singleton _ _,
      fun a ha b hb => (List.mem_singleton.1 hb) ▸ hsep a ha⟩

theorem mem_pushUnique {acc : List Bson} {t x : Bson} (h : x ∈ pushUnique acc t) :
    x ∈ acc ∨ x = t := by
  rcases pushUnique_cases acc t with ⟨-, heq⟩ | ⟨-, heq⟩ <;> rw [heq] at h
  · exact Or.inl h
  · simpa using h

theorem subset_pushUnique {acc : List Bson} (t : Bson) {x : Bson} (h : x ∈ acc) :
    x ∈ pushUnique acc t := by
  rcases pushUnique_cases acc t with ⟨-, heq⟩ | ⟨-, heq⟩ <;> rw [heq]
  · exact h
  · exact List.mem_append_left _ h

theorem pushUnique_covers (acc : List Bson) (t : Bson) :
    t ∈ pushUnique acc t ∨ ∃ m ∈ acc, (m == t) = true := by
  rcases pushUnique_cases acc t with ⟨hex, -⟩ | ⟨-, heq⟩
  · exact Or.inr hex
  · rw [heq]
    exact Or.inl (List.mem_append_right _ (List.mem_singleton_self t))

theorem foldl_pushUnique_distinct {acc : List Bson} (h : Distinct acc) :
    ∀ l : List Bson, Distinct (l.foldl pushUnique acc)
  | [] => h
  | t :: l => foldl_pushUnique_distinct (distinct_pushUnique h t) l

theorem mem_foldl_pushUnique {x : Bson} :
    ∀ {acc l : List Bson}, x ∈ l.foldl pushUnique acc → x ∈ acc ∨ x ∈ l
  | _, [], h => Or.inl h
  | acc, t :: l, h => by
    rw [List.foldl_cons] at h
    rcases mem_foldl_pushUnique h with h | h
    · rcases mem_pushUnique h with h | rfl
      · exact Or.inl h
      · exact Or.inr List.mem_cons_self
    · exact Or.inr (List.mem_cons_of_mem t h)

theorem subset_foldl_pushUnique {x : Bson} :
    ∀ {acc l : List Bson}, x ∈ acc → x ∈ l.foldl pushUnique acc
  | _, [], h => h
  | _, t :: _, h => by
    rw [List.foldl_cons]
    exact subset_foldl_pushUnique (subset_pushUnique t h)

/-- A type left out while collecting has an equal one collected before it. -/
theorem foldl_pushUnique_covers {x : Bson} :
    ∀ {acc l : List Bson}, x ∈ l →
      x ∈ l.foldl pushUnique acc ∨ ∃ m ∈ l.foldl pushUnique acc, (m == x) = true
  | _, [], hx => by simp at hx
  | acc, t :: l, hx => by
    rw [List.foldl_cons]
    rcases List.mem_cons.1 hx with rfl | hx
    · rcases pushUnique_covers acc x with h | ⟨m, hm, hmx⟩
      · exact Or.inl (subset_foldl_pushUnique h)
      · exact Or.inr ⟨m, subset_foldl_pushUnique (subset_pushUnique x hm), hmx⟩
    · exact foldl_pushUnique_covers hx

/-- Collecting distinct types none of which equals one collected before keeps them all. -/
theorem foldl_pushUnique_eq_append :
    ∀ {acc l : List Bson}, Distinct l → (∀ a ∈ acc, ∀ b ∈ l, (a == b) = false) →
      l.foldl pushUnique acc = acc ++ l
  | _, [], _, _ => by simp
  | acc, t :: l, hd, hsep => by
    have hd' := List.pairwise_cons.1 hd
    rw [List.foldl_cons, pushUnique_eq_append fun a ha => hsep a ha t List.mem_cons_self,
      foldl_pushUnique_eq_append hd'.2, List.append_assoc, List.singleton_append]
    intro a ha b hb
    rcases List.mem_append.1 ha with ha | ha
    · exact hsep a ha b (List.mem_cons_of_mem t hb)
    · exact (List.mem_singleton.1 ha) ▸ hd'.1 b hb

/-! ### The canonical members of a union -/

theorem unionMembers_sorted (ts : List Bson) :
    (unionMembers ts).Pairwise fun a b => memberLe a b = true :=
  List.pairwise_mergeSort memberLe_trans memberLe_total _

theorem unionMembers_distinct (ts : List Bson) : Distinct (unionMembers ts) :=
  pairwise_mergeSort_of_pairwise memberLe_trans memberLe_total
    (fun _ _ h => beq_eq_false_of_memberLe h)
    (collectMembers_eq ts ▸ foldl_pushUnique_distinct List.Pairwise.nil _)

theorem mem_alternatives_of_mem {m : Bson} {ts : List Bson} (h : m ∈ unionMembers ts) :
    m ∈ alternatives ts := by
  rw [unionMembers, List.mem_mergeSort, collectMembers_eq] at h
  simpa using mem_foldl_pushUnique h

theorem unionMembers_covers {a : Bson} {ts : List Bson} (h : a ∈ alternatives ts) :
    a ∈ unionMembers ts ∨ ∃ m ∈ unionMembers ts, (m == a) = true := by
  simp only [unionMembers, List.mem_mergeSort, collectMembers_eq]
  exact foldl_pushUnique_covers h

theorem isUnion_eq_false_of_mem {ts : List Bson} (hflat : ∀ t ∈ ts, t.flat = true) {m : Bson}
    (hm : m ∈ unionMembers ts) : m.isUnion = false := by
  obtain ⟨t, ht, hmt⟩ := List.mem_flatMap.1 (mem_alternatives_of_mem hm)
  have hft := hflat t ht
  split at hmt
  next ms =>
    simp only [flat, List.all_eq_true, Bool.not_eq_eq_eq_not, Bool.not_true] at hft
    exact hft m hmt
  next hu =>
    rw [List.mem_singleton] at hmt
    subst hmt
    exact isUnion_eq_false_iff.2 hu

/-- Types none of which is a union are their own alternatives. -/
theorem alternatives_eq_self {ms : List Bson} (h : ∀ m ∈ ms, m.isUnion = false) :
    alternatives ms = ms := by
  induction ms with
  | nil => rfl
  | cons m ms ih =>
    rw [alternatives_cons, ih fun x hx => h x (List.mem_cons_of_mem m hx),
      alternatives_singleton (h m List.mem_cons_self), List.singleton_append]

/-- The members of a union as the library keeps them: pairwise distinct, none of them a union,
in order of rank and then text. -/
structure Canonical (ms : List Bson) : Prop where
  distinct : Distinct ms
  flat : ∀ m ∈ ms, m.isUnion = false
  sorted : ms.Pairwise fun a b => memberLe a b = true

theorem canonical_unionMembers {ts : List Bson} (hflat : ∀ t ∈ ts, t.flat = true) :
    Canonical (unionMembers ts) :=
  ⟨unionMembers_distinct ts, fun _ hm => isUnion_eq_false_of_mem hflat hm, unionMembers_sorted ts⟩

/-- Canonical members are the members of their own union. -/
theorem unionMembers_of_canonical {ms : List Bson} (h : Canonical ms) : unionMembers ms = ms := by
  rw [unionMembers, collectMembers_eq, alternatives_eq_self h.flat,
    foldl_pushUnique_eq_append h.distinct (by simp), List.nil_append]
  exact List.mergeSort_of_pairwise h.sorted

/-! ### When the order of the given types does not matter -/

section Exact

variable {ts : List Bson}
  (hexact : ∀ a ∈ alternatives ts, ∀ b ∈ alternatives ts, (a == b) = true ↔ a = b)

include hexact

theorem collectMembers_nodup : (collectMembers ts).Nodup := by
  have hsub : ∀ x ∈ collectMembers ts, x ∈ alternatives ts := fun x hx => by
    rw [collectMembers_eq] at hx
    simpa using mem_foldl_pushUnique hx
  have hd : Distinct (collectMembers ts) := collectMembers_eq ts ▸ foldl_pushUnique_distinct List.Pairwise.nil _
  refine hd.imp_of_mem fun {a b} ha hb hab heq => ?_
  rw [(hexact a (hsub a ha) b (hsub b hb)).2 heq] at hab
  cases hab

theorem mem_collectMembers_iff {x : Bson} : x ∈ collectMembers ts ↔ x ∈ alternatives ts := by
  rw [collectMembers_eq]
  constructor
  · intro hx
    simpa using mem_foldl_pushUnique hx
  · intro hx
    rcases foldl_pushUnique_covers hx with h | ⟨m, hm, hmx⟩
    · exact h
    · have hm' : m ∈ alternatives ts := by simpa using mem_foldl_pushUnique hm
      rwa [(hexact m hm' x hx).1 hmx] at hm

end Exact

/-- Two lists offering the same alternatives give the same union, when equality is exact on
those alternatives and their rank and text tell them apart. -/
theorem unionMembers_eq_of_alternatives {ts ts' : List Bson}
    (hsame : ∀ t, t ∈ alternatives ts' ↔ t ∈ alternatives ts)
    (hexact : ∀ a ∈ alternatives ts, ∀ b ∈ alternatives ts, (a == b) = true ↔ a = b)
    (hkey : ∀ a ∈ alternatives ts, ∀ b ∈ alternatives ts,
      a.rank = b.rank → a.display = b.display → a = b) :
    unionMembers ts' = unionMembers ts := by
  have hexact' : ∀ a ∈ alternatives ts', ∀ b ∈ alternatives ts', (a == b) = true ↔ a = b :=
    fun a ha b hb => hexact a ((hsame a).1 ha) b ((hsame b).1 hb)
  have hperm : List.Perm (collectMembers ts') (collectMembers ts) :=
    (List.perm_ext_iff_of_nodup (collectMembers_nodup hexact') (collectMembers_nodup hexact)).2
      fun x => by rw [mem_collectMembers_iff hexact', mem_collectMembers_iff hexact, hsame]
  refine List.Perm.eq_of_pairwise ?_ (unionMembers_sorted ts')
    (unionMembers_sorted ts)
    ((List.mergeSort_perm _ _).trans (hperm.trans (List.mergeSort_perm _ _).symm))
  intro a b ha hb hab hba
  obtain ⟨hr, hd⟩ := memberLe_antisymm hab hba
  exact hkey a ((hsame a).1 (mem_alternatives_of_mem ha)) b (mem_alternatives_of_mem hb) hr hd

/-! ### The canonical form -/

/-- The members of the union of a list of types whose unions are flat are canonical, drawn
from the alternatives the list offers, leaving out only an alternative equal to a member, and
they are the members of their own union. The list's order does not matter when equality is
exact on its alternatives and their rank and text tell them apart. -/
theorem unionMembers_canonical (ts : List Bson) (hflat : ∀ t ∈ ts, t.flat = true) :
    Canonical (unionMembers ts) ∧
    (∀ m ∈ unionMembers ts, m ∈ alternatives ts) ∧
    (∀ a ∈ alternatives ts, a ∈ unionMembers ts ∨ ∃ m ∈ unionMembers ts, (m == a) = true) ∧
    unionMembers (unionMembers ts) = unionMembers ts ∧
    ∀ ts' : List Bson, (∀ t, t ∈ alternatives ts' ↔ t ∈ alternatives ts) →
      (∀ a ∈ alternatives ts, ∀ b ∈ alternatives ts, (a == b) = true ↔ a = b) →
      (∀ a ∈ alternatives ts, ∀ b ∈ alternatives ts,
        a.rank = b.rank → a.display = b.display → a = b) →
      unionMembers ts' = unionMembers ts :=
  ⟨canonical_unionMembers hflat, fun _ hm => mem_alternatives_of_mem hm,
    fun _ ha => unionMembers_covers ha, unionMembers_of_canonical (canonical_unionMembers hflat),
    fun _ hsame hexact hkey => unionMembers_eq_of_alternatives hsame hexact hkey⟩

theorem unionMembers_canonical_optional_string :
    (∀ t ∈ [Bson.string, .anyOf [.null, .int32]], t.flat = true) ∧
    Canonical (unionMembers [.string, .anyOf [.null, .int32]]) ∧
    (∀ m ∈ unionMembers [.string, .anyOf [.null, .int32]],
      m ∈ alternatives [.string, .anyOf [.null, .int32]]) ∧
    (∀ a ∈ alternatives [.string, .anyOf [.null, .int32]],
      a ∈ unionMembers [.string, .anyOf [.null, .int32]] ∨
        ∃ m ∈ unionMembers [.string, .anyOf [.null, .int32]], (m == a) = true) ∧
    unionMembers (unionMembers [.string, .anyOf [.null, .int32]]) =
      unionMembers [.string, .anyOf [.null, .int32]] ∧
    ∀ ts' : List Bson,
      (∀ t, t ∈ alternatives ts' ↔ t ∈ alternatives [.string, .anyOf [.null, .int32]]) →
      (∀ a ∈ alternatives [.string, .anyOf [.null, .int32]],
        ∀ b ∈ alternatives [.string, .anyOf [.null, .int32]], (a == b) = true ↔ a = b) →
      (∀ a ∈ alternatives [.string, .anyOf [.null, .int32]],
        ∀ b ∈ alternatives [.string, .anyOf [.null, .int32]],
        a.rank = b.rank → a.display = b.display → a = b) →
      unionMembers ts' = unionMembers [.string, .anyOf [.null, .int32]] :=
  ⟨by decide, unionMembers_canonical _ (by decide)⟩

/-- Two enums of one name have one rank and one text, so their union keeps them in the order
they are given. -/
theorem unionMembers_depends_on_order :
    unionMembers [.enumeration ["B"] (some "K"), .enumeration ["A"] (some "K")] ≠
      unionMembers [.enumeration ["A"] (some "K"), .enumeration ["B"] (some "K")] := by
  rw [unionMembers_of_canonical ⟨List.pairwise_pair.2 (by decide +kernel), by decide, by decide⟩,
    unionMembers_of_canonical ⟨List.pairwise_pair.2 (by decide +kernel), by decide, by decide⟩]
  simp

end Bson
end QueryScope
