import Mathlib
import QueryScope.Lowering.Handles
import QueryScope.Host.Samples
/-!
# Namespaces are read from the program

The namespace of a collection handle is made of names the resolver reads from the program:
whatever the program and the bounds, a known namespace names a database and a collection that
the resolver reads as strings from the two sources it records, a bare collection reference
names a collection read so from its source and comes with no database name, and a reference
is unknown exactly when no collection name was found.

Both passes only ever add names, and only names read from their sources: `Grows r before
after` says that `after` keeps every name of `before` and that each name it adds was read by
`r` from the expression it records. Offering a name grows the names found (`grows_offer`),
one visit of the search does (`grows_visit`), hence the whole search (`grows_search`), the
local pass from nothing (`grows_localPass`), and the search after the local pass
(`grows_foundNames`). So the first name found for each part is kept to the end, and a
collection found by the local pass is the one in the result.

The hop bound only cuts the search short. The visits of a search with more hops begin with
those of a search with fewer, and the search only ever adds names, so the names found with more
hops keep those found with fewer (`grows_search_hops`): raising the bound turns a bare
collection into a known namespace at most, and leaves a known one as it is.

Main statements: `extract_sound`, `extract_refines_with_hops`.
-/

namespace QueryScope

namespace FoundNames

/-- The name found for a part, with the expression it was read from. -/
def name? (f : FoundNames) : NamePart → Option (Nat × String)
  | .database => f.database
  | .collection => f.collection

@[simp] theorem name?_database (f : FoundNames) : f.name? .database = f.database := rfl

@[simp] theorem name?_collection (f : FoundNames) : f.name? .collection = f.collection := rfl

@[simp] theorem name?_empty (part : NamePart) : ({} : FoundNames).name? part = none := by
  cases part <;> rfl

theorem name?_offer_self (f : FoundNames) (part : NamePart) (src : Nat) (name : String) :
    (f.offer part src name).name? part = (f.name? part).or (some (src, name)) := by
  cases part
  · cases hd : f.database <;> simp [offer, hd]
  · cases hc : f.collection <;> simp [offer, hc]

theorem name?_offer_of_ne (f : FoundNames) {part part' : NamePart} (src : Nat) (name : String)
    (h : part' ≠ part) : (f.offer part src name).name? part' = f.name? part' := by
  -- offering a name for one part leaves the other part's name as it was
  cases part <;> cases part'
  case database.database | collection.collection => exact absurd rfl h
  case database.collection | collection.database =>
    simp only [offer]
    split <;> rfl

/-- `after` keeps every name of `before`, and each name it adds was read by the resolver from
the expression it records. -/
structure Grows (r : Resolver) (before after : FoundNames) : Prop where
  keeps : ∀ part x, before.name? part = some x → after.name? part = some x
  sound : ∀ part src name, after.name? part = some (src, name) → before.name? part = none →
    r.resolveString src = some name

variable {r : Resolver} {f g h : FoundNames}

theorem Grows.refl (r : Resolver) (f : FoundNames) : Grows r f f :=
  ⟨fun _ _ hx => hx, fun _ _ _ hx hnone => by rw [hnone] at hx; cases hx⟩

theorem Grows.trans (hfg : Grows r f g) (hgh : Grows r g h) : Grows r f h := by
  refine ⟨fun part x hx => hgh.keeps part x (hfg.keeps part x hx), ?_⟩
  intro part src name hx hnone
  -- a name of `h` was added either between `f` and `g`, or between `g` and `h`
  cases hg : g.name? part with
  | none => exact hgh.sound part src name hx hg
  | some y =>
    have hy := hgh.keeps part y hg
    rw [hx] at hy
    cases hy
    exact hfg.sound part src name hg hnone

/-- Offering a name the resolver reads from its source grows the names found. -/
theorem grows_offer {part : NamePart} {src : Nat} {name : String}
    (hname : r.resolveString src = some name) : Grows r f (f.offer part src name) := by
  constructor
  · intro part' x hx
    by_cases hp : part' = part
    · subst hp
      rw [name?_offer_self, hx, Option.some_or]
    · rw [name?_offer_of_ne f src name hp, hx]
  · intro part' src' name' hx hnone
    by_cases hp : part' = part
    · subst hp
      rw [name?_offer_self, hnone, Option.none_or] at hx
      cases hx
      exact hname
    · rw [name?_offer_of_ne f src name hp, hnone] at hx
      cases hx

/-- The three shapes of the reference a set of names makes. -/
theorem reference_eq_known_iff {d : Option Origin} {c : Origin} {ns : Namespace}
    {sc : Option Schema} : f.reference = .known d c ns sc ↔
      ∃ dx cx, f.database = some (dx, ns.database) ∧ f.collection = some (cx, ns.collection) ∧
        d = some (.expr dx) ∧ c = .expr cx ∧ sc = none := by
  unfold reference
  split
  next cx coll dx db hc hd =>
    constructor
    · intro h
      cases h
      exact ⟨dx, cx, hd, hc, rfl, rfl, rfl⟩
    · rintro ⟨dx', cx', hd', hc', rfl, rfl, rfl⟩
      rw [hd'] at hd
      rw [hc'] at hc
      cases hd
      cases hc
      rfl
  next cx coll hc hd => simp [hd]
  next hknown hcoll =>
    simp only [reduceCtorEq, false_iff, not_exists, not_and]
    intro dx cx hd hc
    exact absurd hd (hknown cx _ dx _ hc)

theorem reference_eq_onlyCollection_iff {c : Origin} {coll : String} :
    f.reference = .onlyCollection c coll ↔
      ∃ cx, f.collection = some (cx, coll) ∧ f.database = none ∧ c = .expr cx := by
  unfold reference
  split
  next hc hd => simp [hd]
  next cx coll' hc hd =>
    constructor
    · intro h
      cases h
      exact ⟨cx, hc, hd, rfl⟩
    · rintro ⟨cx', hc', -, rfl⟩
      rw [hc'] at hc
      cases hc
      rfl
  next hknown hcoll =>
    simp only [reduceCtorEq, false_iff, not_exists, not_and]
    intro cx hc hd
    exact absurd hd (hcoll cx coll hc)

theorem reference_eq_unknown_iff : f.reference = .unknown ↔ f.collection = none := by
  unfold reference
  split
  next hc hd => simp [hc]
  next hc hd => simp [hc]
  next hknown hcoll =>
    simp only [true_iff]
    -- with a collection name, the first two shapes would apply
    cases hc : f.collection with
    | none => rfl
    | some x =>
      cases hd : f.database with
      | none => exact absurd hd (hcoll x.1 x.2 hc)
      | some y => exact absurd hd (hknown x.1 x.2 y.1 y.2 hc)

end FoundNames

namespace HandleSearch

open FoundNames (Grows)

variable (s : HandleSearch)

theorem resolveString_of_knownFirstArg {c : Call} {arg : Nat} {name : String}
    (h : s.knownFirstArg c = some (arg, name)) : s.resolver.resolveString arg = some name := by
  unfold knownFirstArg at h
  simp only [bind, Option.bind_eq_some_iff, pure, Option.some.injEq, Prod.mk.injEq] at h
  obtain ⟨_, -, _, hname, rfl, rfl⟩ := h
  exact hname

/-- The local pass finds only names read from their sources. -/
theorem grows_localPass (e : Nat) : Grows s.resolver {} (s.localPass e) := by
  unfold localPass
  dsimp only
  split
  next => exact .refl _ _
  next call _ =>
    -- the collection name first, then the database name, each when a known string; the
    -- names found in between are fixed by the database step
    apply Grows.trans
    case hgh =>
      split
      next arg name h =>
        refine FoundNames.grows_offer ?_
        simp only [bind, Option.bind_eq_some_iff] at h
        obtain ⟨_, -, _, -, h⟩ := h
        exact s.resolveString_of_knownFirstArg h
      next => exact .refl _ _
    case hfg =>
      split
      next arg name h => exact FoundNames.grows_offer (s.resolveString_of_knownFirstArg h)
      next => exact .refl _ _

/-- One visit of the search grows the names found. -/
theorem grows_visit (queryClass : Option Nat) (found : FoundNames) (goal : HandleGoal)
    (expr : Nat) : Grows s.resolver found (s.visit queryClass found goal expr).1 := by
  unfold visit
  -- only a name goal offers a name, and only one the resolver reads
  cases goal with
  | name part =>
    dsimp only
    split
    next name h => exact FoundNames.grows_offer h
    next => exact .refl _ _
  | collectionHandle | databaseHandle =>
    dsimp only
    split
    · split <;> exact .refl _ _
    · exact .refl _ _

/-- The whole search grows the names found, from whatever state it is in. -/
theorem grows_search (queryClass : Option Nat) (hops : Nat) (queue seen : List (HandleGoal × Nat))
    (found : FoundNames) : Grows s.resolver found (s.search queryClass hops queue seen found) := by
  fun_induction s.search queryClass hops queue seen found with
  | case1 => exact .refl _ _
  | case2 => exact .refl _ _
  | case3 _ _ _ _ _ _ _ _ ih => exact ih
  | case4 => exact .refl _ _
  | case5 goal expr _ seen found _ _ hops found' more hvisit ih =>
    refine Grows.trans ?_ ih
    have h := s.grows_visit queryClass found goal expr
    rw [hvisit] at h
    exact h

/-- The names the two passes find for a collection handle: the search runs only when the local
pass named no collection. -/
def foundNames (e : Nat) : FoundNames :=
  let found := s.localPass e
  if found.collection.isNone then s.contextualPass e found else found

theorem extract_eq_reference (e : Nat) : s.extract e = (s.foundNames e).reference := rfl

theorem grows_foundNames (e : Nat) : Grows s.resolver (s.localPass e) (s.foundNames e) := by
  unfold foundNames
  dsimp only
  split
  next => exact s.grows_search _ _ _ _ _
  next => exact .refl _ _

theorem foundNames_of_local (e : Nat) (h : (s.localPass e).collection.isSome) :
    s.foundNames e = s.localPass e := by
  unfold foundNames
  dsimp only
  rw [if_neg (by simpa [Option.isSome_iff_ne_none] using h)]

/-- Every name in the result was read by the resolver from the expression it records. -/
theorem resolveString_of_foundNames {e : Nat} {part : NamePart} {src : Nat} {name : String}
    (h : (s.foundNames e).name? part = some (src, name)) : s.resolver.resolveString src = some name :=
  ((s.grows_localPass e).trans (s.grows_foundNames e)).sound part src name h (by simp)

/-! ### Main statement -/

/-- The namespace of a collection handle is read from the program. A known namespace names the
database and collection that the resolver reads from its two sources, a bare collection
reference names the collection read from its source and no database was found, and the
reference is unknown exactly when no collection was found. The local pass's names are all
kept, and its collection stands alone when it found one; the search keeps every name it
has found from any state on. -/
theorem extract_sound (e : Nat) :
    (∀ d c ns sc, s.extract e = .known d c ns sc →
      ∃ dx cx, d = some (.expr dx) ∧ c = .expr cx ∧ sc = none ∧
        s.resolver.resolveString dx = some ns.database ∧
        s.resolver.resolveString cx = some ns.collection) ∧
    (∀ c coll, s.extract e = .onlyCollection c coll →
      ∃ cx, c = .expr cx ∧ s.resolver.resolveString cx = some coll ∧
        (s.foundNames e).database = none) ∧
    (s.extract e = .unknown ↔ (s.foundNames e).collection = none) ∧
    Grows s.resolver (s.localPass e) (s.foundNames e) ∧
    ((s.localPass e).collection.isSome → s.foundNames e = s.localPass e) ∧
    (∀ queryClass hops queue seen start,
      Grows s.resolver start (s.search queryClass hops queue seen start)) := by
  refine ⟨?_, ?_, ?_, s.grows_foundNames e, s.foundNames_of_local e, s.grows_search⟩
  · intro d c ns sc h
    obtain ⟨dx, cx, hd, hc, rfl, rfl, rfl⟩ :=
      FoundNames.reference_eq_known_iff.1 ((s.extract_eq_reference e).symm.trans h)
    have hdb := s.resolveString_of_foundNames
      (show (s.foundNames e).name? .database = some (dx, ns.database) from hd)
    have hcoll := s.resolveString_of_foundNames
      (show (s.foundNames e).name? .collection = some (cx, ns.collection) from hc)
    exact ⟨dx, cx, rfl, rfl, rfl, hdb, hcoll⟩
  · intro c coll h
    obtain ⟨cx, hc, hd, rfl⟩ :=
      FoundNames.reference_eq_onlyCollection_iff.1 ((s.extract_eq_reference e).symm.trans h)
    have hcoll := s.resolveString_of_foundNames
      (show (s.foundNames e).name? .collection = some (cx, coll) from hc)
    exact ⟨cx, rfl, hcoll, hd⟩
  · rw [extract_eq_reference]
    exact FoundNames.reference_eq_unknown_iff

/-! ### More hops -/

theorem visit_eq_of_resolver {s s' : HandleSearch} (hr : s'.resolver = s.resolver) :
    s'.visit = s.visit := by
  cases s; cases s'
  cases hr
  rfl

/-- With at least as many visits to spend, the search keeps every name the shorter search
finds: both visit the same pairs until the shorter one stops. -/
theorem grows_search_hops (s s' : HandleSearch) (hr : s'.resolver = s.resolver)
    (queryClass : Option Nat) {hops hops' : Nat} (hle : hops ≤ hops')
    (queue seen : List (HandleGoal × Nat)) (found : FoundNames) :
    Grows s.resolver (s.search queryClass hops queue seen found)
      (s'.search queryClass hops' queue seen found) := by
  fun_induction s.search queryClass hops queue seen found generalizing hops' with
  | case1 => rw [search.eq_1]; exact .refl _ _
  | case2 _ _ _ _ _ _ hc =>
    rw [search.eq_def]
    simp only [hc, if_true]
    exact .refl _ _
  | case3 _ _ _ _ _ _ hc hseen ih =>
    rw [search.eq_def s']
    simp only [hc, hseen, if_true, if_false, Bool.false_eq_true]
    exact ih hle
  | case4 _ _ _ _ _ hc hseen =>
    -- the shorter search has no visit left, and the longer one only adds names
    rw [← hr]
    exact s'.grows_search queryClass hops' _ _ _
  | case5 goal expr rest seen found hc hseen hops found' more hvisit ih =>
    obtain ⟨hops', rfl⟩ : ∃ k, hops' = k + 1 := ⟨hops' - 1, by omega⟩
    rw [search.eq_def s']
    simp only [hc, hseen, if_false, Bool.false_eq_true, visit_eq_of_resolver hr, hvisit]
    exact ih (by omega)

/-- The names found with more hops keep those found with fewer. -/
theorem grows_foundNames_hops (r : Resolver) {h h' : Nat} (hle : h ≤ h') (e : Nat) :
    Grows r ((⟨r, h⟩ : HandleSearch).foundNames e) ((⟨r, h'⟩ : HandleSearch).foundNames e) := by
  -- the local pass does not depend on the hops
  have hlocal : (⟨r, h'⟩ : HandleSearch).localPass e = (⟨r, h⟩ : HandleSearch).localPass e := rfl
  unfold foundNames
  dsimp only
  rw [hlocal]
  split
  · exact grows_search_hops ⟨r, h⟩ ⟨r, h'⟩ rfl _ hle _ _ _
  · exact .refl _ _

/-- Raising the hop bound only refines a namespace: a known namespace stays the same, with the
same sources, and a bare collection stays that collection from the same source, possibly with
a database found besides. -/
theorem extract_refines_with_hops (r : Resolver) {h h' : Nat} (hle : h ≤ h') (e : Nat) :
    (∀ d c ns sc, (⟨r, h⟩ : HandleSearch).extract e = .known d c ns sc →
      (⟨r, h'⟩ : HandleSearch).extract e = .known d c ns sc) ∧
    (∀ c coll, (⟨r, h⟩ : HandleSearch).extract e = .onlyCollection c coll →
      (⟨r, h'⟩ : HandleSearch).extract e = .onlyCollection c coll ∨
        ∃ d ns, ns.collection = coll ∧ (⟨r, h'⟩ : HandleSearch).extract e = .known d c ns none) := by
  have hg := grows_foundNames_hops r hle e
  refine ⟨fun d c ns sc hk => ?_, fun c coll ho => ?_⟩
  · obtain ⟨dx, cx, hd, hc, rfl, rfl, rfl⟩ := FoundNames.reference_eq_known_iff.1 hk
    exact FoundNames.reference_eq_known_iff.2
      ⟨dx, cx, hg.keeps .database _ hd, hg.keeps .collection _ hc, rfl, rfl, rfl⟩
  · obtain ⟨cx, hc, hd, rfl⟩ := FoundNames.reference_eq_onlyCollection_iff.1 ho
    have hc' := hg.keeps .collection _ hc
    -- the longer search may have found the database as well
    cases hd' : ((⟨r, h'⟩ : HandleSearch).foundNames e).database with
    | none => exact .inl (FoundNames.reference_eq_onlyCollection_iff.2 ⟨cx, hc', hd', rfl⟩)
    | some x =>
      exact .inr ⟨some (.expr x.1), ⟨x.2, coll⟩, rfl,
        FoundNames.reference_eq_known_iff.2 ⟨x.1, cx, hd', hc', rfl, rfl, rfl⟩⟩

/-- A handle whose names are known only at the call site of its method: four visits find the
collection there, and two more the database. -/
theorem extract_refines_with_hops_throughParameters :
    (⟨⟨(Samples.findThroughParameters "shop" "users").program, defaultLimit⟩, 4⟩ :
        HandleSearch).extract 2 = .onlyCollection (.expr 7) "users" ∧
    (⟨⟨(Samples.findThroughParameters "shop" "users").program, defaultLimit⟩, 6⟩ :
        HandleSearch).extract 2 = .known (some (.expr 5)) (.expr 7) ⟨"shop", "users"⟩ none ∧
    4 ≤ 6 ∧
    (∀ d c ns sc, (⟨⟨(Samples.findThroughParameters "shop" "users").program, defaultLimit⟩, 4⟩ :
        HandleSearch).extract 2 = .known d c ns sc →
      (⟨⟨(Samples.findThroughParameters "shop" "users").program, defaultLimit⟩, 6⟩ :
        HandleSearch).extract 2 = .known d c ns sc) ∧
    (∀ c coll, (⟨⟨(Samples.findThroughParameters "shop" "users").program, defaultLimit⟩, 4⟩ :
        HandleSearch).extract 2 = .onlyCollection c coll →
      (⟨⟨(Samples.findThroughParameters "shop" "users").program, defaultLimit⟩, 6⟩ :
        HandleSearch).extract 2 = .onlyCollection c coll ∨
        ∃ d ns, ns.collection = coll ∧
          (⟨⟨(Samples.findThroughParameters "shop" "users").program, defaultLimit⟩, 6⟩ :
            HandleSearch).extract 2 = .known d c ns none) :=
  ⟨by cbv, by cbv, by decide, extract_refines_with_hops _ (by decide) 2⟩

end HandleSearch

end QueryScope
