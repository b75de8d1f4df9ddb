import Mathlib.Data.List.Induction
import Mathlib.Data.List.Nodup
import QueryScope.Interchange.Bson
/-!
# One component of each kind

A node holds at most one component of each kind, and so does every node below it. Building a
node from a component list keeps, for each kind, the last component of that kind, at the
position where the kind first occurs. Every operation that makes a node from another keeps the
kinds of every node of the tree distinct: adding a component (and so setting the target
cluster or the explain level), injecting a schema, overwriting the database, changing the
sources, and reading a node from its interchange form. Rebuilding a node from its own
components gives it back.

`UniqueKinds` is the property of one node and `WellFormed` that of every node of a tree, read
off the pre-order walk. `wellFormed_mk_iff` opens a tree into its own components and the trees
below them; every preservation lemma is a fact about one component list and a recursion on
the trees below.

Main statement: `components_unique`.
-/

namespace QueryScope

/-- The kinds of a list of components, in order. -/
def Component.kinds (cs : List Component) : List ComponentKind := cs.map Component.kind

@[simp] theorem Component.kinds_nil : kinds [] = [] := rfl

@[simp] theorem Component.kinds_cons (c : Component) (cs : List Component) :
    kinds (c :: cs) = c.kind :: kinds cs := rfl

@[simp] theorem Component.kinds_append (cs cs' : List Component) :
    kinds (cs ++ cs') = kinds cs ++ kinds cs' :=
  List.map_append

namespace Node

open Component (kinds)

/-- A node holds at most one component of each kind. -/
def UniqueKinds (n : Node) : Prop := (kinds n.components).Nodup

/-- Every node of a tree holds at most one component of each kind. -/
def WellFormed (n : Node) : Prop := ∀ m ∈ n.walk, m.UniqueKinds

/-! ### Putting a component -/

section Put

variable {cs acc : List Component} {c d : Component} {k : ComponentKind}

theorem any_kind_iff : (cs.any fun d => d.kind == k) = true ↔ k ∈ kinds cs := by
  simp only [kinds, List.any_eq_true, beq_iff_eq, List.mem_map]

theorem put_of_not_mem (h : c.kind ∉ kinds cs) : put cs c = cs ++ [c] := by
  rw [put, if_neg (by rwa [any_kind_iff])]

theorem put_of_mem (h : c.kind ∈ kinds cs) :
    put cs c = cs.map fun d => if d.kind == c.kind then c else d := by
  rw [put, if_pos (any_kind_iff.2 h)]

/-- Putting a component replaces the one of its kind in place, so the kinds keep their order. -/
theorem kinds_map_replace :
    kinds (cs.map fun d => if d.kind == c.kind then c else d) = kinds cs := by
  unfold kinds
  rw [List.map_map]
  refine List.map_congr_left fun d _ => ?_
  by_cases hd : d.kind = c.kind <;> simp [hd]

theorem kinds_put :
    kinds (put cs c) = if c.kind ∈ kinds cs then kinds cs else kinds cs ++ [c.kind] := by
  split
  next h => rw [put_of_mem h, kinds_map_replace]
  next h => simp [put_of_not_mem h, kinds]

theorem nodup_kinds_put (h : (kinds cs).Nodup) : (kinds (put cs c)).Nodup := by
  rw [kinds_put]
  split
  next => exact h
  next hc =>
    refine List.nodup_append.2 ⟨h, List.nodup_singleton _, fun a ha b hb hab => hc ?_⟩
    rw [List.mem_singleton.1 hb] at hab
    exact hab ▸ ha

theorem mem_put (h : d ∈ put cs c) : d ∈ cs ∨ d = c := by
  unfold put at h
  split at h
  next =>
    obtain ⟨e, he, rfl⟩ := List.mem_map.1 h
    split
    next => exact .inr rfl
    next => exact .inl he
  next => simpa using h

/-- After a put, the component of the put kind is the new one, and the others are as before. -/
theorem find?_put :
    (put cs c).find? (·.kind == k) = if c.kind = k then some c else cs.find? (·.kind == k) := by
  by_cases hc : c.kind ∈ kinds cs
  · rw [put_of_mem hc, List.find?_map]
    -- replacing the component of the put kind does not change which components have kind `k`
    have hsame : ((fun d : Component => d.kind == k) ∘
        fun d => if d.kind == c.kind then c else d) = fun d => d.kind == k := by
      funext d
      by_cases hd : d.kind = c.kind <;> by_cases hk : c.kind = k <;> simp_all
    rw [hsame]
    split
    next hk =>
      subst hk
      cases hfind : cs.find? (·.kind == c.kind) with
      | none =>
        obtain ⟨e, he, hek⟩ := List.mem_map.1 hc
        exact absurd (List.find?_eq_none.1 hfind e he) (by simp [hek])
      | some f =>
        have hf : f.kind = c.kind := by simpa using List.find?_some hfind
        simp [hf]
    next hk =>
      cases hfind : cs.find? (·.kind == k) with
      | none => rfl
      | some f =>
        have hf : f.kind = k := by simpa using List.find?_some hfind
        simp [hf, Ne.symm hk]
  · rw [put_of_not_mem hc, List.find?_append]
    split
    next hk =>
      have hnone : cs.find? (·.kind == k) = none :=
        List.find?_eq_none.2 fun d hd hdk =>
          hc (List.mem_map.2 ⟨d, hd, by rw [beq_iff_eq.1 hdk, hk]⟩)
      simp [hnone, hk]
    next hk => simp [hk]

end Put

/-! ### Building a node -/

section Build

variable {s : Origin} {cs acc : List Component} {c : Component} {k : ComponentKind}

theorem ofComponents_components : (ofComponents s cs).components = cs.foldl put [] := rfl

theorem foldl_put_append : (cs ++ [c]).foldl put acc = put (cs.foldl put acc) c := by
  rw [List.foldl_append, List.foldl_cons, List.foldl_nil]

/-- The kinds of a built node are those of its components, each once, in order of first
occurrence. -/
theorem kinds_ofComponents : kinds (ofComponents s cs).components = (kinds cs).eraseDups := by
  rw [ofComponents_components]
  induction cs using List.reverseRecOn with
  | nil => rfl
  | append_singleton cs c ih =>
    rw [foldl_put_append, kinds_put, ih, Component.kinds_append, List.eraseDups_append]
    by_cases hc : c.kind ∈ kinds cs
    · rw [if_pos (List.mem_eraseDups.2 hc)]
      simp [hc, List.removeAll]
    · rw [if_neg (mt List.mem_eraseDups.1 hc)]
      simp [hc, List.removeAll, List.eraseDups_cons]

theorem uniqueKinds_ofComponents : (ofComponents s cs).UniqueKinds := by
  unfold UniqueKinds
  rw [ofComponents_components]
  induction cs using List.reverseRecOn with
  | nil => exact List.nodup_nil
  | append_singleton cs c ih =>
    rw [foldl_put_append]
    exact nodup_kinds_put ih

/-- The component of each kind in a built node is the last one of that kind. -/
theorem componentOfKind?_ofComponents :
    (ofComponents s cs).componentOfKind? k = (cs.filter (·.kind == k)).getLast? := by
  unfold componentOfKind?
  rw [ofComponents_components]
  induction cs using List.reverseRecOn with
  | nil => rfl
  | append_singleton cs c ih =>
    rw [foldl_put_append, find?_put, ih, List.filter_append, List.getLast?_append]
    by_cases hk : c.kind = k <;> simp [hk]

/-- Two limits and an operator: the second limit takes the place of the first. -/
example : kinds (ofComponents .erased [.limit 1, .named .eq, .limit 2]).components = [.limit, .named] ∧
    (ofComponents .erased [.limit 1, .named .eq, .limit 2]).limit? = some 2 := by
  decide

theorem mem_ofComponents (h : c ∈ (ofComponents s cs).components) : c ∈ cs := by
  rw [ofComponents_components] at h
  induction cs using List.reverseRecOn with
  | nil => simp at h
  | append_singleton cs d ih =>
    rw [foldl_put_append] at h
    rcases mem_put h with h | rfl
    · exact List.mem_append_left _ (ih h)
    · simp

/-- Components of distinct kinds are put in order, each appended. -/
theorem foldl_put_of_nodup : ∀ {cs acc : List Component},
    (kinds (acc ++ cs)).Nodup → cs.foldl put acc = acc ++ cs
  | [], acc, _ => by simp
  | c :: cs, acc, h => by
    have hc : c.kind ∉ kinds acc := by
      intro hm
      simp only [kinds, List.map_append, List.map_cons] at h
      exact (List.nodup_append.1 h).2.2 _ hm _ List.mem_cons_self rfl
    rw [List.foldl_cons, put_of_not_mem hc, foldl_put_of_nodup (by simpa using h)]
    simp

/-- Rebuilding a node from its own components gives it back. -/
theorem ofComponents_self {n : Node} (h : n.UniqueKinds) : ofComponents n.source n.components = n := by
  cases n with
  | mk s cs =>
    unfold ofComponents
    rw [foldl_put_of_nodup (by rw [List.nil_append]; exact h)]
    rfl

end Build

/-! ### Trees -/

section Trees

variable {s : Origin} {cs : List Component} {ns : List Node} {m n : Node}

theorem walkComponents_cons (c : Component) (cs : List Component) :
    walkComponents (c :: cs) = walkList c.children ++ walkComponents cs := by
  cases c with
  | branch b ns => rw [walkComponents]; rfl
  | _ => rw [walkComponents] <;> simp [Component.children, walkList]

theorem mem_walkList : m ∈ walkList ns ↔ ∃ n ∈ ns, m ∈ walk n := by
  induction ns with
  | nil => simp [walkList]
  | cons n ns ih => rw [walkList, List.mem_append, ih]; simp

theorem mem_walkComponents : m ∈ walkComponents cs ↔ ∃ c ∈ cs, ∃ n ∈ c.children, m ∈ walk n := by
  induction cs with
  | nil => simp [walkComponents]
  | cons c cs ih => rw [walkComponents_cons, List.mem_append, mem_walkList, ih]; simp

/-- A tree is well formed when its root holds distinct kinds and every tree below it is well
formed. -/
theorem wellFormed_mk_iff :
    WellFormed (mk s cs) ↔ (kinds cs).Nodup ∧ ∀ c ∈ cs, ∀ n ∈ c.children, WellFormed n := by
  unfold WellFormed
  rw [walk]
  constructor
  · intro h
    refine ⟨h _ List.mem_cons_self, fun c hc n hn m hm => h m ?_⟩
    exact List.mem_cons_of_mem _ (mem_walkComponents.2 ⟨c, hc, n, hn, hm⟩)
  · rintro ⟨hroot, hbelow⟩ m hm
    rcases List.mem_cons.1 hm with rfl | hm
    · exact hroot
    · obtain ⟨c, hc, n, hn, hmn⟩ := mem_walkComponents.1 hm
      exact hbelow c hc n hn m hmn

theorem WellFormed.uniqueKinds (h : WellFormed n) : n.UniqueKinds := h n (by cases n; simp [walk])

/-- Below each component of a node lie smaller trees. -/
theorem sizeOf_lt_of_mem_children {c : Component} (hc : c ∈ cs) (hn : n ∈ c.children) :
    sizeOf n < sizeOf (mk s cs) := by
  cases c with
  | branch b ns =>
    have h1 := List.sizeOf_lt_of_mem hn
    have h2 := List.sizeOf_lt_of_mem hc
    simp only [Component.children] at h1
    simp only [mk.sizeOf_spec, Component.branch.sizeOf_spec] at h2 ⊢
    omega
  | _ => simp [Component.children] at hn

end Trees

/-! ### Operations that make nodes -/

section Operations

variable {s : Origin} {cs : List Component} {n : Node} {c : Component}

theorem wellFormed_ofComponents (h : ∀ c ∈ cs, ∀ m ∈ c.children, WellFormed m) :
    WellFormed (ofComponents s cs) := by
  have hkinds : (ofComponents s cs).UniqueKinds := uniqueKinds_ofComponents
  have hmem : ∀ c ∈ (ofComponents s cs).components, c ∈ cs := fun _ => mem_ofComponents
  rw [ofComponents, wellFormed_mk_iff]
  exact ⟨hkinds, fun c hc => h c (hmem c hc)⟩

/-- Adding a component keeps a tree well formed when the trees the component holds are. -/
theorem WellFormed.add (h : WellFormed n) (hc : ∀ m ∈ c.children, WellFormed m) :
    WellFormed (n.add c) := by
  cases n with
  | mk s cs =>
    rw [wellFormed_mk_iff] at h
    rw [Node.add, wellFormed_mk_iff]
    refine ⟨nodup_kinds_put h.1, fun d hd m hm => ?_⟩
    rcases mem_put hd with hd | rfl
    · exact h.2 d hd m hm
    · exact hc m hm

theorem WellFormed.withTargetCluster (h : WellFormed n) (version : String) :
    WellFormed (n.withTargetCluster version) :=
  h.add fun _ hm => by simp [Component.children] at hm

theorem WellFormed.withExplain (h : WellFormed n) (level : ExplainLevel) :
    WellFormed (n.withExplain level) :=
  h.add fun _ hm => by simp [Component.children] at hm

/-- A root whose components keep their kinds and the trees they hold is well formed with the
old one. -/
theorem WellFormed.of_kinds_children {s' : Origin} {cs' : List Component} (h : WellFormed (mk s cs))
    (hkinds : kinds cs' = kinds cs)
    (hchildren : cs'.map Component.children = cs.map Component.children) :
    WellFormed (mk s' cs') := by
  rw [wellFormed_mk_iff] at h ⊢
  refine ⟨hkinds ▸ h.1, fun c' hc' m hm => ?_⟩
  obtain ⟨c, hc, hcc⟩ := List.mem_map.1 (hchildren ▸ List.mem_map_of_mem hc' :
    c'.children ∈ cs.map Component.children)
  exact h.2 c hc m (hcc ▸ hm)

theorem kinds_injectSchema (sc : Schema) (cs : List Component) :
    kinds (injectSchema sc cs) = kinds cs := by
  fun_induction injectSchema sc cs <;> simp_all [Component.kind]

theorem children_injectSchema (sc : Schema) (cs : List Component) :
    (injectSchema sc cs).map Component.children = cs.map Component.children := by
  fun_induction injectSchema sc cs <;> simp_all [Component.children]

theorem WellFormed.withSchema (h : WellFormed n) (sc : Schema) : WellFormed (n.withSchema sc) := by
  cases n with
  | mk s cs => exact h.of_kinds_children (kinds_injectSchema sc cs) (children_injectSchema sc cs)

theorem WellFormed.withDatabase (h : WellFormed n) (db : String) :
    WellFormed (n.withDatabase db) := by
  cases n with
  | mk s cs =>
    -- only collection references change, and they keep their kind and hold no trees
    refine h.of_kinds_children ?_ ?_
    · unfold kinds
      rw [List.map_map]
      refine List.map_congr_left fun d _ => ?_
      cases d <;> rfl
    · rw [List.map_map]
      refine List.map_congr_left fun d _ => ?_
      cases d <;> rfl

end Operations

/-! ### Changing sources -/

section Sources

variable (f : Origin → Origin)

theorem mapSourceComponents_eq_map (cs : List Component) :
    mapSourceComponents f cs = cs.map (Component.mapSource f) := by
  induction cs with
  | nil => rfl
  | cons c cs ih => rw [mapSourceComponents, ih, List.map_cons]

theorem mapSourceList_eq_map (ns : List Node) : mapSourceList f ns = ns.map (mapSource f) := by
  induction ns with
  | nil => rfl
  | cons n ns ih => rw [mapSourceList, ih, List.map_cons]

@[simp] theorem kind_mapSource (c : Component) : (Component.mapSource f c).kind = c.kind := by
  cases c <;> rfl

theorem children_mapSource (c : Component) :
    (Component.mapSource f c).children = c.children.map (mapSource f) := by
  cases c with
  | branch b ns => rw [Component.mapSource, mapSourceList_eq_map]; rfl
  | _ => rfl

/-- Changing the sources keeps every node's kinds; the recursion follows the trees below. -/
theorem WellFormed.mapSource : ∀ {n : Node}, WellFormed n → WellFormed (n.mapSource f)
  | .mk s cs, h => by
    rw [wellFormed_mk_iff] at h
    rw [Node.mapSource, mapSourceComponents_eq_map, wellFormed_mk_iff]
    refine ⟨by simpa [kinds, Function.comp_def] using h.1, fun c' hc' m hm => ?_⟩
    obtain ⟨c, hc, rfl⟩ := List.mem_map.1 hc'
    rw [children_mapSource] at hm
    obtain ⟨m', hm', rfl⟩ := List.mem_map.1 hm
    exact WellFormed.mapSource (h.2 c hc m' hm')
termination_by n => sizeOf n
decreasing_by exact sizeOf_lt_of_mem_children hc hm'

end Sources

/-! ### Reading a node -/

theorem exists_of_mapM_eq_some {α β : Type} {f : β → Option α} :
    ∀ {l : List β} {ys : List α}, l.mapM f = some ys → ∀ y ∈ ys, ∃ x ∈ l, f x = some y
  | [], ys, h => by
    rw [List.mapM_nil] at h
    cases h
    simp
  | x :: l, ys, h => by
    rw [List.mapM_cons] at h
    simp only [bind, Option.bind_eq_some_iff, pure, Option.some.injEq] at h
    obtain ⟨y, hy, ys', hys', rfl⟩ := h
    intro z hz
    rcases List.mem_cons.1 hz with rfl | hz
    · exact ⟨x, List.mem_cons_self, hy⟩
    · obtain ⟨w, hw, hwz⟩ := exists_of_mapM_eq_some hys' z hz
      exact ⟨w, List.mem_cons_of_mem x hw, hwz⟩

theorem exists_of_mapArr_eq_some {α : Type} {f : Json → Option α} {j : Json} {ys : List α}
    (h : Json.mapArr f j = some ys) : ∀ y ∈ ys, ∃ x, f x = some y := by
  unfold Json.mapArr at h
  split at h
  next xs =>
    intro y hy
    obtain ⟨x, -, hx⟩ := exists_of_mapM_eq_some h y hy
    exact ⟨x, hx⟩
  next => cases h

/-- A node read from its interchange form is well formed, and so are the trees a component read
from it holds; the two readers call each other one level down. -/
theorem wellFormed_ofJson? (mode : SourceMode) : ∀ fuel : Nat,
    (∀ j n, Node.ofJson? mode fuel j = some n → WellFormed n) ∧
      (∀ j c, Component.ofJson? mode fuel j = some c → ∀ m ∈ c.children, WellFormed m)
  | 0 => ⟨fun _ _ h => by simp [Node.ofJson?] at h, fun _ _ h => by simp [Component.ofJson?] at h⟩
  | fuel + 1 => by
    obtain ⟨hnode, hcomp⟩ := wellFormed_ofJson? mode fuel
    constructor
    · intro j n h
      rw [Node.ofJson?] at h
      simp only [bind, Option.bind_eq_some_iff, pure, Option.some.injEq] at h
      obtain ⟨_, _, s, _, _, _, cs, hcs, rfl⟩ := h
      refine wellFormed_ofComponents fun c hc => ?_
      obtain ⟨jc, hjc⟩ := exists_of_mapArr_eq_some hcs c hc
      exact hcomp jc c hjc
    · intro j c h m hm
      -- only a branch holds trees, and those are read one level down
      cases c with
      | branch b ns =>
        rw [Component.ofJson?] at h
        simp only [bind, Option.bind_eq_some_iff] at h
        obtain ⟨⟨tag, body⟩, -, h⟩ := h
        split at h <;> simp only [Functor.map, Option.map_eq_some_iff, reduceCtorEq, and_false,
          exists_false, Option.bind_eq_some_iff, pure, Option.some.injEq, Component.branch.injEq] at h
        obtain ⟨_, _, _, _, ns', hns', _, rfl⟩ := h
        obtain ⟨jn, hjn⟩ := exists_of_mapArr_eq_some hns' m hm
        exact hnode jn m hjn
      | _ => simp [Component.children] at hm

/-! ### Main statement -/

/-- A node holds one component of each kind. Building a node keeps, for each kind, the last
component of that kind, at the place where the kind first occurs; every operation that makes a
node from another keeps every node of the tree so, as does reading one; and rebuilding a node
from its own components gives it back. -/
theorem components_unique :
    (∀ s cs, (ofComponents s cs).UniqueKinds ∧
      kinds (ofComponents s cs).components = (kinds cs).eraseDups ∧
      (∀ k, (ofComponents s cs).componentOfKind? k = (cs.filter (·.kind == k)).getLast?) ∧
      ((∀ c ∈ cs, ∀ m ∈ c.children, WellFormed m) → WellFormed (ofComponents s cs))) ∧
    (∀ n c, WellFormed n → (∀ m ∈ c.children, WellFormed m) → WellFormed (n.add c)) ∧
    (∀ n version, WellFormed n → WellFormed (n.withTargetCluster version)) ∧
    (∀ n level, WellFormed n → WellFormed (n.withExplain level)) ∧
    (∀ n sc, WellFormed n → WellFormed (n.withSchema sc)) ∧
    (∀ n db, WellFormed n → WellFormed (n.withDatabase db)) ∧
    (∀ n f, WellFormed n → WellFormed (n.mapSource f)) ∧
    (∀ mode fuel j n, Node.ofJson? mode fuel j = some n → WellFormed n) ∧
    (∀ n, WellFormed n → ofComponents n.source n.components = n) := by
  refine ⟨fun s cs => ⟨uniqueKinds_ofComponents, kinds_ofComponents,
    fun _ => componentOfKind?_ofComponents, wellFormed_ofComponents⟩, ?_, ?_, ?_, ?_, ?_, ?_, ?_, ?_⟩
  · exact fun _ _ h hc => h.add hc
  · exact fun _ version h => h.withTargetCluster version
  · exact fun _ level h => h.withExplain level
  · exact fun _ sc h => h.withSchema sc
  · exact fun _ db h => h.withDatabase db
  · exact fun _ f h => h.mapSource f
  · exact fun mode fuel j n h => (wellFormed_ofJson? mode fuel).1 j n h
  · exact fun _ h => ofComponents_self h.uniqueKinds

end Node

end QueryScope
