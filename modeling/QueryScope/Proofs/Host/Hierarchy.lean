import Mathlib.Data.List.Chain
import Mathlib.Data.List.Nodup
import QueryScope.Proofs.Host.SyntaxGraph
/-!
# Class hierarchies

`Program.hierarchy` climbs from a class through the superclasses its program declares. A
superclass is named, and the first class of that name is taken (`classByName?`), so a program
may declare one name twice and the links may run into a cycle through any class, the start
included. The climb stops at a class with no superclass in the program, or at one whose
superclass is already on the chain; the number of classes bounds its steps.

Main statement (`Program.hierarchy_walk`): for every program and class the hierarchy

* is an `Ascent`: it starts at the class, has no repeats, and each class after the first is
  the superclass of the class before it;
* `Halts`: its last class has no superclass or one already on the chain, so the bound on the
  steps never cuts the climb short (`climb_spec`: with one step per class left, a new
  superclass would make the chain longer than the program has classes);

so `inSameHierarchy` is reflexive and symmetric. Where each class lists its methods once, and
only methods that name it as their class (`OwnsMethods`, which every program a builder makes
has: `Builder.Reachable.ownsMethods`), `constructorsWithInherited` lists every constructor of
the chain once, those of nearer classes first.
-/

namespace QueryScope

namespace Program

variable {p : Program}

/-! ### Superclass links -/

/-- A superclass is a class of the program. -/
theorem superclass?_lt {c s : Nat} (h : p.superclass? c = some s) : s < p.classes.size := by
  obtain ⟨name, -, hname⟩ := Option.bind_eq_some_iff.1 h
  exact List.mem_range.1 (List.mem_of_find?_eq_some hname)

/-- A chain climbing superclass links from a class: it starts at the class, has no repeats,
and each class after the first is the superclass of the class before it. -/
structure Ascent (p : Program) (c : Nat) (l : List Nat) : Prop where
  head : l.head? = some c
  nodup : l.Nodup
  links : l.IsChain fun a b => p.superclass? a = some b

/-- The climb stopped for its own reason: the last class has no superclass in the program, or
its superclass is already on the chain. -/
def Halts (p : Program) (l : List Nat) : Prop :=
  ∀ last ∈ l.getLast?, ∀ s, p.superclass? last = some s → s ∈ l

theorem ascent_start (c : Nat) : p.Ascent c [c] :=
  ⟨rfl, List.pairwise_singleton _ c, .singleton c⟩

/-- Every class reached through a link is a class of the program. -/
theorem lt_of_mem_tail {l : List Nat} (h : l.IsChain fun a b => p.superclass? a = some b) :
    ∀ x ∈ l.tail, x < p.classes.size := by
  induction h with
  | nil => simp
  | singleton => simp
  | cons_cons hr _ ih =>
    intro x hx
    rcases List.mem_cons.1 hx with rfl | hx
    · exact superclass?_lt hr
    · exact ih x hx

namespace Ascent

variable {c : Nat} {l : List Nat}

/-- One step of the climb: a superclass not yet on the chain goes at its end. -/
theorem snoc (h : p.Ascent c l) {cur s : Nat} (hlast : l.getLast? = some cur)
    (hs : p.superclass? cur = some s) (hnew : s ∉ l) : p.Ascent c (l ++ [s]) := by
  refine ⟨by simp [List.head?_append, h.head], ?_, ?_⟩
  · exact List.nodup_append.2 ⟨h.nodup, List.pairwise_singleton _ s,
      fun a ha b hb => by rw [List.mem_singleton.1 hb]; exact ne_of_mem_of_not_mem ha hnew⟩
  · refine h.links.append (.singleton s) fun x hx y hy => ?_
    rw [hlast, Option.mem_some_iff] at hx
    rw [List.head?_singleton, Option.mem_some_iff] at hy
    rw [← hx, ← hy]
    exact hs

/-- A chain that misses some class of the program has at most as many classes as the
program: after its start, all of them are classes of the program, and distinct. -/
theorem length_le (h : p.Ascent c l) {s : Nat} (hs : s < p.classes.size) (hnew : s ∉ l) :
    l.length ≤ p.classes.size := by
  obtain ⟨t, rfl⟩ := List.head?_eq_some_iff.1 h.head
  have hsub : s :: t ⊆ List.range p.classes.size := by
    intro x hx
    rcases List.mem_cons.1 hx with rfl | hx
    · exact List.mem_range.2 hs
    · exact List.mem_range.2 (lt_of_mem_tail h.links x hx)
  have hnodup : (s :: t).Nodup :=
    List.nodup_cons.2 ⟨fun hst => hnew (List.mem_cons_of_mem c hst), (List.nodup_cons.1 h.nodup).2⟩
  simpa using hnodup.length_le_of_subset hsub

end Ascent

/-- A chain halts once the superclass of its last class, if any, is on it. -/
theorem halts_of_getLast {l : List Nat} {cur : Nat} (hlast : l.getLast? = some cur)
    (h : ∀ s, p.superclass? cur = some s → s ∈ l) : p.Halts l := by
  intro last hl
  rw [hlast, Option.mem_some_iff] at hl
  exact hl ▸ h

/-- The climb keeps an ascent an ascent, and with at least one step for each class not yet on
the chain it halts for its own reason. -/
theorem climb_spec {c : Nat} : ∀ (fuel cur : Nat) (l : List Nat), p.Ascent c l →
    l.getLast? = some cur → p.classes.size + 1 ≤ l.length + fuel →
    p.Ascent c (p.climb fuel cur l) ∧ p.Halts (p.climb fuel cur l)
  | 0, cur, l, h, hlast, hfuel => by
    show p.Ascent c l ∧ p.Halts l
    refine ⟨h, halts_of_getLast hlast fun s hs => ?_⟩
    -- no step is left, so a new superclass would not fit among the program's classes
    by_contra hnew
    have := h.length_le (superclass?_lt hs) hnew
    omega
  | fuel + 1, cur, l, h, hlast, hfuel => by
    rw [climb]
    cases hs : p.superclass? cur with
    | none =>
      refine ⟨h, halts_of_getLast hlast fun s hs' => ?_⟩
      rw [hs] at hs'
      cases hs'
    | some s =>
      dsimp only
      by_cases hmem : s ∈ l
      · rw [if_pos (by simpa using hmem)]
        refine ⟨h, halts_of_getLast hlast fun s' hs' => ?_⟩
        rw [hs] at hs'
        exact Option.some.inj hs' ▸ hmem
      · rw [if_neg (by simpa using hmem)]
        exact climb_spec fuel s (l ++ [s]) (h.snoc hlast hs hmem) (by simp)
          (by simp only [List.length_append, List.length_singleton]; omega)

/-- The climb from a class, with one step per class of the program, is an ascent that halts. -/
theorem hierarchy_spec (p : Program) (c : Nat) :
    p.Ascent c (p.hierarchy c) ∧ p.Halts (p.hierarchy c) :=
  climb_spec _ c [c] (ascent_start c) rfl (by simp only [List.length_singleton]; omega)

theorem hierarchy_ascent (p : Program) (c : Nat) : p.Ascent c (p.hierarchy c) :=
  (p.hierarchy_spec c).1

theorem mem_hierarchy_self (p : Program) (c : Nat) : c ∈ p.hierarchy c :=
  List.mem_of_mem_head? (p.hierarchy_ascent c).head

theorem inSameHierarchy_refl (p : Program) (a : Nat) : p.inSameHierarchy a a = true := by
  simp [inSameHierarchy, mem_hierarchy_self]

theorem inSameHierarchy_comm (p : Program) (a b : Nat) :
    p.inSameHierarchy a b = p.inSameHierarchy b a :=
  Bool.or_comm _ _

/-! ### Constructors along the hierarchy -/

/-- Each class lists its methods once, and lists only methods of the program that name it as
their class. -/
structure OwnsMethods (p : Program) : Prop where
  nodup : ∀ c, (p.cls c).methods.Nodup
  owner : ∀ c, ∀ m ∈ (p.cls c).methods, m < p.methods.size ∧ (p.method m).cls = c

/-- In a list without repeats, an item that comes first has the smaller index. -/
theorem pairwise_idxOf_lt {l : List Nat} (h : l.Nodup) :
    l.Pairwise fun a b => l.idxOf a < l.idxOf b :=
  List.pairwise_iff_getElem.2 fun i j hi hj hij => by
    rw [h.idxOf_getElem i hi, h.idxOf_getElem j hj]
    exact hij

namespace OwnsMethods

variable (h : p.OwnsMethods)
include h

theorem cls_of_mem_constructors {c m : Nat} (hm : m ∈ p.constructors c) : (p.method m).cls = c :=
  (h.owner c m (List.mem_filter.1 hm).1).2

/-- Constructors of distinct classes are distinct methods, and each class lists its own once. -/
theorem nodup_constructorsWithInherited (c : Nat) : (p.constructorsWithInherited c).Nodup := by
  rw [constructorsWithInherited, List.nodup_flatMap]
  refine ⟨fun k _ => (h.nodup k).filter _, ?_⟩
  refine (p.hierarchy_ascent c).nodup.imp fun {a b} hab => ?_
  exact List.disjoint_left.2 fun {m} ha hb =>
    hab ((h.cls_of_mem_constructors ha).symm.trans (h.cls_of_mem_constructors hb))

/-- The constructors come in the order of their classes along the hierarchy. -/
theorem constructorsWithInherited_nearest_first (c : Nat) :
    (p.constructorsWithInherited c).Pairwise fun m m' =>
      (p.hierarchy c).idxOf (p.method m).cls ≤ (p.hierarchy c).idxOf (p.method m').cls := by
  rw [constructorsWithInherited, List.pairwise_flatMap]
  refine ⟨fun k _ => List.pairwise_of_forall_mem_list fun m hm m' hm' => ?_, ?_⟩
  · rw [h.cls_of_mem_constructors hm, h.cls_of_mem_constructors hm']
  · refine (pairwise_idxOf_lt (p.hierarchy_ascent c).nodup).imp fun {a b} hab => ?_
    intro m hm m' hm'
    rw [h.cls_of_mem_constructors hm, h.cls_of_mem_constructors hm']
    exact hab.le

end OwnsMethods

/-! ### Programs a builder makes -/

/-- What a later program keeps of an earlier one's methods: the method list of every class, and
the class of every method made so far. -/
structure MethodFrame (p p' : Program) : Prop where
  lists : ∀ c, (p'.cls c).methods = (p.cls c).methods
  size_le : p.methods.size ≤ p'.methods.size
  cls_eq : ∀ m < p.methods.size, (p'.method m).cls = (p.method m).cls

namespace MethodFrame

variable {p' : Program}

theorem of_eq (hc : p'.classes = p.classes) (hm : p'.methods = p.methods) : MethodFrame p p' :=
  ⟨fun c => by simp [cls, hc], hm ▸ le_rfl, fun m _ => by simp [method, hm]⟩

/-- Changing a class without touching its method list. -/
theorem of_classes_modify {c : Nat} {f : Class → Class} (hc : p'.classes = p.classes.modify c f)
    (hm : p'.methods = p.methods) (hf : ∀ k, (f k).methods = k.methods) : MethodFrame p p' := by
  refine ⟨fun d => ?_, hm ▸ le_rfl, fun m _ => by simp [method, hm]⟩
  simp only [cls, hc, Array.getElem?_modify]
  split
  · cases p.classes[d]? <;> simp [hf]
  · rfl

/-- Adding a class with no methods. -/
theorem of_classes_push {k : Class} (hk : k.methods = []) (hc : p'.classes = p.classes.push k)
    (hm : p'.methods = p.methods) : MethodFrame p p' := by
  refine ⟨fun d => ?_, hm ▸ le_rfl, fun m _ => by simp [method, hm]⟩
  simp only [cls, hc, Array.getElem?_push]
  split
  · next hd => simp [hd, hk, default]
  · rfl

/-- Changing a method without touching its class. -/
theorem of_methods_modify {m : Nat} {f : Method → Method} (hm : p'.methods = p.methods.modify m f)
    (hc : p'.classes = p.classes) (hf : ∀ k, (f k).cls = k.cls) : MethodFrame p p' := by
  refine ⟨fun d => by simp [cls, hc], by simp [hm], fun n _ => ?_⟩
  simp only [method, hm, Array.getElem?_modify]
  split
  · cases p.methods[n]? <;> simp [hf]
  · rfl

theorem trans {p'' : Program} (h : MethodFrame p p') (h' : MethodFrame p' p'') :
    MethodFrame p p'' :=
  ⟨fun c => (h'.lists c).trans (h.lists c), le_trans h.size_le h'.size_le,
    fun m hm => (h'.cls_eq m (lt_of_lt_of_le hm h.size_le)).trans (h.cls_eq m hm)⟩

end MethodFrame

theorem OwnsMethods.frame {p' : Program} (h : p.OwnsMethods) (hf : MethodFrame p p') :
    p'.OwnsMethods := by
  refine ⟨fun c => hf.lists c ▸ h.nodup c, fun c m hm => ?_⟩
  rw [hf.lists] at hm
  obtain ⟨hlt, hcls⟩ := h.owner c m hm
  exact ⟨lt_of_lt_of_le hlt hf.size_le, (hf.cls_eq m hlt).trans hcls⟩

end Program

namespace Builder

open Program

/-- An action that keeps every class's method list and the class of every method. -/
def KeepsMethods {α : Type} (x : Building α) : Prop :=
  ∀ b, MethodFrame b.program (Id.run (x.run b)).2.program

namespace KeepsMethods

theorem pure {α : Type} (a : α) : KeepsMethods (Pure.pure a : Building α) :=
  fun _ => .of_eq rfl rfl

theorem bind {α β : Type} {x : Building α} {f : α → Building β} (hx : KeepsMethods x)
    (hf : ∀ a, KeepsMethods (f a)) : KeepsMethods (x >>= f) :=
  fun b => (hx b).trans (hf (Id.run (x.run b)).1 (Id.run (x.run b)).2)

theorem forIn {α β : Type} (l : List α) (init : β) {f : α → β → Building (ForInStep β)}
    (hf : ∀ a r, KeepsMethods (f a r)) : KeepsMethods (ForIn.forIn l init f) := by
  induction l generalizing init with
  | nil => exact .pure _
  | cons a l ih =>
    rw [List.forIn_cons]
    refine (hf a init).bind fun step => ?_
    cases step with
    | done r => exact .pure r
    | yield r => exact ih r

end KeepsMethods

theorem keepsMethods_pushField (f : Field) : KeepsMethods (pushField f) :=
  fun b => .of_classes_modify (f := fun k => { k with fields := k.fields ++ [b.program.fields.size] })
    rfl rfl fun _ => rfl

theorem keepsMethods_enumeration (file : Nat) (name : String) (constants : List String) :
    KeepsMethods (enumeration file name constants) :=
  KeepsMethods.bind (fun _ => .of_classes_push rfl rfl rfl) fun _ =>
    (KeepsMethods.forIn _ _ fun _ _ =>
      (keepsMethods_pushField _).bind fun _ => .pure _).bind fun _ => .pure _

theorem keepsMethods_pushStmt (k : StmtKind) : KeepsMethods (pushStmt k) := by
  -- a statement goes into the body of the current method, if there is one
  rintro ⟨prog, owner, next⟩
  rcases owner with _ | ⟨m⟩ | ⟨c⟩
  · exact .of_eq rfl rfl
  · exact .of_methods_modify (f := fun k => { k with body := k.body ++ [prog.stmts.size] })
      rfl rfl fun _ => rfl
  · exact .of_eq rfl rfl

theorem keepsMethods_declareLocal (name : String) (t : HostType) (init : Option Nat) :
    KeepsMethods (declareLocal name t init) := by
  rintro ⟨prog, owner, next⟩
  rcases owner with _ | ⟨m⟩ | ⟨c⟩
  · exact .of_eq rfl rfl
  · exact .of_methods_modify (f := fun k => { k with body := k.body ++ [prog.stmts.size] })
      rfl rfl fun _ => rfl
  · exact .of_eq rfl rfl

section PushMethod

variable (b : Builder) (c : Nat) (name : String) (ret : Option HostType) (ctor : Bool)

/-- Declaring a method appends its id, the next one, to the list of its class, if the class
exists. -/
theorem cls_methods_pushMethod (d : Nat) :
    ((Id.run ((pushMethod c name ret ctor).run b)).2.program.cls d).methods =
      (b.program.cls d).methods ++
        if c = d ∧ d < b.program.classes.size then [b.program.methods.size] else [] := by
  show ((b.program.classes.modify c _)[d]?.getD default).methods = _
  rw [Array.getElem?_modify]
  by_cases hcd : c = d
  · subst hcd
    by_cases hc : c < b.program.classes.size <;> simp [Program.cls, hc]
  · simp [Program.cls, hcd]

theorem method_pushMethod_of_lt {m : Nat} (hm : m < b.program.methods.size) :
    (Id.run ((pushMethod c name ret ctor).run b)).2.program.method m = b.program.method m := by
  show ((b.program.methods.push _)[m]?).getD default = _
  rw [Array.getElem?_push, if_neg (Nat.ne_of_lt hm)]
  rfl

theorem method_pushMethod_self :
    ((Id.run ((pushMethod c name ret ctor).run b)).2.program.method b.program.methods.size).cls = c := by
  show (((b.program.methods.push _)[b.program.methods.size]?).getD default).cls = c
  rw [Array.getElem?_push, if_pos rfl]
  rfl

/-- Declaring a method appends its fresh id to its class's list. -/
theorem ownsMethods_pushMethod (h : b.program.OwnsMethods) :
    (Id.run ((pushMethod c name ret ctor).run b)).2.program.OwnsMethods := by
  -- the new id is the number of methods so far, which no class lists yet
  have hfresh : ∀ d, b.program.methods.size ∉ (b.program.cls d).methods :=
    fun d hm => Nat.lt_irrefl _ (h.owner d _ hm).1
  have hsize : (Id.run ((pushMethod c name ret ctor).run b)).2.program.methods.size =
      b.program.methods.size + 1 := Array.size_push _
  refine ⟨fun d => ?_, fun d m hm => ?_⟩
  · rw [cls_methods_pushMethod]
    refine List.nodup_append.2 ⟨h.nodup d, by split <;> simp, fun x hx y hy => ?_⟩
    split at hy
    · rw [List.mem_singleton.1 hy]
      exact ne_of_mem_of_not_mem hx (hfresh d)
    · cases hy
  · rw [cls_methods_pushMethod, List.mem_append] at hm
    rw [hsize]
    rcases hm with hm | hm
    · obtain ⟨hlt, hcls⟩ := h.owner d m hm
      exact ⟨Nat.lt_succ_of_lt hlt, (method_pushMethod_of_lt b c name ret ctor hlt).symm ▸ hcls⟩
    · split at hm
      · next hcd =>
        rw [List.mem_singleton.1 hm]
        exact ⟨Nat.lt_succ_self _, (method_pushMethod_self b c name ret ctor).trans hcd.1⟩
      · cases hm

end PushMethod

/-- Every builder call keeps each class's method list its own. -/
theorem ownsMethods_exec {b : Builder} (h : b.program.OwnsMethods) (c : BuildCall) :
    (c.exec b).program.OwnsMethods := by
  cases c with
  | method cl n r => exact ownsMethods_pushMethod b cl n r false h
  | constructor cl => exact ownsMethods_pushMethod b cl _ none true h
  | declareClass f n k => exact h.frame (.of_classes_push rfl rfl rfl)
  | enumeration f n ks => exact h.frame (keepsMethods_enumeration f n ks b)
  | extend cl parent =>
    exact h.frame (.of_classes_modify (f := fun k => { k with superclass := some parent })
      rfl rfl fun _ => rfl)
  | annotate cl n xs =>
    exact h.frame (.of_classes_modify (f := fun k => { k with annotations := k.annotations ++ [⟨n, xs⟩] })
      rfl rfl fun _ => rfl)
  | field _ _ _ | finalField _ _ _ _ => exact h.frame (keepsMethods_pushField _ b)
  | param m n t =>
    exact h.frame (.of_methods_modify (f := fun k => { k with params := k.params ++ [b.program.vars.size] })
      rfl rfl fun _ => rfl)
  | varargs m =>
    exact h.frame (.of_methods_modify (f := fun k => { k with isVarargs := true }) rfl rfl fun _ => rfl)
  | declareLocal n t i => exact h.frame (keepsMethods_declareLocal n t i b)
  | ret _ | exprStmt _ | assignField _ _ | assignLocal _ _ =>
    -- a statement leaves classes and methods as they are
    exact h.frame (keepsMethods_pushStmt _ b)
  | _ => exact h.frame (.of_eq rfl rfl)

/-- Every program a builder makes lists each method once, under the class it names. -/
theorem Reachable.ownsMethods {b : Builder} (hb : Reachable b) : b.program.OwnsMethods := by
  induction hb with
  | new => exact ⟨fun c => by simp [Program.cls, default], fun c m hm => by simp [Program.cls, default] at hm⟩
  | resume _ ih => exact ih
  | step c _ _ ih => exact ownsMethods_exec ih c

end Builder

/-! ### The hierarchy of a class -/

/-- The hierarchy of a class in any program climbs superclass links without repeats and stops
only where the loop stops, so being in one hierarchy is reflexive and symmetric; in a program
whose classes own their methods, as a builder makes them, the inherited constructors are each
listed once, those of nearer classes first. -/
theorem Program.hierarchy_walk (p : Program) (c : Nat) :
    p.Ascent c (p.hierarchy c) ∧ p.Halts (p.hierarchy c) ∧
    (∀ a, p.inSameHierarchy a a = true) ∧
    (∀ a b, p.inSameHierarchy a b = p.inSameHierarchy b a) ∧
    (p.OwnsMethods →
      (∀ m, m ∈ p.constructorsWithInherited c ↔ ∃ k ∈ p.hierarchy c, m ∈ p.constructors k) ∧
      (p.constructorsWithInherited c).Nodup ∧
      (p.constructorsWithInherited c).Pairwise fun m m' =>
        (p.hierarchy c).idxOf (p.method m).cls ≤ (p.hierarchy c).idxOf (p.method m').cls) :=
  ⟨(p.hierarchy_spec c).1, (p.hierarchy_spec c).2, p.inSameHierarchy_refl, p.inSameHierarchy_comm,
    fun h => ⟨fun _ => List.mem_flatMap, h.nodup_constructorsWithInherited c,
      h.constructorsWithInherited_nearest_first c⟩⟩

namespace Builder

/-- Three classes with a constructor each: `A` extends `B`, `B` extends `A`, and a second class
named `A` extends `A`, which names the first. -/
def cyclicClasses : Builder :=
  (BuildCall.constructor 2).exec <| (BuildCall.constructor 1).exec <|
    (BuildCall.constructor 0).exec <| (BuildCall.extend 2 "A").exec <|
      (BuildCall.extend 1 "A").exec <| (BuildCall.extend 0 "B").exec <|
        (BuildCall.declareClass 0 "A" .plain).exec <| (BuildCall.declareClass 0 "B" .plain).exec <|
          (BuildCall.declareClass 0 "A" .plain).exec <| (BuildCall.file "A.java").exec {}

theorem reachable_cyclicClasses : Reachable cyclicClasses :=
  Reachable.new |>.exec _ rfl |>.exec _ rfl |>.exec _ rfl |>.exec _ rfl |>.exec _ rfl |>.exec _ rfl
    |>.exec _ rfl |>.exec _ rfl |>.exec _ rfl |>.exec _ rfl

theorem hierarchy_walk_cyclicClasses :
    cyclicClasses.program.OwnsMethods ∧
    (cyclicClasses.program.Ascent 2 (cyclicClasses.program.hierarchy 2) ∧
      cyclicClasses.program.Halts (cyclicClasses.program.hierarchy 2) ∧
      (∀ a, cyclicClasses.program.inSameHierarchy a a = true) ∧
      (∀ a b, cyclicClasses.program.inSameHierarchy a b = cyclicClasses.program.inSameHierarchy b a) ∧
      (cyclicClasses.program.OwnsMethods →
        (∀ m, m ∈ cyclicClasses.program.constructorsWithInherited 2 ↔
          ∃ k ∈ cyclicClasses.program.hierarchy 2, m ∈ cyclicClasses.program.constructors k) ∧
        (cyclicClasses.program.constructorsWithInherited 2).Nodup ∧
        (cyclicClasses.program.constructorsWithInherited 2).Pairwise fun m m' =>
          (cyclicClasses.program.hierarchy 2).idxOf (cyclicClasses.program.method m).cls ≤
            (cyclicClasses.program.hierarchy 2).idxOf (cyclicClasses.program.method m').cls)) := by
  have h := Program.hierarchy_walk cyclicClasses.program 2
  exact ⟨reachable_cyclicClasses.ownsMethods, h⟩

example : cyclicClasses.program.hierarchy 2 = [2, 0, 1] ∧
    cyclicClasses.program.constructorsWithInherited 2 = [2, 0, 1] := by
  decide

end Builder

end QueryScope
