import Mathlib.Logic.Relation
import QueryScope.Host.Builder
/-!
# The syntax graph a builder makes

A program's expressions form a graph: `children` leads down to sub-expressions, `parent?` up to
the expression that last took an expression as a sub-expression. The builder appends each
expression after the sub-expressions it names and points their parent links at it, so every
program it makes is `BottomUp`: a child comes before its parent, a parent link points to a
later expression holding the child, and positions increase with ids.

`stripParens`, `root` and `descendants` carry guards (`inner < id`, `id < q`, `c < id`) that
make them total on any program. On a bottom-up program the guards always pass: the walks are
the unguarded ones (`BottomUp.stripParens_paren`, `BottomUp.root_of_parent`,
`BottomUp.descendants_eq`), `root` ends at an expression with no parent, and `descendants` is
the pre-order enumeration of what the children reach.

`Builder.Sound` adds to this that the next position is past every expression's. Each builder
call keeps it (`Builder.Sound.exec`), so every builder reached by calls from a new builder, or
from one resuming such a program, has a well-founded syntax graph
(`Builder.Reachable.wellFounded_syntaxGraph`).
-/

namespace QueryScope

namespace Program

variable {p : Program}

/-- The syntax graph as the builder makes it. -/
structure BottomUp (p : Program) : Prop where
  /-- A sub-expression comes before the expression holding it. -/
  child_lt : ∀ e c, c ∈ p.children e → c < e
  /-- The parent recorded for an expression holds it, and comes after it. -/
  parent_mem : ∀ c q, p.parent? c = some q → c ∈ p.children q ∧ c < q
  /-- Source positions increase with ids. -/
  offset_lt : ∀ i j, i < j → j < p.exprs.size → (p.expr i).offset < (p.expr j).offset

theorem children_eq_kind (p : Program) (e : Nat) :
    p.children e = Builder.ExprKind.children (p.expr e).kind := by
  unfold children
  generalize (p.expr e).kind = k
  cases k <;> rfl

/-- Only an expression of the program has children. -/
theorem lt_size_of_mem_children {q x : Nat} (hx : x ∈ p.children q) : q < p.exprs.size := by
  refine Nat.lt_of_not_le fun hge => ?_
  have hnone : p.exprs[q]? = none := Array.getElem?_eq_none hge
  simp [children, expr, hnone, default] at hx

theorem stripParens_of_paren {x inner : Nat} (hk : (p.expr x).kind = .paren inner)
    (hlt : inner < x) : p.stripParens x = p.stripParens inner := by
  rw [stripParens, hk]
  exact if_pos hlt

theorem stripParens_of_not_paren {x : Nat}
    (h : ∀ inner, (p.expr x).kind = .paren inner → ¬ inner < x) : p.stripParens x = x := by
  rw [stripParens]
  split
  · next inner hk => exact if_neg (h inner hk)
  · rfl

/-- An expression that is no parenthesis is its own innermost expression. -/
theorem stripParens_of_kind {e : Nat} {k : ExprKind} (hk : (p.expr e).kind = k)
    (hnot : ∀ inner, k ≠ .paren inner) : p.stripParens e = e :=
  stripParens_of_not_paren fun inner hi => absurd (hk ▸ hi) (hnot inner)

namespace BottomUp

variable (h : p.BottomUp)
include h

theorem wellFounded_child : WellFounded fun c e => c ∈ p.children e :=
  Subrelation.wf (fun hc => h.child_lt _ _ hc) (measure id).wf

theorem wellFounded_parent : WellFounded fun q c => p.parent? c = some q := by
  -- the parent comes after its child and within the program
  refine Subrelation.wf (r := InvImage (· < ·) fun x => p.exprs.size - x) ?_ (measure _).wf
  intro q c hq
  obtain ⟨hmem, hlt⟩ := h.parent_mem c q hq
  have hsize := lt_size_of_mem_children hmem
  show p.exprs.size - q < p.exprs.size - c
  omega

theorem stripParens_paren {e inner : Nat} (hk : (p.expr e).kind = .paren inner) :
    p.stripParens e = p.stripParens inner :=
  stripParens_of_paren hk (h.child_lt e inner (by simp [children, hk]))

theorem stripParens_not_paren (e inner : Nat) : (p.expr (p.stripParens e)).kind ≠ .paren inner := by
  induction e using Program.stripParens.induct p with
  | case1 e inner' hk _ ih => rwa [h.stripParens_paren hk]
  | case2 e inner' hk hge =>
    -- a parenthesis holds an earlier expression
    exact absurd (h.child_lt e inner' (by simp [children, hk])) hge
  | case3 e hk =>
    rw [stripParens_of_kind rfl (fun i => hk i)]
    exact hk inner

/-- The climb through parents follows each parent link. -/
theorem root_of_parent {c q : Nat} (hq : p.parent? c = some q) : p.root c = p.root q := by
  obtain ⟨hmem, hlt⟩ := h.parent_mem c q hq
  rw [root, hq]
  exact if_pos ⟨hlt, lt_size_of_mem_children hmem⟩

/-- The climb through parents ends at an expression with no parent, reached from the start by
parent links. -/
theorem root_spec (e : Nat) : p.parent? (p.root e) = none ∧
    Relation.ReflTransGen (fun c q => p.parent? c = some q) e (p.root e) := by
  induction e using Program.root.induct p with
  | case1 c q hq _ ih =>
    rw [h.root_of_parent hq]
    exact ⟨ih.1, .head hq ih.2⟩
  | case2 c q hq hnot =>
    -- a parent link always points up and into the program
    obtain ⟨hmem, hlt⟩ := h.parent_mem c q hq
    exact absurd ⟨hlt, lt_size_of_mem_children hmem⟩ hnot
  | case3 c hnone =>
    rw [root, hnone]
    exact ⟨hnone, .refl⟩

/-- An expression's descendants are the expression, then the descendants of each child in
order. -/
theorem descendants_eq (e : Nat) :
    p.descendants e = e :: (p.children e).flatMap p.descendants := by
  rw [descendants, List.flatMap_def, List.flatMap_def]
  congr 2
  rw [← List.attach_map_val (f := p.descendants)]
  apply List.map_congr_left
  intro ⟨c, hc⟩ _
  simp [h.child_lt e c hc]

/-- The descendants of an expression are what its children lead to. -/
theorem mem_descendants_iff (e c : Nat) :
    c ∈ p.descendants e ↔ Relation.ReflTransGen (fun e c => c ∈ p.children e) e c := by
  induction e using h.wellFounded_child.induction with
  | _ e ih =>
    rw [h.descendants_eq, Relation.ReflTransGen.cases_head_iff, List.mem_cons, List.mem_flatMap]
    constructor
    · rintro (rfl | ⟨d, hd, hc⟩)
      · exact .inl rfl
      · exact .inr ⟨d, hd, (ih d hd).1 hc⟩
    · rintro (rfl | ⟨d, hd, hc⟩)
      · exact .inl rfl
      · exact .inr ⟨d, hd, (ih d hd).2 hc⟩

end BottomUp

end Program

namespace Builder

variable {b b' : Builder}

/-- A builder whose program is a bottom-up syntax graph, with its next position past every
expression's. -/
structure Sound (b : Builder) : Prop where
  bottomUp : b.program.BottomUp
  offset_lt_next : ∀ i < b.program.exprs.size, (b.program.expr i).offset < b.offset

/-- Two builders whose expressions agree in number, shape, parent and position, with the same
next position. -/
structure SameGraph (b b' : Builder) : Prop where
  size_eq : b'.program.exprs.size = b.program.exprs.size
  kind_eq : ∀ i, (b'.program.expr i).kind = (b.program.expr i).kind
  parent_eq : ∀ i, (b'.program.expr i).parent = (b.program.expr i).parent
  offset_eq : ∀ i, (b'.program.expr i).offset = (b.program.expr i).offset
  next_eq : b'.offset = b.offset

theorem SameGraph.of_exprs (h : b'.program.exprs = b.program.exprs) (ho : b'.offset = b.offset) :
    SameGraph b b' := by
  have he : ∀ i, b'.program.expr i = b.program.expr i := fun i => by simp [Program.expr, h]
  exact ⟨by rw [h], fun i => by rw [he], fun i => by rw [he], fun i => by rw [he], ho⟩

theorem Sound.of_sameGraph (hs : Sound b) (hg : SameGraph b b') : Sound b' := by
  have hchildren : ∀ e, b'.program.children e = b.program.children e := fun e => by
    rw [Program.children_eq_kind, Program.children_eq_kind, hg.kind_eq]
  have hparent : ∀ c, b'.program.parent? c = b.program.parent? c := hg.parent_eq
  refine ⟨⟨?_, ?_, ?_⟩, ?_⟩
  · intro e c hc
    rw [hchildren] at hc
    exact hs.bottomUp.child_lt e c hc
  · intro c q hq
    rw [hparent] at hq
    rw [hchildren]
    exact hs.bottomUp.parent_mem c q hq
  · intro i j hij hj
    rw [hg.offset_eq, hg.offset_eq]
    exact hs.bottomUp.offset_lt i j hij (hg.size_eq ▸ hj)
  · intro i hi
    rw [hg.offset_eq, hg.next_eq]
    exact hs.offset_lt_next i (hg.size_eq ▸ hi)

/-! ### Adding an expression -/

/-- Making each listed expression's parent `q`. -/
theorem getElem?_foldl_parent (cs : List Nat) (q i : Nat) (arr : Array Expr) :
    (cs.foldl (fun es c => es.modify c fun e => { e with parent := some q }) arr)[i]? =
      arr[i]?.map fun e => if i ∈ cs then { e with parent := some q } else e := by
  induction cs generalizing arr with
  | nil => simp
  | cons c cs ih =>
    rw [List.foldl_cons, ih, Array.getElem?_modify]
    by_cases hci : c = i
    · subst hci
      cases arr[c]? <;> simp
    · cases arr[i]? <;> simp [hci, Ne.symm hci]

theorem size_foldl_parent (cs : List Nat) (q : Nat) (arr : Array Expr) :
    (cs.foldl (fun es c => es.modify c fun e => { e with parent := some q }) arr).size = arr.size := by
  induction cs generalizing arr with
  | nil => rfl
  | cons c cs ih => rw [List.foldl_cons, ih, Array.size_modify]

section PushExpr

variable (b : Builder) (k : ExprKind)

theorem getElem?_pushExpr (i : Nat) :
    (Id.run ((pushExpr k).run b)).2.program.exprs[i]? =
      (b.program.exprs.push { kind := k, owner := b.owner, offset := b.offset })[i]?.map fun e =>
        if i ∈ ExprKind.children k then { e with parent := some b.program.exprs.size } else e :=
  getElem?_foldl_parent _ _ _ _

theorem size_pushExpr :
    (Id.run ((pushExpr k).run b)).2.program.exprs.size = b.program.exprs.size + 1 :=
  (size_foldl_parent _ _ _).trans (Array.size_push _)

theorem expr_pushExpr_of_lt {i : Nat} (hi : i < b.program.exprs.size) :
    (Id.run ((pushExpr k).run b)).2.program.expr i =
      if i ∈ ExprKind.children k then { b.program.expr i with parent := some b.program.exprs.size }
      else b.program.expr i := by
  rw [Program.expr, getElem?_pushExpr, Array.getElem?_push, if_neg (by omega)]
  simp [Program.expr, Array.getElem?_eq_getElem hi]

theorem expr_pushExpr_self (hk : ∀ c ∈ ExprKind.children k, c < b.program.exprs.size) :
    (Id.run ((pushExpr k).run b)).2.program.expr b.program.exprs.size =
      { kind := k, owner := b.owner, offset := b.offset } := by
  have hnot : b.program.exprs.size ∉ ExprKind.children k := fun h => absurd (hk _ h) (Nat.lt_irrefl _)
  rw [Program.expr, getElem?_pushExpr, Array.getElem?_push, if_pos rfl]
  simp [hnot]

theorem expr_pushExpr_of_gt {i : Nat} (hi : b.program.exprs.size < i) :
    (Id.run ((pushExpr k).run b)).2.program.expr i = default := by
  rw [Program.expr, getElem?_pushExpr, Array.getElem?_push, if_neg (by omega),
    Array.getElem?_eq_none (by omega)]
  rfl

theorem next_pushExpr : (Id.run ((pushExpr k).run b)).2.offset = b.offset + 1 := rfl

/-- Below the new expression, shapes and positions stay; only parents may change. -/
theorem kind_offset_pushExpr_of_lt {i : Nat} (hi : i < b.program.exprs.size) :
    ((Id.run ((pushExpr k).run b)).2.program.expr i).kind = (b.program.expr i).kind ∧
      ((Id.run ((pushExpr k).run b)).2.program.expr i).offset = (b.program.expr i).offset := by
  rw [expr_pushExpr_of_lt b k hi]
  split <;> exact ⟨rfl, rfl⟩

/-- Adding an expression whose sub-expressions exist keeps the syntax graph bottom-up. -/
theorem sound_pushExpr {b : Builder} {k : ExprKind} (hs : Sound b)
    (hk : ∀ c ∈ ExprKind.children k, c < b.program.exprs.size) :
    Sound (Id.run ((pushExpr k).run b)).2 := by
  have hself := expr_pushExpr_self b k hk
  have hgt := fun {i} (hi : b.program.exprs.size < i) => expr_pushExpr_of_gt b k hi
  have hchildren : ∀ e < b.program.exprs.size,
      (Id.run ((pushExpr k).run b)).2.program.children e = b.program.children e := fun e he => by
    rw [Program.children_eq_kind, Program.children_eq_kind, (kind_offset_pushExpr_of_lt b k he).1]
  refine ⟨⟨?_, ?_, ?_⟩, ?_⟩
  · -- the new expression's sub-expressions exist already; the others are as they were
    intro e c hc
    rcases Nat.lt_trichotomy e b.program.exprs.size with he | rfl | he
    · rw [hchildren e he] at hc
      exact hs.bottomUp.child_lt e c hc
    · rw [Program.children_eq_kind, hself] at hc
      exact hk c hc
    · rw [Program.children_eq_kind, hgt he] at hc
      simp [default, ExprKind.children] at hc
  · -- a sub-expression of the new expression now names it as parent
    intro c q hq
    simp only [Program.parent?] at hq
    rcases Nat.lt_trichotomy c b.program.exprs.size with hc | rfl | hc
    · rw [expr_pushExpr_of_lt b k hc] at hq
      split at hq
      · next hmem =>
        cases hq
        rw [Program.children_eq_kind, hself]
        exact ⟨hmem, hc⟩
      · obtain ⟨hmem, hlt⟩ := hs.bottomUp.parent_mem c q hq
        rw [hchildren q (Program.lt_size_of_mem_children hmem)]
        exact ⟨hmem, hlt⟩
    · rw [hself] at hq
      cases hq
    · rw [hgt hc] at hq
      cases hq
  · intro i j hij hj
    rw [size_pushExpr] at hj
    rw [(kind_offset_pushExpr_of_lt b k (by omega)).2]
    rcases Nat.lt_or_ge j b.program.exprs.size with hj' | hj'
    · rw [(kind_offset_pushExpr_of_lt b k hj').2]
      exact hs.bottomUp.offset_lt i j hij hj'
    · obtain rfl : j = b.program.exprs.size := by omega
      rw [hself]
      exact hs.offset_lt_next i hij
  · intro i hi
    rw [size_pushExpr] at hi
    rw [next_pushExpr]
    rcases Nat.lt_or_ge i b.program.exprs.size with hi' | hi'
    · rw [(kind_offset_pushExpr_of_lt b k hi').2]
      exact Nat.lt_succ_of_lt (hs.offset_lt_next i hi')
    · obtain rfl : i = b.program.exprs.size := by omega
      rw [hself]
      exact Nat.lt_succ_self _

end PushExpr

/-! ### Calls that make no expression -/

/-- An action that leaves the expressions and the next position alone. -/
def KeepsExprs {α : Type} (x : Building α) : Prop :=
  ∀ b, (Id.run (x.run b)).2.program.exprs = b.program.exprs ∧ (Id.run (x.run b)).2.offset = b.offset

namespace KeepsExprs

theorem pure {α : Type} (a : α) : KeepsExprs (Pure.pure a : Building α) := fun _ => ⟨rfl, rfl⟩

theorem bind {α β : Type} {x : Building α} {f : α → Building β} (hx : KeepsExprs x)
    (hf : ∀ a, KeepsExprs (f a)) : KeepsExprs (x >>= f) := by
  intro b
  obtain ⟨hexprs, hnext⟩ := hx b
  obtain ⟨hexprs', hnext'⟩ := hf (Id.run (x.run b)).1 (Id.run (x.run b)).2
  exact ⟨hexprs'.trans hexprs, hnext'.trans hnext⟩

theorem discard {α : Type} {x : Building α} (hx : KeepsExprs x) :
    KeepsExprs (Functor.discard x) := hx

theorem forIn {α β : Type} (l : List α) (init : β) {f : α → β → Building (ForInStep β)}
    (hf : ∀ a r, KeepsExprs (f a r)) : KeepsExprs (ForIn.forIn l init f) := by
  induction l generalizing init with
  | nil => exact .pure _
  | cons a l ih =>
    rw [List.forIn_cons]
    refine (hf a init).bind fun step => ?_
    cases step with
    | done r => exact .pure r
    | yield r => exact ih r

end KeepsExprs

theorem keepsExprs_pushStmt (k : StmtKind) : KeepsExprs (pushStmt k) := by
  -- with or without a current method
  rintro ⟨prog, owner, next⟩
  rcases owner with _ | ⟨m⟩ | ⟨c⟩ <;> exact ⟨rfl, rfl⟩

theorem keepsExprs_declareLocal (name : String) (t : HostType) (init : Option Nat) :
    KeepsExprs (declareLocal name t init) := by
  rintro ⟨prog, owner, next⟩
  rcases owner with _ | ⟨m⟩ | ⟨c⟩ <;> exact ⟨rfl, rfl⟩

theorem keepsExprs_enumeration (file : Nat) (name : String) (constants : List String) :
    KeepsExprs (enumeration file name constants) :=
  KeepsExprs.bind (fun _ => ⟨rfl, rfl⟩) fun _ =>
    (KeepsExprs.forIn _ _ fun _ _ => KeepsExprs.bind (fun _ => ⟨rfl, rfl⟩) fun _ => .pure _).bind
      fun _ => .pure _

theorem Sound.keeps {α : Type} {x : Building α} (hs : Sound b) (hx : KeepsExprs x) :
    Sound (Id.run (x.run b)).2 :=
  hs.of_sameGraph (.of_exprs (hx b).1 (hx b).2)

/-- Recording a static type changes no shape, parent or position. -/
theorem sound_typed (hs : Sound b) (e : Nat) (t : HostType) :
    Sound (Id.run ((typed e t).run b)).2 := by
  have hexpr : ∀ i, ∃ ty, (Id.run ((typed e t).run b)).2.program.expr i =
      { b.program.expr i with type? := ty } := by
    intro i
    show ∃ ty, ((b.program.exprs.modify e _)[i]?).getD default = _
    rw [Array.getElem?_modify]
    split
    · cases h : b.program.exprs[i]? with
      | none => exact ⟨none, by simp [Program.expr, h]; rfl⟩
      | some x => exact ⟨some t, by simp [Program.expr, h]⟩
    · exact ⟨(b.program.expr i).type?, rfl⟩
  refine hs.of_sameGraph ⟨Array.size_modify, ?_, ?_, ?_, rfl⟩ <;>
    (intro i; obtain ⟨ty, h⟩ := hexpr i; rw [h])

/-! ### Sequences of builder calls -/

/-- A call of the builder, with its arguments. The calls that make an expression name its
sub-expressions by the ids earlier calls returned. -/
inductive BuildCall where
  | file (path : String)
  | declareClass (file : Nat) (name : String) (kind : ClassKind)
  | enumeration (file : Nat) (name : String) (constants : List String)
  | extend (cls : Nat) (parent : String)
  | annotate (cls : Nat) (name : String) (args : List (String × Nat))
  | field (cls : Nat) (name : String) (type : HostType)
  | finalField (cls : Nat) (name : String) (type : HostType) (init : Option Nat)
  | setInitializer (field init : Nat)
  | enter (method : Nat)
  | enterClass (cls : Nat)
  | method (cls : Nat) (name : String) (ret : Option HostType)
  | constructor (cls : Nat)
  | param (method : Nat) (name : String) (type : HostType)
  | varargs (method : Nat)
  | declareLocal (name : String) (type : HostType) (init : Option Nat)
  | ret (value : Nat)
  | exprStmt (e : Nat)
  | assignField (field value : Nat)
  | assignLocal (var value : Nat)
  | literal (l : Literal)
  | localRef (var : Nat)
  | fieldRef (field : Nat)
  | typeRef (name : String)
  | paren (inner : Nat)
  | call (recv : Nat) (decl name : String) (args : List Nat)
  | staticCall (decl name : String) (args : List Nat)
  | unresolvedCall (recv : Option Nat) (name : String) (args : List Nat)
  | invoke (recv : Option Nat) (method : Nat) (args : List Nat)
  | superCall (ctor : Nat) (args : List Nat)
  | newObject (type : HostType) (args : List Nat)
  | newInstance (ctor : Nat) (args : List Nat)
  | classLiteral (type : HostType)
  | array (items : List Nat)
  | typed (e : Nat) (type : HostType)

namespace BuildCall

/-- Make the call, dropping the id it returns. -/
def run : BuildCall → Building Unit
  | .file p => discard (Builder.file p)
  | .declareClass f n k => discard (Builder.declareClass f n k)
  | .enumeration f n ks => discard (Builder.enumeration f n ks)
  | .extend c p => Builder.extend c p
  | .annotate c n xs => Builder.annotate c n xs
  | .field c n t => discard (Builder.field c n t)
  | .finalField c n t i => discard (Builder.finalField c n t i)
  | .setInitializer f i => Builder.setInitializer f i
  | .enter m => Builder.enter m
  | .enterClass c => Builder.enterClass c
  | .method c n r => discard (Builder.method c n r)
  | .constructor c => discard (Builder.constructor c)
  | .param m n t => discard (Builder.param m n t)
  | .varargs m => Builder.varargs m
  | .declareLocal n t i => discard (Builder.declareLocal n t i)
  | .ret v => discard (Builder.ret v)
  | .exprStmt e => discard (Builder.exprStmt e)
  | .assignField f v => discard (Builder.assignField f v)
  | .assignLocal x v => discard (Builder.assignLocal x v)
  | .literal l => discard (Builder.literal l)
  | .localRef x => discard (Builder.localRef x)
  | .fieldRef f => discard (Builder.fieldRef f)
  | .typeRef n => discard (Builder.typeRef n)
  | .paren e => discard (Builder.paren e)
  | .call r d n xs => discard (Builder.call r d n xs)
  | .staticCall d n xs => discard (Builder.staticCall d n xs)
  | .unresolvedCall r n xs => discard (Builder.unresolvedCall r n xs)
  | .invoke r m xs => discard (Builder.invoke r m xs)
  | .superCall c xs => discard (Builder.superCall c xs)
  | .newObject t xs => discard (Builder.newObject t xs)
  | .newInstance c xs => discard (Builder.newInstance c xs)
  | .classLiteral t => discard (Builder.classLiteral t)
  | .array xs => discard (Builder.array xs)
  | .typed e t => Builder.typed e t

/-- The builder after the call. -/
def exec (c : BuildCall) (b : Builder) : Builder := (Id.run (c.run.run b)).2

/-- The expressions the call makes sub-expressions of the one it makes. -/
def subExprs : BuildCall → List Nat
  | .paren e => [e]
  | .call r _ _ xs => r :: xs
  | .staticCall _ _ xs => xs
  | .unresolvedCall r _ xs => r.toList ++ xs
  | .invoke r _ xs => r.toList ++ xs
  | .superCall _ xs => xs
  | .newObject _ xs => xs
  | .newInstance _ xs => xs
  | .array xs => xs
  | _ => []

end BuildCall

/-- Every call keeps the syntax graph bottom-up, when the sub-expressions it names exist. -/
theorem Sound.exec (hs : Sound b) (c : BuildCall)
    (hc : ∀ i ∈ c.subExprs, i < b.program.exprs.size) : Sound (c.exec b) := by
  have hsub : ∀ k : ExprKind, (∀ i ∈ ExprKind.children k, i ∈ c.subExprs) →
      ∀ i ∈ ExprKind.children k, i < b.program.exprs.size := fun _ hk i hi => hc i (hk i hi)
  cases c with
  | enumeration f n ks => exact hs.keeps (keepsExprs_enumeration f n ks).discard
  | declareLocal n t i => exact hs.keeps (keepsExprs_declareLocal n t i).discard
  | ret _ | exprStmt _ | assignField _ _ | assignLocal _ _ =>
    -- a statement leaves the expressions as they are
    exact hs.keeps (keepsExprs_pushStmt _).discard
  | typed e type => exact sound_typed hs e type
  | literal _ | localRef _ | fieldRef _ | typeRef _ | classLiteral _ =>
    -- a leaf: no children to check
    exact sound_pushExpr hs (by simp [ExprKind.children])
  | paren _ | call _ _ _ _ | unresolvedCall _ _ _ | invoke _ _ _ | superCall _ _
  | newObject _ _ | newInstance _ _ | array _ =>
    -- the children of the new expression are exactly the sub-expressions the call names
    exact sound_pushExpr hs (hsub _ (by simp [ExprKind.children, BuildCall.subExprs]))
  | staticCall decl name args =>
    -- the type receiver first, then the call on it
    have hrecv := sound_pushExpr (k := .reference (.typeName decl)) hs (by simp [ExprKind.children])
    refine sound_pushExpr hrecv fun i hi => lt_of_lt_of_eq ?_ (size_pushExpr b _).symm
    simp only [ExprKind.children, Option.toList_some, List.singleton_append, List.mem_cons] at hi
    rcases hi with rfl | hi
    · exact Nat.lt_succ_self _
    · exact Nat.lt_succ_of_lt (hc i hi)
  | _ => exact hs.keeps fun _ => ⟨rfl, rfl⟩

/-! ### Reachable builders -/

theorem sound_new : Sound {} :=
  ⟨⟨fun e c hc => absurd (Program.lt_size_of_mem_children hc) (Nat.not_lt_zero _),
    fun c q hq => by simp [Program.parent?, Program.expr, default] at hq,
    fun _ _ _ hj => absurd hj (Nat.not_lt_zero _)⟩,
   fun _ hi => absurd hi (Nat.not_lt_zero _)⟩

/-- The next position of a resumed program is past its start and every position in it. -/
theorem foldl_offset_bound (l : List Expr) (start : Nat) :
    start ≤ l.foldl (fun m e => max m (e.offset + 1)) start ∧
      ∀ e ∈ l, e.offset < l.foldl (fun m e => max m (e.offset + 1)) start := by
  induction l generalizing start with
  | nil => simp
  | cons x l ih =>
    obtain ⟨hstart, hmem⟩ := ih (max start (x.offset + 1))
    simp only [List.foldl_cons]
    refine ⟨Nat.le_trans (Nat.le_max_left _ _) hstart, fun e he => ?_⟩
    rcases List.mem_cons.1 he with rfl | he
    · exact Nat.lt_of_lt_of_le (Nat.lt_of_succ_le (Nat.le_max_right _ _)) hstart
    · exact hmem e he

theorem sound_ofProgram {p : Program} (hp : p.BottomUp) : Sound (ofProgram p) := by
  refine ⟨hp, fun i (hi : i < p.exprs.size) => ?_⟩
  show (p.expr i).offset < p.exprs.foldl (fun m e => max m (e.offset + 1)) 0
  rw [← Array.foldl_toList]
  refine (foldl_offset_bound _ _).2 _ ?_
  simp [Program.expr, Array.getElem?_eq_getElem hi]

/-- The builders that sequences of calls reach, from a new builder or from one that resumes a
program built so, each call naming as sub-expressions only expressions made before it. -/
inductive Reachable : Builder → Prop
  | new : Reachable {}
  | resume {b : Builder} : Reachable b → Reachable (ofProgram b.program)
  | step {b : Builder} (c : BuildCall) : Reachable b →
      (∀ i ∈ c.subExprs, i < b.program.exprs.size) → Reachable (c.exec b)

/-- A call that names no sub-expression can be made on any reachable builder. -/
theorem Reachable.exec {b : Builder} (hb : Reachable b) (c : BuildCall) (hc : c.subExprs = []) :
    Reachable (c.exec b) :=
  .step c hb fun _ hi => by simp [hc] at hi

theorem Reachable.sound {b : Builder} (hb : Reachable b) : Sound b := by
  induction hb with
  | new => exact sound_new
  | resume _ ih => exact sound_ofProgram ih.bottomUp
  | step c _ hc ih => exact ih.exec c hc

/-- A built program is a well-founded syntax graph: sub-expressions come first, parent links
point up to an expression holding the child, positions increase. The walks down through
children and up through parents are well-founded, so the guards of `stripParens`, `root` and
`descendants` never cut a walk short: parentheses are stripped to the innermost expression,
`root` climbs every parent link to an expression with no parent, and `descendants` is the
pre-order enumeration of what the children reach. -/
theorem Reachable.wellFounded_syntaxGraph {b : Builder} (hb : Reachable b) :
    b.program.BottomUp ∧
      WellFounded (fun c e => c ∈ b.program.children e) ∧
      WellFounded (fun q c => b.program.parent? c = some q) ∧
      (∀ e inner, (b.program.expr e).kind = .paren inner →
        b.program.stripParens e = b.program.stripParens inner) ∧
      (∀ e inner, (b.program.expr (b.program.stripParens e)).kind ≠ .paren inner) ∧
      (∀ c q, b.program.parent? c = some q → b.program.root c = b.program.root q) ∧
      (∀ e, b.program.parent? (b.program.root e) = none) ∧
      (∀ e, b.program.descendants e = e :: (b.program.children e).flatMap b.program.descendants) ∧
      (∀ e c, c ∈ b.program.descendants e ↔
        Relation.ReflTransGen (fun e c => c ∈ b.program.children e) e c) := by
  have h := hb.sound.bottomUp
  exact ⟨h, h.wellFounded_child, h.wellFounded_parent, fun _ _ => h.stripParens_paren,
    h.stripParens_not_paren, fun _ _ => h.root_of_parent, fun e => (h.root_spec e).1,
    h.descendants_eq, h.mem_descendants_iff⟩

/-- A parenthesised string under a static call, as a method body builds it. -/
def notOfParen : Builder :=
  (BuildCall.staticCall "com.mongodb.client.model.Filters" "not" [1]).exec <|
    (BuildCall.paren 0).exec <| (BuildCall.literal (.string "a")).exec <|
      (BuildCall.method 0 "find" none).exec <|
        (BuildCall.declareClass 0 "com.example.Repo" .plain).exec <|
          (BuildCall.file "Repo.java").exec {}

theorem reachable_notOfParen : Reachable notOfParen :=
  .step _ (.step _ (.step _ (.step _ (.step _ (.step _ .new (by decide)) (by decide))
    (by decide)) (by decide)) (by decide)) (by decide)

theorem wellFounded_syntaxGraph_notOfParen : Reachable notOfParen ∧
    (notOfParen.program.BottomUp ∧
      WellFounded (fun c e => c ∈ notOfParen.program.children e) ∧
      WellFounded (fun q c => notOfParen.program.parent? c = some q) ∧
      (∀ e inner, (notOfParen.program.expr e).kind = .paren inner →
        notOfParen.program.stripParens e = notOfParen.program.stripParens inner) ∧
      (∀ e inner, (notOfParen.program.expr (notOfParen.program.stripParens e)).kind ≠ .paren inner) ∧
      (∀ c q, notOfParen.program.parent? c = some q →
        notOfParen.program.root c = notOfParen.program.root q) ∧
      (∀ e, notOfParen.program.parent? (notOfParen.program.root e) = none) ∧
      (∀ e, notOfParen.program.descendants e =
        e :: (notOfParen.program.children e).flatMap notOfParen.program.descendants) ∧
      (∀ e c, c ∈ notOfParen.program.descendants e ↔
        Relation.ReflTransGen (fun e c => c ∈ notOfParen.program.children e) e c)) :=
  ⟨reachable_notOfParen, Reachable.wellFounded_syntaxGraph reachable_notOfParen⟩

example : notOfParen.program.descendants 3 = [3, 2, 1, 0] ∧ notOfParen.program.root 0 = 3 ∧
    notOfParen.program.stripParens 1 = 0 := by decide +kernel

end Builder

end QueryScope
