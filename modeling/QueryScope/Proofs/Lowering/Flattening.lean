import Mathlib.Data.Finset.Card
import Mathlib.Logic.Relation
import QueryScope.Lowering.Driver.Builders
import QueryScope.Lowering.Criteria.Query
/-!
# Flattening nested combinators, and when it ends

Lowering flattens nested combinator calls (`Projections.fields` and `Sorts.orderBy` of the
driver, `Fields.fields` and `Fields.from` of Spring) by recursing into their arguments with no
depth counter of its own. Each argument is followed through variables, fields and helper
methods to the call that built it, so the calls met can lead back to one already being
flattened, and then the recursion does not end.

The criteria anchor recurses the same way, from a `match` criteria to the first `match`
criteria of the pipeline holding it, and a criteria shared by two pipelines can send it back
and forth between them.

A `Flattening` names such a recursion: the combinator call an expression resolves to, and the
expressions that call's arguments give. `Flattening.closes n e` says the recursion from `e`
ends within `n` levels, and `Flattening.Returns e` that it ends at some depth. It returns exactly
when no cycle is reachable from `e` (`returns_iff_not_cyclic`), and then within one level per
combinator call of the program, since a longer path meets some call twice
(`closes_of_not_cyclic`).
-/

namespace QueryScope

/-- A recursion through nested combinator calls, with a bound on the calls it can meet. -/
structure Flattening where
  /-- The combinator call an expression resolves to, when it resolves to one. -/
  call : Nat → Option Nat
  /-- The expressions the arguments of a combinator call give. -/
  args : Nat → List Nat
  /-- Every combinator call is below this bound. -/
  bound : Nat
  call_lt : ∀ e k, call e = some k → k < bound

namespace Flattening

variable (F : Flattening)

/-- The expressions the recursion visits right below one. -/
def kids (e : Nat) : List Nat :=
  match F.call e with
  | some k => F.args k
  | none => []

/-- Whether the recursion from an expression ends within a number of levels. -/
def closes : Nat → Nat → Bool
  | 0, _ => false
  | n + 1, e => (F.kids e).all (closes n)

/-- One step of the recursion. -/
def Kid (e e' : Nat) : Prop := e' ∈ F.kids e

/-- The recursion from an expression ends. -/
def Returns (e : Nat) : Prop := ∃ n, F.closes n e = true

/-- The recursion from an expression meets an expression that leads back to itself. -/
def Cyclic (e : Nat) : Prop :=
  ∃ c, Relation.ReflTransGen F.Kid e c ∧ Relation.TransGen F.Kid c c

variable {F}

theorem closes_succ {n e : Nat} : F.closes (n + 1) e = true ↔ ∀ k ∈ F.kids e, F.closes n k = true := by
  simp [closes]

/-- Two expressions resolving to one combinator call have the same arguments. -/
theorem kids_eq_of_call_eq {e e' : Nat} {k : Nat} (h : F.call e = some k) (h' : F.call e' = some k) :
    F.kids e = F.kids e' := by
  simp [kids, h, h']

theorem closes_mono {n m : Nat} (hnm : n ≤ m) {e : Nat} (h : F.closes n e = true) :
    F.closes m e = true := by
  induction n generalizing m e with
  | zero => simp [closes] at h
  | succ n ih =>
    obtain ⟨m, rfl⟩ : ∃ m', m = m' + 1 := ⟨m - 1, by omega⟩
    rw [closes_succ] at h ⊢
    exact fun k hk => ih (by omega) (h k hk)

/-! ### A cycle never closes -/

/-- An expression from which a cyclic one is reachable never closes. -/
theorem closes_eq_false_of_reaches {c : Nat} (hc : Relation.TransGen F.Kid c c) :
    ∀ n e, Relation.ReflTransGen F.Kid e c → F.closes n e = false := by
  -- every expression leading to the cycle has a kid that leads to it too
  have hnext : ∀ e, Relation.ReflTransGen F.Kid e c → ∃ k ∈ F.kids e, Relation.ReflTransGen F.Kid k c := by
    intro e he
    rcases Relation.ReflTransGen.cases_head he with rfl | ⟨k, hk, hkc⟩
    · obtain ⟨k, hk, hkc⟩ := Relation.TransGen.head'_iff.1 hc
      exact ⟨k, hk, hkc⟩
    · exact ⟨k, hk, hkc⟩
  intro n
  induction n with
  | zero => intro e _; rfl
  | succ n ih =>
    intro e he
    obtain ⟨k, hk, hkc⟩ := hnext e he
    cases hclose : F.closes (n + 1) e
    · rfl
    · rw [closes_succ] at hclose
      have := hclose k hk
      rw [ih k hkc] at this
      cases this

theorem not_returns_of_cyclic {e : Nat} (h : F.Cyclic e) : ¬ F.Returns e := by
  obtain ⟨c, hec, hc⟩ := h
  rintro ⟨n, hn⟩
  rw [closes_eq_false_of_reaches hc n e hec] at hn
  cases hn

/-! ### Without a cycle, the calls of the program bound the depth -/

/-- With no cycle reachable, the recursion ends within one level per combinator call: a kid
meets fewer calls than its parent, since meeting the parent's call again would close a cycle. -/
theorem closes_of_not_cyclic {e : Nat} (h : ¬ F.Cyclic e) : F.closes (F.bound + 1) e = true := by
  classical
  -- the combinator calls met from an expression on
  let met : Nat → Finset Nat := fun x =>
    (Finset.range F.bound).filter fun k => ∃ c, Relation.ReflTransGen F.Kid x c ∧ F.call c = some k
  have hmet : ∀ x k, F.call x = some k → k ∈ met x := fun x k hk =>
    Finset.mem_filter.2 ⟨Finset.mem_range.2 (F.call_lt x k hk), x, .refl, hk⟩
  have hsub : ∀ x d, d ∈ F.kids x → met d ⊆ met x := by
    intro x d hd k hk
    obtain ⟨hlt, c, hdc, hck⟩ := Finset.mem_filter.1 hk
    exact Finset.mem_filter.2 ⟨hlt, c, Relation.ReflTransGen.head hd hdc, hck⟩
  have hfresh : ∀ x k, Relation.ReflTransGen F.Kid e x → F.call x = some k →
      ∀ d ∈ F.kids x, k ∉ met d := by
    intro x k hx hk d hd hmem
    obtain ⟨-, c, hdc, hck⟩ := Finset.mem_filter.1 hmem
    -- a call met below `d` that is `x`'s own has `d` among its kids: a cycle through `d`
    have hcd : F.Kid c d := by
      show d ∈ F.kids c
      rw [kids_eq_of_call_eq hck hk]
      exact hd
    exact h ⟨d, hx.tail hd, Relation.TransGen.tail' hdc hcd⟩
  suffices hclose : ∀ m x, Relation.ReflTransGen F.Kid e x → (met x).card ≤ m →
      F.closes (m + 1) x = true from
    hclose F.bound e .refl ((Finset.card_filter_le _ _).trans (Finset.card_range _).le)
  intro m
  induction m with
  | zero =>
    intro x _ hcard
    cases hk : F.call x with
    | none => simp [closes, kids, hk]
    | some k =>
      have hpos := Finset.card_pos.2 ⟨k, hmet x k hk⟩
      omega
  | succ m ih =>
    intro x hx hcard
    rw [closes_succ]
    intro d hd
    cases hk : F.call x with
    | none => simp [kids, hk] at hd
    | some k =>
      have hlt : (met d).card < (met x).card :=
        Finset.card_lt_card ((Finset.ssubset_iff_of_subset (hsub x d hd)).2
          ⟨k, hmet x k hk, hfresh x k hx hk d hd⟩)
      exact ih d (hx.tail hd) (by omega)

/-- The recursion from an expression ends exactly when no cycle is reachable from it. -/
theorem returns_iff_not_cyclic {e : Nat} : F.Returns e ↔ ¬ F.Cyclic e :=
  ⟨fun h hc => not_returns_of_cyclic hc h, fun h => ⟨_, closes_of_not_cyclic h⟩⟩

/-- When the recursion ends, it ends within the bound. -/
theorem closes_bound_of_returns {e : Nat} (h : F.Returns e) : F.closes (F.bound + 1) e = true :=
  closes_of_not_cyclic (returns_iff_not_cyclic.1 h)

/-- A function computed by the recursion cut at some depth, which looks at the kids of an
expression only one level down, does not depend on the cut once the recursion closes. -/
theorem eq_of_closes {β : Type} {f : Nat → Nat → β}
    (hstep : ∀ n m e, (∀ k ∈ F.kids e, f n k = f m k) → f (n + 1) e = f (m + 1) e) :
    ∀ {n e}, F.closes n e = true → ∀ m, n ≤ m → f m e = f n e := by
  intro n
  induction n with
  | zero => intro e h; simp [closes] at h
  | succ n ih =>
    intro e h m hnm
    obtain ⟨m, rfl⟩ : ∃ m', m = m' + 1 := ⟨m - 1, by omega⟩
    rw [closes_succ] at h
    exact hstep m n e fun k hk => ih (h k hk) m (by omega)

end Flattening

/-- Only an expression of the program is a call. -/
theorem Program.lt_size_of_call? {p : Program} {id : Nat} {c : Call} (h : p.call? id = some c) :
    id < p.exprs.size := by
  by_contra hge
  have hnone : p.exprs[id]? = none := Array.getElem?_eq_none (by omega)
  simp [Program.call?, Program.expr, hnone, default] at h

/-- Monadic maps agree on a list where their functions agree. -/
theorem List.mapM_congr_mem {m : Type → Type} [Monad m] [LawfulMonad m] {α β : Type}
    {f g : α → m β} : ∀ {l : List α}, (∀ x ∈ l, f x = g x) → l.mapM f = l.mapM g
  | [], _ => rfl
  | x :: xs, h => by
    rw [List.mapM_cons, List.mapM_cons, h x List.mem_cons_self,
      List.mapM_congr_mem fun y hy => h y (List.mem_cons_of_mem x hy)]

namespace Driver

theorem call?_of_builderCall? {r : Resolver} {types : List String} {e id : Nat} {c : Call}
    (h : builderCall? r types e = some (id, c)) : r.program.call? id = some c := by
  simp only [builderCall?, Option.bind_eq_bind, Option.bind_eq_some_iff, Option.pure_def,
    Option.some.injEq, Prod.mk.injEq] at h
  obtain ⟨found, -, c', hc', rfl, rfl⟩ := h
  exact hc'

/-- The flattening of a factory combinator: an expression leading to a call of `name` declared
by `type` is flattened into the fragments that call's arguments give. -/
def flattening (r : Resolver) (type name : String) : Flattening where
  call e :=
    match builderCall? r [type] e with
    | some (id, c) => if c.name = name then some id else none
    | none => none
  args k :=
    match r.program.call? k with
    | some c => varargs r c.args
    | none => []
  bound := r.program.exprs.size
  call_lt e k h := by
    split at h
    · next id c hb =>
      split at h
      · cases h
        exact Program.lt_size_of_call? (call?_of_builderCall? hb)
      · cases h
    · cases h

theorem kids_flattening {r : Resolver} {type name : String} {e id : Nat} {c : Call}
    (hb : builderCall? r [type] e = some (id, c)) (hn : c.name = name) :
    (flattening r type name).kids e = varargs r c.args := by
  simp [Flattening.kids, flattening, hb, hn, call?_of_builderCall? hb]

/-- One level of `projections` looks below an expression only at its kids. -/
theorem projections_step (r : Resolver) (n m e : Nat)
    (h : ∀ k ∈ (flattening r DriverName.projections "fields").kids e,
      projections r n k = projections r m k) :
    projections r (n + 1) e = projections r (m + 1) e := by
  simp only [projections]
  cases hb : builderCall? r [DriverName.projections] e with
  | none => rfl
  | some p =>
    obtain ⟨id, c⟩ := p
    by_cases hn : c.name = "fields"
    · rw [kids_flattening hb hn] at h
      simp only [hn]
      rw [List.mapM_congr_mem h]
    · -- the other methods build their fragments without recursing
      simp only
      split
      · next hs => exact absurd hs hn
      all_goals rfl

/-- One level of `sorts` looks below an expression only at its kids. -/
theorem sorts_step (r : Resolver) (n m e : Nat)
    (h : ∀ k ∈ (flattening r DriverName.sorts "orderBy").kids e, sorts r n k = sorts r m k) :
    sorts r (n + 1) e = sorts r (m + 1) e := by
  simp only [sorts]
  cases hb : builderCall? r [DriverName.sorts] e with
  | none => rfl
  | some p =>
    obtain ⟨id, c⟩ := p
    by_cases hn : c.name = "orderBy"
    · rw [kids_flattening hb hn] at h
      simp only [hn]
      rw [List.mapM_congr_mem h]
    · simp only
      split
      · next hs => exact absurd hs hn
      all_goals rfl

end Driver

namespace Criteria

/-- The flattening of `Fields.fields` and `Fields.from`: an argument leading to either call is
flattened into the operands of its arguments. -/
def fieldsFlattening (r : Resolver) : Flattening where
  call arg :=
    match r.resolveUntil arg (isFieldsCall r.program) with
    | some id =>
      match r.program.call? id with
      | some c => if c.name = "fields" ∨ c.name = "from" then some id else none
      | none => none
    | none => none
  args k :=
    match r.program.call? k with
    | some c => operands r c.args
    | none => []
  bound := r.program.exprs.size
  call_lt arg k h := by
    split at h
    · split at h
      · next c hc =>
        split at h
        · cases h
          exact Program.lt_size_of_call? hc
        · cases h
      · cases h
    · cases h

/-- The field names of a list of arguments do not depend on the cut once the recursion closes
from each of its operands. -/
theorem fieldNamesFrom_eq_of_closes (r : Resolver) :
    ∀ {n} {args : List Nat}, (∀ a ∈ operands r args, (fieldsFlattening r).closes n a = true) →
      ∀ m, n ≤ m → fieldNamesFrom r m args = fieldNamesFrom r n args := by
  intro n
  induction n with
  | zero =>
    -- nothing closes at depth 0, so there are no operands
    intro args h m _
    have hnil : operands r args = [] :=
      List.eq_nil_iff_forall_not_mem.2 fun a ha => by simpa [Flattening.closes] using h a ha
    cases m with
    | zero => rfl
    | succ m => simp [fieldNamesFrom, hnil]
  | succ n ih =>
    intro args h m hnm
    obtain ⟨m, rfl⟩ : ∃ m', m = m' + 1 := ⟨m - 1, by omega⟩
    simp only [fieldNamesFrom]
    refine List.flatMap_congr fun a ha => ?_
    have hkids := Flattening.closes_succ.1 (h a ha)
    cases hres : r.resolveUntil a (isFieldsCall r.program) with
    | none => rfl
    | some id =>
      cases hc : r.program.call? id with
      | none => simp only [Option.bind_some, hc]
      | some c =>
        simp only [Option.bind_some, hc]
        by_cases hn : c.name = "fields" ∨ c.name = "from"
        · -- a combinator: its arguments are flattened one level down
          have hk : (fieldsFlattening r).kids a = operands r c.args := by
            simp [Flattening.kids, fieldsFlattening, hres, hc, hn]
          rw [hk] at hkids
          have hnames := ih hkids m (by omega)
          rcases hn with hn | hn <;> simp [hn, hnames]
        · -- `Fields.field` and other calls end the recursion
          generalize c.name = s at hn ⊢
          generalize c.args = names
          split
          · rfl
          · exact absurd (.inl rfl) hn
          · exact absurd (.inr rfl) hn
          · rfl

/-- Only a call heads a pipeline with a first `match` criteria. -/
theorem lt_size_of_firstMatchCriteria? {p : Program} {pl first : Nat}
    (h : firstMatchCriteria? p pl = some first) : pl < p.exprs.size := by
  simp only [firstMatchCriteria?, Option.bind_eq_bind, Option.bind_eq_some_iff] at h
  obtain ⟨c, hc, -⟩ := h
  exact Program.lt_size_of_call? hc

/-- The jumps of the criteria anchor: a pipeline goes to the criteria of its first `match`
stage, and a criteria expression whose outermost criteria sits in a pipeline's later stage
goes to that pipeline's first `match` criteria. A jump is known by the pipeline it passes. -/
def anchorFlattening (p : Program) : Flattening where
  call e :=
    if isNewAggregation p e then (firstMatchCriteria? p e).map fun _ => e
    else
      match enclosingPipeline? p (outermostCriteria p e) with
      | some pl =>
        match firstMatchCriteria? p pl with
        | some first => if first != outermostCriteria p e then some pl else none
        | none => none
      | none => none
  args pl := (firstMatchCriteria? p pl).toList
  bound := p.exprs.size
  call_lt e k h := by
    split at h
    · obtain ⟨first, hf, rfl⟩ := Option.map_eq_some_iff.1 h
      exact lt_size_of_firstMatchCriteria? hf
    · split at h
      · next pl _ =>
        split at h
        · next first hf =>
          split at h
          · cases h
            exact lt_size_of_firstMatchCriteria? hf
          · cases h
        · cases h
      · cases h

/-- Where the criteria anchor stops when it makes no jump: a pipeline stays, and anything else
goes to its outermost criteria call. -/
def stopAt (p : Program) (x : Nat) : Nat :=
  if isNewAggregation p x then x else outermostCriteria p x

/-- One level of the criteria anchor: the jump if there is one, else the stop. -/
theorem anchorWith_succ {p : Program} (n x : Nat) :
    anchorWith p (n + 1) x =
      match (anchorFlattening p).kids x with
      | f :: _ => anchorWith p n f
      | [] => stopAt p x := by
  simp only [anchorWith, Flattening.kids, anchorFlattening, stopAt]
  by_cases hagg : isNewAggregation p x = true
  · cases hf : firstMatchCriteria? p x <;> simp [hagg, hf]
  · simp only [hagg, Bool.false_eq_true, ↓reduceIte]
    cases hpl : enclosingPipeline? p (outermostCriteria p x) with
    | none => rfl
    | some pl =>
      cases hf : firstMatchCriteria? p pl with
      | none => simp [hf]
      | some f => by_cases hne : f = outermostCriteria p x <;> simp [hf, hne]

/-- One level of the criteria anchor looks below an expression only at its jump. -/
theorem anchorWith_step (p : Program) (n m e : Nat)
    (h : ∀ k ∈ (anchorFlattening p).kids e, anchorWith p n k = anchorWith p m k) :
    anchorWith p (n + 1) e = anchorWith p (m + 1) e := by
  rw [anchorWith_succ, anchorWith_succ]
  cases hk : (anchorFlattening p).kids e with
  | nil => rfl
  | cons first _ => exact h first (hk ▸ List.mem_cons_self)

end Criteria

/-! ### The recursions of lowering without a depth counter -/

/-- **When the unbounded recursions of lowering end.** The driver's flattening of
`Projections.fields` and `Sorts.orderBy` from an expression, Spring's flattening of
`Fields.fields` and `Fields.from` from each operand of an argument list, and the jumps of the
criteria anchor from pipeline to first `match` criteria end exactly when no cycle is reachable;
and then they end within one level per expression of the program, below the bound at which
lowering cuts them, so that lowering computes what the unbounded recursion computes. -/
theorem flattening_returns_iff_acyclic (r : Resolver) :
    let P := Driver.flattening r DriverName.projections "fields"
    let S := Driver.flattening r DriverName.sorts "orderBy"
    let F := Criteria.fieldsFlattening r
    let A := Criteria.anchorFlattening r.program
    (∀ e, (P.Returns e ↔ ¬ P.Cyclic e) ∧ (P.Returns e → ∀ m, Driver.shapeFuel r ≤ m →
      Driver.projections r m e = Driver.projections r (Driver.shapeFuel r) e)) ∧
    (∀ e, (S.Returns e ↔ ¬ S.Cyclic e) ∧ (S.Returns e → ∀ m, Driver.shapeFuel r ≤ m →
      Driver.sorts r m e = Driver.sorts r (Driver.shapeFuel r) e)) ∧
    (∀ args, ((∀ a ∈ Criteria.operands r args, F.Returns a) ↔
        ∀ a ∈ Criteria.operands r args, ¬ F.Cyclic a) ∧
      ((∀ a ∈ Criteria.operands r args, F.Returns a) → ∀ m, r.program.exprs.size + 1 ≤ m →
        Criteria.fieldNamesFrom r m args = Criteria.fieldNames r args)) ∧
    (∀ e, (A.Returns e ↔ ¬ A.Cyclic e) ∧ (A.Returns e → ∀ m, r.program.exprs.size + 2 ≤ m →
      Criteria.anchorWith r.program m e = Criteria.anchor r.program e)) := by
  intro P S F A
  refine ⟨fun e => ⟨Flattening.returns_iff_not_cyclic, ?_⟩,
    fun e => ⟨Flattening.returns_iff_not_cyclic, ?_⟩, fun args => ⟨?_, ?_⟩,
    fun e => ⟨Flattening.returns_iff_not_cyclic, ?_⟩⟩
  · intro h m hm
    exact Flattening.eq_of_closes (Driver.projections_step r) (Flattening.closes_bound_of_returns h) m hm
  · intro h m hm
    exact Flattening.eq_of_closes (Driver.sorts_step r) (Flattening.closes_bound_of_returns h) m hm
  · exact forall₂_congr fun a _ => Flattening.returns_iff_not_cyclic
  · intro h m hm
    exact Criteria.fieldNamesFrom_eq_of_closes r
      (fun a ha => Flattening.closes_bound_of_returns (h a ha)) m hm
  · -- the anchor's own cut, two levels past the program's size, is past the bound
    intro h m hm
    have hclose : A.closes (r.program.exprs.size + 2) e = true :=
      Flattening.closes_mono (Nat.le_succ _) (Flattening.closes_bound_of_returns h)
    rw [Criteria.anchor]
    exact Flattening.eq_of_closes (Criteria.anchorWith_step r.program) hclose m hm

/-- A field whose initializer flattens the field itself: `PROJECTION = Projections.fields(PROJECTION)`.
Its flattening never ends. -/
theorem projections_selfReferential_never_returns :
    let projection : Field :=
      { name := "PROJECTION", cls := 0, type := .object, initializer := some 1 }
    let fieldsCall : Call := ⟨none, "fields", some DriverName.projections, none, [0]⟩
    let r : Resolver :=
      { program := { fields := #[projection], exprs := #[⟨.reference (.field 0), none, none, none, 0⟩,
          ⟨.call fieldsCall, none, none, none, 0⟩] } }
    ¬ (Driver.flattening r DriverName.projections "fields").Returns 0 := by
  intro _ _ r
  apply Flattening.not_returns_of_cyclic
  refine ⟨0, .refl, .single ?_⟩
  show 0 ∈ (Driver.flattening r DriverName.projections "fields").kids 0
  decide +kernel

end QueryScope
