import Mathlib.Logic.Relation
import QueryScope.Service.Registry
import QueryScope.Proofs.Lowering.Flattening
import QueryScope.Proofs.Host.SyntaxGraph
/-!
# Anchors of queries

Every expression that starts a query of a host dialect belongs to an anchor, which the first
parser of the registry taking the expression as a candidate names. For a registry of the two
host parsers, in any order, the anchor it names is a candidate of the same parser and its
own anchor; the registry names it again for itself and picks that parser for it; and the
parser lowers a query there without refusing it, with the anchor as the query's source
(`Registry.anchor_law`). The driver's anchor always settles. The criteria anchor settles
when its jumps from a pipeline to its first `match` criteria end (`Flattening.Returns`).

The walk from a driver call down to its command sees each cursor once, and between two
cursors it steps at most once from a helper call to the driver call it returns; so it never
spends the fuel `commandChain?` gives it, and more fuel changes nothing
(`Driver.chainFrom_eq_commandChain?`).

The parts of one query share its anchor wherever each part is linked to the query by its
parent link, as happens when no expression stands in two places (`Program.TreeShaped`):
- a chain of cursor calls above a collection command;
- criteria calls nested in a chain or in the operands of a combinator;
- a pipeline and the criteria of its `match` stages, exactly when the pipeline has a `match`
  stage of one criteria for them to jump to.
-/

namespace QueryScope

namespace Program

variable {p : Program}

/-- The parents above an expression step through its parent when the parent link points up. -/
theorem ancestors_of_parent {x q : Nat} (hq : p.parent? x = some q) (hlt : x < q)
    (hsize : q < p.exprs.size) : p.ancestors x = q :: p.ancestors q := by
  rw [ancestors, hq]
  exact if_pos ⟨hlt, hsize⟩

/-- Below a parent met on the way up, the parents are that parent's own. -/
theorem ancestors_of_suffix {q : Nat} {rest : List Nat} :
    ∀ x, q :: rest <:+ p.ancestors x → rest = p.ancestors q := by
  intro x
  induction x using Program.ancestors.induct p with
  | case1 x parent hparent hup ih =>
    intro h
    rw [ancestors_of_parent hparent hup.1 hup.2] at h
    rcases List.suffix_cons_iff.1 h with heq | hsuf
    · obtain ⟨rfl, rfl⟩ := List.cons.inj heq
      rfl
    · exact ih hsuf
  | case2 x parent hparent hdown =>
    intro h
    simp [ancestors, hparent, hdown] at h
  | case3 x hnone =>
    intro h
    simp [ancestors, hnone] at h

/-- Parentheses around a later expression stop the unwrapping. -/
theorem not_paren_below_of_ge {x inner : Nat} (hk : (p.expr x).kind = .paren inner)
    (hge : ¬ inner < x) : ∀ i, (p.expr x).kind = .paren i → ¬ i < x := by
  intro i hi
  rw [hk, ExprKind.paren.injEq] at hi
  exact hi ▸ hge

theorem stripParens_le (x : Nat) : p.stripParens x ≤ x := by
  induction x using Program.stripParens.induct p with
  | case1 x inner hk hlt ih =>
    rw [stripParens_of_paren hk hlt]
    omega
  | case2 x inner hk hge =>
    rw [stripParens_of_not_paren (not_paren_below_of_ge hk hge)]
  | case3 x hk =>
    rw [stripParens_of_not_paren fun i hi => absurd hi (hk i)]

theorem kind_of_call? {x : Nat} {c : Call} (h : p.call? x = some c) : (p.expr x).kind = .call c := by
  simp only [call?] at h
  split at h
  · next c' hk => cases h; exact hk
  · cases h

/-- The receiver of a call is one of its children. -/
theorem mem_children_of_receiver {q r : Nat} {c : Call} (hc : p.call? q = some c)
    (hr : c.receiver = some r) : r ∈ p.children q := by
  simp [children, kind_of_call? hc, hr]

/-- A call is its own expression without parentheses. -/
theorem stripParens_of_call? {x : Nat} {c : Call} (h : p.call? x = some c) : p.stripParens x = x := by
  rw [stripParens]
  split
  · next inner hk => simp [call?, hk] at h
  · rfl

/-- A program whose every expression below a container has that container as its parent, and
stands before it: no expression is shared by two containers. -/
def TreeShaped (p : Program) : Prop :=
  ∀ q x, x ∈ p.children q → p.parent? x = some q ∧ x < q

/-- In a tree, the parents above an expression step through its container. -/
theorem TreeShaped.ancestors_child (ht : p.TreeShaped) {q x : Nat} (hx : x ∈ p.children q) :
    p.ancestors x = q :: p.ancestors q :=
  ancestors_of_parent (ht q x hx).1 (ht q x hx).2 (lt_size_of_mem_children hx)

end Program

namespace Lowering

/-- A lowering whose result, from any context, has a property. -/
def Yields {α : Type} (x : Lowering α) (P : α → Prop) : Prop := ∀ s, P (x.run s).1

variable {α β : Type} {P : β → Prop}

theorem yields_true (x : Lowering α) : Yields x fun _ => True := fun _ => trivial

theorem yields_pure {b : β} (h : P b) : Yields (pure b) P := fun _ => h

theorem Yields.imp {x : Lowering β} {Q : β → Prop} (hx : Yields x Q) (h : ∀ b, Q b → P b) :
    Yields x P := fun s => h _ (hx s)

theorem yields_bind {x : Lowering α} {f : α → Lowering β} {Q : α → Prop} (hx : Yields x Q)
    (hf : ∀ a, Q a → Yields (f a) P) : Yields (x >>= f) P := fun s => hf _ (hx s) _

end Lowering

theorem Node.source_add (n : Node) (c : Component) : (n.add c).source = n.source := rfl

open Lowering

namespace Driver

variable {p : Program}

/-- Where the climb above an expression ends on an anchor other than the one it started
with, that anchor is a candidate met on the way, and the climb from it keeps it. -/
theorem anchorAbove_settles {a r : Nat} :
    ∀ {c : Nat} {L : List Nat}, anchorAbove p a c L = r → r ≠ a →
      isCandidate p r = true ∧ ∃ rest, r :: rest <:+ L ∧ anchorAbove p r r rest = r := by
  intro c L
  induction L generalizing a c with
  | nil => intro h hne; exact absurd h.symm hne
  | cons parent rest ih =>
    -- what the climb finds above the parent, it finds above the expression
    have ih' : ∀ {a c}, anchorAbove p a c rest = r → r ≠ a →
        isCandidate p r = true ∧ ∃ rest', r :: rest' <:+ parent :: rest ∧
          anchorAbove p r r rest' = r := fun h hne =>
      (ih h hne).imp_right fun ⟨rest', hsuf, hkeep⟩ =>
        ⟨rest', hsuf.trans (List.suffix_cons _ _), hkeep⟩
    intro h hne
    rw [anchorAbove] at h
    split at h
    · exact ih' h hne
    · split at h
      · by_cases hc : isCandidate p parent = true
        · rw [if_pos hc] at h
          by_cases hrp : r = parent
          · -- the candidate call just met is the last one
            subst hrp
            exact ⟨hc, rest, List.suffix_refl _, h⟩
          · exact ih' h hrp
        · rw [if_neg hc] at h
          exact ih' h hne
      · exact absurd h.symm hne
    · exact absurd h.symm hne

/-- The driver anchor of an expression is either the expression itself, or a candidate whose
own anchor it is. -/
theorem anchor_eq_self_or (e : Nat) :
    anchor p e = e ∨ isCandidate p (anchor p e) = true ∧ anchor p (anchor p e) = anchor p e := by
  by_cases h : anchor p e = e
  · exact .inl h
  · obtain ⟨hr, rest, hsuf, hkeep⟩ := anchorAbove_settles (rfl : anchor p e = _) h
    refine .inr ⟨hr, ?_⟩
    rw [anchor, ← Program.ancestors_of_suffix e hsuf]
    exact hkeep

theorem anchor_anchor (e : Nat) : anchor p (anchor p e) = anchor p e := by
  rcases anchor_eq_self_or (p := p) e with h | ⟨-, h⟩
  · rw [h, h]
  · exact h

theorem isCandidate_anchor {e : Nat} (he : isCandidate p e = true) :
    isCandidate p (anchor p e) = true := by
  rcases anchor_eq_self_or (p := p) e with h | ⟨h, -⟩
  · rw [h]; exact he
  · exact h

/-! ### Lowering at a driver anchor -/

/-- A collection command is a chain by itself, and a cursor call is a candidate only on a
chain: every candidate has a chain. -/
theorem commandChain?_isSome {x : Nat} (hx : isCandidate p x = true) :
    (commandChain? p x).isSome = true := by
  unfold isCandidate at hx
  cases hc : p.call? x with
  | none => simp [hc] at hx
  | some c =>
    simp only [hc] at hx
    split at hx
    · next hcoll =>
      obtain ⟨cmd, hcmd⟩ := Option.isSome_iff_exists.1 hx
      simp [commandChain?, Program.stripParens_of_call? hc, chainFrom, hc, hcoll, hcmd]
    · split at hx
      · exact hx
      · cases hx

/-- A cursor call adds sort keys, projections, a limit or filters, and keeps the source. -/
theorem applyCursor_source (r : Resolver) (fuel : Nat) (acc : Node × List Node) (cursor : Nat) :
    Yields (applyCursor r fuel acc cursor) fun out => out.1.source = acc.1.source := by
  obtain ⟨node, filter⟩ := acc
  simp only [applyCursor]
  -- sort keys, projections and a limit are added to the node; filters go beside it
  split
  · split
    · split
      · exact yields_bind (yields_true _) fun _ _ => yields_pure rfl
      · exact yields_bind (yields_true _) fun _ _ => yields_pure rfl
      · exact yields_bind (yields_true _) fun _ _ => yields_pure rfl
      · split <;> exact yields_pure rfl
      · exact yields_pure rfl
    · exact yields_pure rfl
  · exact yields_pure rfl

theorem foldlM_applyCursor_source (r : Resolver) (fuel : Nat) :
    ∀ (cursors : List Nat) (acc : Node × List Node),
      Yields (cursors.foldlM (applyCursor r fuel) acc) fun out => out.1.source = acc.1.source := by
  intro cursors
  induction cursors with
  | nil => intro acc; exact yields_pure rfl
  | cons cursor rest ih =>
    intro acc
    rw [List.foldlM_cons]
    exact yields_bind (applyCursor_source r fuel acc cursor) fun out hout =>
      (ih out).imp fun _ h => h.trans hout

/-- The query of a chain has the anchor as its source. -/
theorem lowerChain_source (anchor commandCall : Nat) (cursors : List Nat) (p : Program) :
    Yields (lowerChain anchor commandCall cursors p) fun n => n.source = .expr anchor := by
  unfold lowerChain
  refine yields_bind (yields_true _) fun ctx _ => ?_
  split
  · exact yields_pure rfl
  · refine yields_bind (yields_true _) fun parts _ => ?_
    refine yields_bind (foldlM_applyCursor_source _ _ _ _) fun out hout => yields_pure ?_
    -- the filter, updates and stages added last keep the source of the chain's node
    rw [Node.source_add, Node.source_add, Node.source_add, hout]
    split <;> rfl

/-- The driver parser lowers a query at any candidate that is its own anchor. -/
theorem parse_yields_ok {a : Nat} (hc : isCandidate p a = true) (ha : anchor p a = a) :
    Yields (parse p a) fun r => ∃ n, r = .ok n ∧ n.source = .expr a := by
  obtain ⟨⟨commandCall, cursors⟩, hchain⟩ := Option.isSome_iff_exists.1 (commandChain?_isSome hc)
  simp only [parse, hc, ha, hchain, Bool.not_true, bne_self_eq_false, Bool.false_eq_true,
    ite_false]
  exact yields_bind (lowerChain_source a commandCall cursors p) fun n hn => yields_pure ⟨n, rfl, hn⟩

/-- A driver candidate is a call declared by a collection or a cursor type. -/
theorem declaringType_of_isCandidate {x : Nat} (h : isCandidate p x = true) :
    ∃ c t, p.call? x = some c ∧ c.declaringType = some t ∧
      (DriverName.isCollection t || DriverName.isCursor t) = true := by
  unfold isCandidate at h
  cases hc : p.call? x with
  | none => simp [hc] at h
  | some c =>
    simp only [hc] at h
    split at h
    · next hcoll =>
      obtain ⟨t, ht, htc⟩ := (Option.any_eq_true _ _).1 hcoll
      exact ⟨c, t, rfl, ht, by simp [htc]⟩
    · split at h
      · next hcur =>
        obtain ⟨t, ht, htc⟩ := (Option.any_eq_true _ _).1 hcur
        exact ⟨c, t, rfl, ht, by simp [htc]⟩
      · cases h

/-! ### The walk to the command and its fuel -/

/-- A look-up ends only at an expression it accepts. -/
theorem accept_of_untilAt {r : Resolver} {accept : Nat → Bool} {fuel : Nat} :
    ∀ {e x : Nat}, r.untilAt accept fuel e = some x → accept x = true := by
  induction fuel with
  | zero => intro e x h; rw [Resolver.untilAt.eq_1] at h; cases h
  | succ fuel ih =>
    intro e x h
    rw [Resolver.untilAt.eq_2] at h
    dsimp only at h
    split at h
    · next hacc =>
      cases h
      exact hacc
    · split at h
      · split at h
        · obtain ⟨y, -, hy⟩ := List.exists_of_findSome?_eq_some h
          exact ih hy
        · cases h
      · obtain ⟨v, -, hv⟩ := Option.bind_eq_some_iff.1 h
        exact ih hv
      · split at h
        · next hA =>
          cases h
          obtain ⟨v, -, hv⟩ := Option.bind_eq_some_iff.1 hA
          exact ih hv
        · -- the last assignment before the use, in the method of the use
          obtain ⟨m, -, h⟩ := Option.bind_eq_some_iff.1 h
          obtain ⟨y, -, hy⟩ := Option.bind_eq_some_iff.1 h
          exact ih hy
      · cases h

/-- A call is a driver call exactly when it is declared by a collection or a cursor type. -/
theorem isDriverCall_eq_of_call? {x : Nat} {c : Call} (hc : p.call? x = some c) :
    isDriverCall p x =
      (c.declaringType.any DriverName.isCollection || c.declaringType.any DriverName.isCursor) := by
  cases ht : c.declaringType <;> simp [isDriverCall, Program.callDeclaredBy, hc, ht]

/-- A cursor not yet seen, added to the cursors seen, keeps them distinct expressions of the
program; so fewer cursors than expressions had been seen before it. -/
theorem cursors_append {n x : Nat} {cursors : List Nat} (hnodup : cursors.Nodup)
    (hlt : ∀ y ∈ cursors, y < n) (hx : x < n) (hnew : x ∉ cursors) :
    (cursors ++ [x]).Nodup ∧ (∀ y ∈ cursors ++ [x], y < n) ∧ cursors.length < n := by
  have hnodup' : (cursors ++ [x]).Nodup := by
    refine List.nodup_append.2 ⟨hnodup, List.nodup_singleton x, ?_⟩
    intro a ha b hb hab
    simp only [List.mem_singleton] at hb
    exact hnew (hb ▸ hab ▸ ha)
  have hlt' : ∀ y ∈ cursors ++ [x], y < n := by
    intro y hy
    rcases List.mem_append.1 hy with hy | hy
    · exact hlt y hy
    · simp only [List.mem_singleton] at hy
      exact hy ▸ hx
  -- distinct expressions below `n` are at most `n` of them
  have hlen : (cursors ++ [x]).length ≤ n := by
    simpa using (hnodup'.subperm fun y hy => List.mem_range.2 (hlt' y hy)).length_le
  simp only [List.length_append, List.length_singleton] at hlen
  exact ⟨hnodup', hlt', hlen⟩

/-- The walk gives the same answer with any fuel beyond what it can spend: two steps for each
cursor not yet seen, and one more unless it stands at a driver call already (the step from a
helper call to the driver call it leads to). Each cursor is seen once, and the cursors are
expressions of the program. -/
theorem chainFrom_congr_fuel {r : Resolver} {k k' : Nat} (hk' : k ≤ k') :
    ∀ {x : Nat} {cursors : List Nat}, cursors.Nodup → (∀ y ∈ cursors, y < r.program.exprs.size) →
      2 * (r.program.exprs.size - cursors.length) + (if isDriverCall r.program x then 1 else 2) ≤ k →
      chainFrom r k' x cursors = chainFrom r k x cursors := by
  induction k generalizing k' with
  | zero =>
    intro x cursors _ _ hk
    split at hk <;> omega
  | succ k ih =>
    intro x cursors hnodup hlt hk
    obtain ⟨k', rfl⟩ : ∃ j, k' = j + 1 := ⟨k' - 1, by omega⟩
    rw [chainFrom.eq_2, chainFrom.eq_2]
    cases hc : r.program.call? x with
    | none => rfl
    | some c =>
      have hdriver := isDriverCall_eq_of_call? hc
      dsimp only [bind, Option.bind]
      split
      · -- a collection call ends the walk, whatever the fuel
        rfl
      · split
        · -- a cursor seen before ends the walk; a new one is added and the walk goes on from
          -- the driver call its receiver leads to
          next hcoll hcur =>
          split
          · rfl
          · next hnew =>
            cases hrecv : c.receiver with
            | none => rfl
            | some recv =>
              cases hnext : r.resolveUntil recv (isDriverCall r.program) with
              | none => simp only [hnext]
              | some next =>
                simp only [hnext]
                obtain ⟨hnodup', hlt', hlen⟩ :=
                  cursors_append hnodup hlt (Program.lt_size_of_call? hc) (by simpa using hnew)
                have hdx : isDriverCall r.program x = true := by simp [hdriver, hcur]
                have hdn : isDriverCall r.program next = true := accept_of_untilAt hnext
                rw [if_pos hdx] at hk
                apply ih (by omega) hnodup' hlt'
                rw [if_pos hdn, List.length_append, List.length_singleton]
                omega
        · -- a helper call: the walk goes on from the driver call it leads to
          next hcoll hcur =>
          cases hnext : r.resolveUntil x (isDriverCall r.program) with
          | none => simp only
          | some next =>
            simp only
            have hdx : isDriverCall r.program x = false := by simp [hdriver, hcoll, hcur]
            have hdn : isDriverCall r.program next = true := accept_of_untilAt hnext
            simp only [hdx, Bool.false_eq_true, ↓reduceIte] at hk
            apply ih (by omega) hnodup hlt
            rw [if_pos hdn]
            omega

/-- The walk to the command never runs out of the fuel `commandChain?` gives it: with any more
fuel it gives the same answer. -/
theorem chainFrom_eq_commandChain? (p : Program) (expr : Nat) {k : Nat}
    (hk : 2 * p.exprs.size + 2 ≤ k) :
    chainFrom { program := p } k (p.stripParens expr) [] = commandChain? p expr := by
  apply chainFrom_congr_fuel hk List.nodup_nil (fun _ h => nomatch h)
  show 2 * (p.exprs.size - 0) + _ ≤ 2 * p.exprs.size + 2
  split <;> omega

/-! ### The cursor chain above a command -/

/-- A cursor call made directly on an expression, through parentheses. -/
def CursorOn (p : Program) (x q : Nat) : Prop :=
  ∃ c r, p.call? q = some c ∧ c.declaringType.any DriverName.isCursor = true ∧
    c.receiver = some r ∧ p.stripParens r = x

/-- A collection method that runs a command. -/
def IsCommand (p : Program) (x : Nat) : Prop :=
  ∃ c, p.call? x = some c ∧ c.declaringType.any DriverName.isCollection = true ∧
    (collectionCommand? c.name).isSome = true

theorem isDriverCall_of_call? {x : Nat} {c : Call} (hc : p.call? x = some c)
    (h : c.declaringType.any DriverName.isCollection = true ∨
      c.declaringType.any DriverName.isCursor = true) : isDriverCall p x = true := by
  rcases h with h | h <;>
  · obtain ⟨t, ht, htc⟩ := (Option.any_eq_true _ _).1 h
    simp [isDriverCall, Program.callDeclaredBy, hc, ht, htc]

theorem isCandidate_of_isCommand {x : Nat} (h : IsCommand p x) : isCandidate p x = true := by
  obtain ⟨c, hc, hcoll, hcmd⟩ := h
  simp [isCandidate, hc, hcoll, hcmd]

/-- No cursor type is a collection type. -/
theorem any_isCollection_eq_false {t : Option String} (h : t.any DriverName.isCursor = true) :
    t.any DriverName.isCollection = false := by
  obtain ⟨t, rfl, ht⟩ := (Option.any_eq_true _ _).1 h
  simp only [DriverName.isCursor, Bool.or_eq_true, beq_iff_eq] at ht
  rcases ht with (rfl | rfl) | rfl <;>
    simp [DriverName.isCollection, DriverName.mongoCollection, DriverName.reactiveCollection,
      DriverName.mongoIterable, DriverName.findIterable, DriverName.aggregateIterable]

/-- A look-up stops at once at an expression it accepts. -/
theorem resolveUntil_of_accept {r : Resolver} {e : Nat} {accept : Nat → Bool}
    (h : accept (r.program.stripParens e) = true) :
    r.resolveUntil e accept = some (r.program.stripParens e) := by
  simp [Resolver.resolveUntil, Resolver.untilAt, h]

/-- Down a direct cursor chain the walk to the command never fails: each step goes to a
smaller expression not yet seen, and ends at the command. -/
theorem chainFrom_of_reaches (ht : p.TreeShaped) {cmd : Nat} (hcmd : IsCommand p cmd) {x : Nat}
    (hx : Relation.ReflTransGen (CursorOn p) cmd x) :
    isDriverCall p x = true ∧ ∀ fuel cursors, x < fuel → (∀ k ∈ cursors, x < k) →
      (chainFrom { program := p } fuel x cursors).isSome = true := by
  induction hx with
  | refl =>
    obtain ⟨c, hc, hcoll, hcmd⟩ := hcmd
    refine ⟨isDriverCall_of_call? hc (.inl hcoll), ?_⟩
    intro fuel cursors hlt _
    obtain ⟨fuel, rfl⟩ : ∃ f, fuel = f + 1 := ⟨fuel - 1, by omega⟩
    obtain ⟨command, hcommand⟩ := Option.isSome_iff_exists.1 hcmd
    simp [chainFrom, hc, hcoll, hcommand]
  | @tail y x _ hstep ih =>
    obtain ⟨c, r, hc, hcur, hrecv, hstrip⟩ := hstep
    refine ⟨isDriverCall_of_call? hc (.inr hcur), ?_⟩
    intro fuel cursors hlt hcursors
    obtain ⟨fuel, rfl⟩ : ∃ f, fuel = f + 1 := ⟨fuel - 1, by omega⟩
    -- the receiver stands below the call
    have hry : y < x := by
      have := (ht x r (Program.mem_children_of_receiver hc hrecv)).2
      have := Program.stripParens_le (p := p) r
      omega
    have hnot : x ∉ cursors := fun hmem => Nat.lt_irrefl x (hcursors x hmem)
    have hnext : ({ program := p } : Resolver).resolveUntil r (isDriverCall p) = some y := by
      rw [resolveUntil_of_accept] <;> simp [hstrip, ih.1]
    have hrest := ih.2 fuel (cursors ++ [x]) (by omega) (by
      intro k hk
      rcases List.mem_append.1 hk with hk | hk
      · exact Nat.lt_trans hry (hcursors k hk)
      · simp only [List.mem_singleton] at hk
        omega)
    simp [chainFrom, hc, any_isCollection_eq_false hcur, hcur, hnot, hrecv, hnext, hrest]

/-- Every call of a direct cursor chain above a command starts a driver query. -/
theorem isCandidate_of_reaches (ht : p.TreeShaped) {cmd x : Nat} (hcmd : IsCommand p cmd)
    (hx : Relation.ReflTransGen (CursorOn p) cmd x) : isCandidate p x = true := by
  rcases Relation.ReflTransGen.cases_tail hx with rfl | ⟨y, -, c, r, hc, hcur, -⟩
  · exact isCandidate_of_isCommand hcmd
  · have hlt : x < 2 * p.exprs.size + 2 := by
      have := Program.lt_size_of_call? hc
      omega
    have hchain := (chainFrom_of_reaches ht hcmd hx).2 _ [] hlt (by simp)
    simpa [isCandidate, hc, any_isCollection_eq_false hcur, hcur, commandChain?,
      Program.stripParens_of_call? hc] using hchain

/-- In a tree, the climb from an expression in parentheses passes through the parentheses. -/
theorem anchorAbove_stripParens (ht : p.TreeShaped) (a : Nat) :
    ∀ r, anchorAbove p a (p.stripParens r) (p.ancestors (p.stripParens r)) =
      anchorAbove p a r (p.ancestors r) := by
  intro r
  induction r using Program.stripParens.induct p with
  | case1 x inner hk hlt ih =>
    have hin : inner ∈ p.children x := by simp [Program.children, hk]
    rw [Program.stripParens_of_paren hk hlt, ih, ht.ancestors_child hin, anchorAbove, hk]
  | case2 x inner hk hge =>
    rw [Program.stripParens_of_not_paren (Program.not_paren_below_of_ge hk hge)]
  | case3 x hk =>
    rw [Program.stripParens_of_not_paren fun i hi => absurd hi (hk i)]

/-- In a tree, a cursor call that starts a query has the anchor of the expression it is
made on. -/
theorem anchor_eq_of_cursorOn (ht : p.TreeShaped) {x q : Nat} (h : CursorOn p x q)
    (hq : isCandidate p q = true) : anchor p x = anchor p q := by
  obtain ⟨c, r, hc, -, hrecv, rfl⟩ := h
  rw [anchor, anchorAbove_stripParens ht, ht.ancestors_child (Program.mem_children_of_receiver hc hrecv),
    anchorAbove, Program.kind_of_call? hc]
  simp [hrecv, hq, anchor]

/-- **Sharing along a cursor chain.** In a tree, every call of a direct cursor chain above a
collection command starts a driver query, with the command's anchor. -/
theorem cursorChain_anchor (ht : p.TreeShaped) {cmd q : Nat} (hcmd : IsCommand p cmd)
    (h : Relation.ReflTransGen (CursorOn p) cmd q) :
    isCandidate p q = true ∧ anchor p q = anchor p cmd := by
  refine ⟨isCandidate_of_reaches ht hcmd h, ?_⟩
  induction h with
  | refl => rfl
  | tail hreach hstep ih =>
    rw [← anchor_eq_of_cursorOn ht hstep (isCandidate_of_reaches ht hcmd (hreach.tail hstep))]
    exact ih

end Driver

namespace Criteria

variable {p : Program}

/-! ### The outermost criteria call -/

/-- Where the climb to the outermost criteria call ends on a call other than the one it started
with, that call is a criteria call met on the way, and the climb from it keeps it. -/
theorem outermostCriteria_go_settles {a r : Nat} :
    ∀ {L : List Nat}, outermostCriteria.go p a L = r → r ≠ a →
      isCriteriaCall p r = true ∧ ∃ rest, r :: rest <:+ L ∧ outermostCriteria.go p r rest = r := by
  intro L
  induction L generalizing a with
  | nil => intro h hne; exact absurd h.symm hne
  | cons parent rest ih =>
    have ih' : ∀ {a}, outermostCriteria.go p a rest = r → r ≠ a →
        isCriteriaCall p r = true ∧ ∃ rest', r :: rest' <:+ parent :: rest ∧
          outermostCriteria.go p r rest' = r := fun h hne =>
      (ih h hne).imp_right fun ⟨rest', hsuf, hkeep⟩ =>
        ⟨rest', hsuf.trans (List.suffix_cons _ _), hkeep⟩
    intro h hne
    rw [outermostCriteria.go] at h
    split at h
    · next hc =>
      by_cases hrp : r = parent
      · subst hrp
        exact ⟨hc, rest, List.suffix_refl _, h⟩
      · exact ih' h hrp
    · split at h
      · exact ih' h hne
      · exact absurd h.symm hne

/-- The outermost criteria call above an expression is the expression itself, or a criteria
call that is its own outermost one. -/
theorem outermostCriteria_eq_self_or (x : Nat) :
    outermostCriteria p x = x ∨ isCriteriaCall p (outermostCriteria p x) = true ∧
      outermostCriteria p (outermostCriteria p x) = outermostCriteria p x := by
  by_cases h : outermostCriteria p x = x
  · exact .inl h
  · obtain ⟨hr, rest, hsuf, hkeep⟩ := outermostCriteria_go_settles (rfl : outermostCriteria p x = _) h
    refine .inr ⟨hr, ?_⟩
    rw [outermostCriteria, ← Program.ancestors_of_suffix x hsuf]
    exact hkeep

theorem outermostCriteria_outermostCriteria (x : Nat) :
    outermostCriteria p (outermostCriteria p x) = outermostCriteria p x := by
  rcases outermostCriteria_eq_self_or (p := p) x with h | ⟨-, h⟩
  · rw [h, h]
  · exact h

theorem isCriteriaCall_outermostCriteria {x : Nat} (hx : isCriteriaCall p x = true) :
    isCriteriaCall p (outermostCriteria p x) = true := by
  rcases outermostCriteria_eq_self_or (p := p) x with h | ⟨h, -⟩
  · rw [h]; exact hx
  · exact h

/-! ### Criteria calls and pipelines -/

/-- No criteria call is a pipeline: the two are declared by different types. -/
theorem isNewAggregation_eq_false {x : Nat} (hx : isCriteriaCall p x = true) :
    isNewAggregation p x = false := by
  simp only [isCriteriaCall, Program.callDeclaredBy] at hx
  simp only [isNewAggregation, Program.isCallOf]
  split at hx
  · next c _ =>
    obtain ⟨t, ht, htc⟩ := (Option.any_eq_true _ _).1 hx
    simp only [Call.is, Call.isDeclaredBy, ht, beq_iff_eq.1 htc]
    simp [SpringName.criteria, SpringName.aggregation]
  · cases hx

/-- The criteria of the first `match` stage found in a pipeline argument is a criteria call. -/
theorem isCriteriaCall_of_firstMatchIn {c : Nat} (id : Nat) (h : firstMatchIn p id = some c) :
    isCriteriaCall p c = true := by
  induction id using Nat.strong_induction_on with
  | _ id ih =>
    rw [firstMatchIn] at h
    -- the searches of arrays and lists recurse on items below the argument
    have hsearch : ∀ items : List Nat, (items.attach.findSome? fun e =>
        if p.stripParens e.1 < id then firstMatchIn p (p.stripParens e.1) else none) = some c →
        isCriteriaCall p c = true := by
      intro items hs
      obtain ⟨e, -, he⟩ := List.exists_of_findSome?_eq_some hs
      split at he
      · exact ih _ ‹_› he
      · cases he
    split at h
    · exact hsearch _ h
    · split at h
      · exact hsearch _ h
      · split at h
        · split at h
          · dsimp only at h
            split at h
            · cases h
              assumption
            · cases h
          · cases h
        · cases h
    · cases h

theorem isCriteriaCall_of_firstMatchCriteria? {pl c : Nat} (h : firstMatchCriteria? p pl = some c) :
    isCriteriaCall p c = true := by
  simp only [firstMatchCriteria?, Option.bind_eq_bind, Option.bind_eq_some_iff] at h
  obtain ⟨call, -, hfind⟩ := h
  obtain ⟨a, -, ha⟩ := List.exists_of_findSome?_eq_some hfind
  exact isCriteriaCall_of_firstMatchIn _ ha

/-! ### Where the criteria anchor settles -/

/-- An expression the criteria anchor settles at: a candidate it makes no jump from and stops
at itself. -/
structure Settled (p : Program) (x : Nat) : Prop where
  candidate : isCandidate p x = true
  no_jump : (anchorFlattening p).kids x = []
  stays : stopAt p x = x

theorem anchorWith_of_settled {x : Nat} (h : Settled p x) (n : Nat) :
    anchorWith p (n + 1) x = x := by
  rw [anchorWith_succ, h.no_jump]
  exact h.stays

/-- Two criteria expressions under one outermost criteria call jump alike. -/
theorem kids_eq_of_outermostCriteria_eq {x y : Nat} (hx : isNewAggregation p x = false)
    (hy : isNewAggregation p y = false) (h : outermostCriteria p x = outermostCriteria p y) :
    (anchorFlattening p).kids x = (anchorFlattening p).kids y := by
  simp [Flattening.kids, anchorFlattening, hx, hy, h]

/-- A candidate that is no pipeline is a criteria call. -/
theorem isCriteriaCall_of_isCandidate {x : Nat} (hx : isCandidate p x = true)
    (hagg : isNewAggregation p x = false) : isCriteriaCall p x = true := by
  simpa [isCandidate, hagg] using hx

/-- A candidate the anchor makes no jump from settles where it stops. -/
theorem settled_stopAt {x : Nat} (hx : isCandidate p x = true)
    (hk : (anchorFlattening p).kids x = []) : Settled p (stopAt p x) := by
  by_cases hagg : isNewAggregation p x = true
  · have hstop : stopAt p x = x := if_pos hagg
    rw [hstop]
    exact ⟨hx, hk, hstop⟩
  · -- the outermost criteria call above a criteria call is one, and its own outermost
    have hagg : isNewAggregation p x = false := by simpa using hagg
    have hstop : stopAt p x = outermostCriteria p x := by simp [stopAt, hagg]
    have hu := isCriteriaCall_outermostCriteria (isCriteriaCall_of_isCandidate hx hagg)
    have huagg := isNewAggregation_eq_false hu
    have houter := outermostCriteria_outermostCriteria (p := p) x
    rw [hstop]
    refine ⟨by simp [isCandidate, hu], ?_, by simp [stopAt, huagg, houter]⟩
    rw [kids_eq_of_outermostCriteria_eq huagg hagg houter, hk]

/-- The anchor jumps only to criteria calls. -/
theorem isCandidate_of_mem_kids {x f : Nat} (hf : f ∈ (anchorFlattening p).kids x) :
    isCandidate p f = true := by
  cases hk : (anchorFlattening p).call x with
  | none => simp [Flattening.kids, hk] at hf
  | some k =>
    simp only [Flattening.kids, hk] at hf
    have hfirst : firstMatchCriteria? p k = some f := by simpa [anchorFlattening] using hf
    simp [isCandidate, isCriteriaCall_of_firstMatchCriteria? hfirst]

/-- Once its jumps close within the cut, the criteria anchor of a candidate settles. -/
theorem settled_anchorWith :
    ∀ {n x : Nat}, (anchorFlattening p).closes n x = true → isCandidate p x = true →
      Settled p (anchorWith p n x) := by
  intro n
  induction n with
  | zero => intro x h; simp [Flattening.closes] at h
  | succ n ih =>
    intro x hclose hx
    rw [anchorWith_succ]
    cases hk : (anchorFlattening p).kids x with
    | nil => exact settled_stopAt hx hk
    | cons f _ =>
      have hf : f ∈ (anchorFlattening p).kids x := hk ▸ List.mem_cons_self
      exact ih (Flattening.closes_succ.1 hclose f hf) (isCandidate_of_mem_kids hf)

/-- The criteria anchor of a candidate whose jumps end settles. -/
theorem settled_anchor {e : Nat} (he : isCandidate p e = true)
    (hret : (anchorFlattening p).Returns e) : Settled p (anchor p e) :=
  settled_anchorWith
    (Flattening.closes_mono (Nat.le_succ _) (Flattening.closes_bound_of_returns hret)) he

theorem anchor_of_settled {x : Nat} (h : Settled p x) : anchor p x = x :=
  anchorWith_of_settled h (p.exprs.size + 1)

/-! ### Lowering at a criteria anchor -/

/-- The `limit` and `with(sort)` calls around an anchor keep the query's source. -/
theorem applyQueryCalls_source (r : Resolver) (fuel : Nat) (query : Node) (a : Nat) :
    Yields (applyQueryCalls r fuel query a) fun q => q.source = query.source := by
  unfold applyQueryCalls
  dsimp only
  generalize r.program.ancestors a = parents
  induction parents generalizing query with
  | nil => exact yields_pure rfl
  | cons parent rest ih =>
    rw [List.foldlM_cons]
    refine yields_bind (Q := fun q => q.source = query.source) ?_ fun q hq =>
      (ih q).imp fun _ h => h.trans hq
    -- one parent adds a limit or sort keys, or leaves the query as it is
    split
    · split
      · split
        · split
          · split
            · exact yields_pure rfl
            · exact yields_pure rfl
          · exact yields_bind (yields_true _) fun _ _ => yields_pure rfl
          · exact yields_pure rfl
        · exact yields_pure rfl
      · exact yields_pure rfl
    · exact yields_pure rfl

/-- The criteria parser lowers a query at any candidate that is its own anchor. -/
theorem parse_yields_ok {a : Nat} (hc : isCandidate p a = true) (ha : anchor p a = a) :
    Yields (parse p a) fun r => ∃ n, r = .ok n ∧ n.source = .expr a := by
  simp only [parse, hc, ha, Bool.not_true, bne_self_eq_false, Bool.false_eq_true, ite_false]
  refine yields_bind (yields_true _) fun ctx _ => ?_
  -- a pipeline or a criteria chain: either way the query is built at the anchor
  split
  all_goals
    exact yields_bind (yields_true _) fun _ _ => yields_bind (yields_true _) fun _ _ =>
      yields_bind (applyQueryCalls_source _ _ _ _) fun q hq => yields_pure ⟨q, rfl, hq⟩

/-- No driver candidate is a criteria candidate: the two are declared by different types. -/
theorem isCandidate_eq_false_of_driver {x : Nat} (h : Driver.isCandidate p x = true) :
    isCandidate p x = false := by
  obtain ⟨c, t, hc, ht, hdrv⟩ := Driver.declaringType_of_isCandidate h
  simp only [DriverName.isCollection, DriverName.isCursor, Bool.or_eq_true, beq_iff_eq] at hdrv
  simp only [isCandidate, isCriteriaCall, isNewAggregation, Program.callDeclaredBy,
    Program.isCallOf, hc, Call.is, Call.isDeclaredBy, ht]
  rcases hdrv with (rfl | rfl) | (rfl | rfl) | rfl <;>
    simp [DriverName.mongoCollection, DriverName.reactiveCollection, DriverName.mongoIterable,
      DriverName.findIterable, DriverName.aggregateIterable, SpringName.criteria,
      SpringName.aggregation]

/-- Only an expression of the program is a criteria candidate. -/
theorem lt_size_of_isCandidate {x : Nat} (h : isCandidate p x = true) : x < p.exprs.size := by
  simp only [isCandidate, Bool.or_eq_true, isCriteriaCall, isNewAggregation,
    Program.callDeclaredBy, Program.isCallOf] at h
  cases hc : p.call? x with
  | none => simp [hc] at h
  | some c => exact Program.lt_size_of_call? hc

/-! ### Sharing within a criteria query -/

/-- Two criteria expressions under one outermost criteria call have one anchor at any cut. -/
theorem anchorWith_eq_of_outermostCriteria_eq {x y : Nat} (hx : isNewAggregation p x = false)
    (hy : isNewAggregation p y = false) (h : outermostCriteria p x = outermostCriteria p y)
    (n : Nat) : anchorWith p (n + 1) x = anchorWith p (n + 1) y := by
  have hstop : stopAt p x = stopAt p y := by simp [stopAt, hx, hy, h]
  rw [anchorWith_succ, anchorWith_succ, kids_eq_of_outermostCriteria_eq hx hy h, hstop]

/-- An expression directly below a criteria call or an operand wrapper. -/
def OperandOf (p : Program) (x q : Nat) : Prop :=
  x ∈ p.children q ∧ (isCriteriaCall p q = true ∨ isOperandWrapper p q = true)

/-- In a tree, the climb from anything nested in a criteria call through criteria calls and
operand wrappers reaches that call's outermost criteria call. -/
theorem outermostCriteria_go_of_operandOf (ht : p.TreeShaped) {x q : Nat}
    (h : Relation.TransGen (OperandOf p) x q) (hq : isCriteriaCall p q = true) :
    ∀ a, outermostCriteria.go p a (p.ancestors x) = outermostCriteria p q := by
  induction h using Relation.TransGen.head_induction_on with
  | single hxq =>
    intro a
    rw [ht.ancestors_child hxq.1, outermostCriteria.go, if_pos hq]
    rfl
  | head hxw _ ih =>
    intro a
    obtain ⟨hchild, hw⟩ := hxw
    rw [ht.ancestors_child hchild, outermostCriteria.go]
    split
    · exact ih _
    · -- not a criteria call, so an operand wrapper: the climb goes on past it
      have hwrap : isOperandWrapper p _ = true := hw.resolve_left ‹_›
      simp only [isOperandWrapper, Bool.or_eq_true] at hwrap
      rw [if_pos (by simp only [Bool.or_eq_true]; tauto)]
      exact ih a

/-- **Sharing within a criteria chain.** In a tree, a criteria call nested in another through
criteria calls and operand wrappers (a chain, or the operands of `orOperator`, `andOperator`
or `norOperator`, directly or in an array or list) has that call's anchor. -/
theorem anchor_eq_of_operandOf (ht : p.TreeShaped) {x q : Nat} (hx : isCriteriaCall p x = true)
    (hq : isCriteriaCall p q = true) (h : Relation.TransGen (OperandOf p) x q) :
    anchor p x = anchor p q := by
  have houter : outermostCriteria p x = outermostCriteria p q :=
    outermostCriteria_go_of_operandOf ht h hq x
  exact anchorWith_eq_of_outermostCriteria_eq (isNewAggregation_eq_false hx)
    (isNewAggregation_eq_false hq) houter _

/-- Only a pipeline encloses a `match` stage. -/
theorem isNewAggregation_of_enclosingPipeline? {x pl : Nat}
    (h : enclosingPipeline? p x = some pl) : isNewAggregation p pl = true := by
  unfold enclosingPipeline? at h
  split at h
  · split at h
    · split at h
      · split at h
        · cases h
          assumption
        · cases h
      · cases h
    · cases h
  · cases h

/-- **Sharing within a pipeline.** A criteria call whose outermost criteria call stands in a
`match` stage of a pipeline has the pipeline's anchor exactly when the pipeline has a `match`
stage of one criteria: the first of them is the anchor of all. -/
theorem anchor_eq_anchor_iff_firstMatchCriteria? {c pl : Nat} (hc : isCriteriaCall p c = true)
    (hpl : enclosingPipeline? p (outermostCriteria p c) = some pl) :
    anchor p c = anchor p pl ↔ (firstMatchCriteria? p pl).isSome = true := by
  have hcagg := isNewAggregation_eq_false hc
  have hu := isCriteriaCall_outermostCriteria hc
  have huagg := isNewAggregation_eq_false hu
  have hplagg := isNewAggregation_of_enclosingPipeline? hpl
  have hstop : stopAt p c = outermostCriteria p c := by simp [stopAt, hcagg]
  -- both anchors are one level of `anchorWith` below the cut
  rw [anchor, anchor, anchorWith_succ, anchorWith_succ]
  cases hf : firstMatchCriteria? p pl with
  | none =>
    -- no jump from either: the criteria stays below the pipeline
    have hkc : (anchorFlattening p).kids c = [] := by
      simp [Flattening.kids, anchorFlattening, hcagg, hpl, hf]
    have hkpl : (anchorFlattening p).kids pl = [] := by
      simp [Flattening.kids, anchorFlattening, hplagg, hf]
    have hne : outermostCriteria p c ≠ pl := fun heq => by
      rw [heq] at huagg
      rw [huagg] at hplagg
      cases hplagg
    have hstoppl : stopAt p pl = pl := if_pos hplagg
    simp only [hkc, hkpl, hstop, hstoppl]
    simp [hne]
  | some f =>
    have hkpl : (anchorFlattening p).kids pl = [f] := by
      simp [Flattening.kids, anchorFlattening, hplagg, hf]
    simp only [hkpl, Option.isSome_some, iff_true]
    by_cases hfu : f = outermostCriteria p c
    · -- the criteria is the first `match` criteria itself, where the anchor settles
      have hkc : (anchorFlattening p).kids c = [] := by
        simp [Flattening.kids, anchorFlattening, hcagg, hpl, hf, hfu]
      have hsettled : Settled p f := by
        refine ⟨by simp [isCandidate, hfu, hu], ?_, ?_⟩
        · rw [hfu, kids_eq_of_outermostCriteria_eq huagg hcagg
            (outermostCriteria_outermostCriteria c), hkc]
        · simp [stopAt, hfu, huagg, outermostCriteria_outermostCriteria]
      rw [hkc, hstop, anchorWith_of_settled hsettled, hfu]
    · have hkc : (anchorFlattening p).kids c = [f] := by
        simp [Flattening.kids, anchorFlattening, hcagg, hpl, hf, hfu]
      rw [hkc]

end Criteria

namespace QueryParser

variable {p : Program} {x : Nat}

/-- Of the two host parsers, at most one takes an expression as a candidate. -/
theorem eq_of_isCandidate {qp qp' : QueryParser} (h : qp = .driver ∨ qp = .criteria)
    (h' : qp' = .driver ∨ qp' = .criteria) (hc : qp.isCandidate p x = true)
    (hc' : qp'.isCandidate p x = true) : qp = qp' := by
  rcases h with rfl | rfl <;> rcases h' with rfl | rfl
  · rfl
  · exact absurd hc' (by simp [criteria, Criteria.isCandidate_eq_false_of_driver hc])
  · exact absurd hc (by simp [criteria, Criteria.isCandidate_eq_false_of_driver hc'])
  · rfl

/-- In a list of host parsers, the parsers before the one taking an expression as a candidate
all refuse it. -/
theorem exists_first_candidate {ps : List QueryParser}
    (hps : ∀ qp ∈ ps, qp = .driver ∨ qp = .criteria) {d : QueryParser} (hd : d ∈ ps)
    (hc : d.isCandidate p x = true) :
    ∃ pre post, ps = pre ++ d :: post ∧ ∀ qp ∈ pre, qp.isCandidate p x = false := by
  obtain ⟨qp, hfind⟩ := Option.isSome_iff_exists.1
    ((List.find?_isSome (p := fun qp => qp.isCandidate p x)).2 ⟨d, hd, hc⟩)
  obtain ⟨hqc, pre, post, rfl, hpre⟩ := List.find?_eq_some_iff_append.1 hfind
  obtain rfl : qp = d := eq_of_isCandidate (hps qp (by simp)) (hps d hd) hqc hc
  exact ⟨pre, post, rfl, fun qp' hq' => by simpa using hpre qp' hq'⟩

/-- Only an expression of the program is a candidate of a host parser. -/
theorem hasExpr_of_isCandidate {d : QueryParser} (hd : d = .driver ∨ d = .criteria)
    (h : d.isCandidate p x = true) : p.hasExpr x = true := by
  rcases hd with rfl | rfl
  · obtain ⟨c, -, hc, -⟩ := Driver.declaringType_of_isCandidate h
    simpa [Program.hasExpr] using Program.lt_size_of_call? hc
  · simpa [Program.hasExpr] using Criteria.lt_size_of_isCandidate h

/-- A host parser's anchor of a candidate is a candidate and its own anchor, once the criteria
anchor's jumps from it end. -/
theorem anchor_settles {d : QueryParser} (hd : d = .driver ∨ d = .criteria)
    (he : d.isCandidate p x = true)
    (hret : d = .criteria → (Criteria.anchorFlattening p).Returns x) :
    d.isCandidate p (d.anchor p x) = true ∧ d.anchor p (d.anchor p x) = d.anchor p x := by
  rcases hd with rfl | rfl
  · exact ⟨Driver.isCandidate_anchor he, Driver.anchor_anchor x⟩
  · have hs := Criteria.settled_anchor he (hret rfl)
    exact ⟨hs.candidate, Criteria.anchor_of_settled hs⟩

/-- A host parser lowers a query at any candidate that is its own anchor, with that anchor as
the query's source. -/
theorem parse_yields_ok {d : QueryParser} (hd : d = .driver ∨ d = .criteria)
    (hc : d.isCandidate p x = true) (ha : d.anchor p x = x) :
    Yields (d.parse p x) fun r => ∃ n, r = .ok n ∧ n.source = .expr x := by
  rcases hd with rfl | rfl
  · exact Driver.parse_yields_ok hc ha
  · exact Criteria.parse_yields_ok hc ha

end QueryParser

namespace Registry

/-- A registry of the host dialects: each of its parsers is the driver's or the criteria one. -/
def OfHostDialects (reg : Registry) : Prop :=
  ∀ qp ∈ reg.parsers, qp = .driver ∨ qp = .criteria

theorem standard_ofHostDialects : standard.OfHostDialects := by
  intro qp hqp
  simpa [standard, QueryParser.registry] using hqp

variable {reg : Registry} {p : Program}

/-- A registry of the host dialects names for an expression the anchor that its one parser
taking the expression as a candidate gives. -/
theorem anchorOf?_eq_some_iff (hreg : reg.OfHostDialects) {e a : Nat} {d : QueryParser} :
    reg.anchorOf? p e = some (d, a) ↔
      p.hasExpr e = true ∧ d ∈ reg.parsers ∧ d.isCandidate p e = true ∧ d.anchor p e = a := by
  constructor
  · intro h
    unfold anchorOf? at h
    split at h
    · next hexpr =>
      obtain ⟨qp, hqp, hf⟩ := List.exists_of_findSome?_eq_some h
      split at hf
      · next hc =>
        obtain ⟨rfl, rfl⟩ := Prod.mk.inj (Option.some.inj hf)
        exact ⟨hexpr, hqp, hc, rfl⟩
      · cases hf
    · cases h
  · rintro ⟨hexpr, hd, hc, rfl⟩
    obtain ⟨pre, post, hsplit, hpre⟩ := QueryParser.exists_first_candidate hreg hd hc
    have hnone : pre.findSome? (fun qp =>
        if qp.isCandidate p e then some (qp, qp.anchor p e) else none) = none :=
      List.findSome?_eq_none_iff.2 fun qp hq => by simp [hpre qp hq]
    simp [anchorOf?, hexpr, hsplit, List.findSome?_append, hnone, hc]

/-- A registry of the host dialects picks for an anchor the one parser taking it as a
candidate, when that parser's anchor of it is itself. -/
theorem dialectFor?_eq_some_iff (hreg : reg.OfHostDialects) {a : Nat} {d : QueryParser} :
    reg.dialectFor? p a = some d ↔
      p.hasExpr a = true ∧ d ∈ reg.parsers ∧ d.isCandidate p a = true ∧ d.anchor p a = a := by
  constructor
  · intro h
    unfold dialectFor? at h
    split at h
    · next hexpr =>
      have hd := List.mem_of_find?_eq_some h
      have hsat := List.find?_some h
      simp only [Bool.and_eq_true, beq_iff_eq] at hsat
      exact ⟨hexpr, hd, hsat⟩
    · cases h
  · rintro ⟨hexpr, hd, hc, ha⟩
    obtain ⟨pre, post, hsplit, hpre⟩ := QueryParser.exists_first_candidate hreg hd hc
    have hnone : pre.find? (fun qp => qp.isCandidate p a && qp.anchor p a == a) = none :=
      List.find?_eq_none.2 fun qp hq => by simp [hpre qp hq]
    simp [dialectFor?, hexpr, hsplit, List.find?_append, hnone, hc, ha]

/-- **The anchor law.** In a registry of the host dialects, an anchor the registry names for
an expression is a candidate of the parser named with it and that parser's anchor of itself;
the registry names it again for itself, picks that parser for it, and the parser lowers a
query there without refusing it, with the anchor as its source. This holds whenever the
criteria anchor's jumps from the expression end, which is always for a driver query.

The parts of a query share its anchor where each is linked to the query by its parent, as
in a tree: the calls of a direct cursor chain above a collection command, and criteria calls
nested through criteria calls and operand wrappers. The criteria of a pipeline's `match`
stages share the pipeline's anchor exactly when it has a `match` stage of one criteria. -/
theorem anchor_law (reg : Registry) (hreg : reg.OfHostDialects) (p : Program) :
    (∀ e d a, reg.anchorOf? p e = some (d, a) →
      (d = .criteria → (Criteria.anchorFlattening p).Returns e) →
      d.isCandidate p a = true ∧ d.anchor p a = a ∧ reg.anchorOf? p a = some (d, a) ∧
        reg.dialectFor? p a = some d ∧
        ∀ s, ∃ n, ((d.parse p a).run s).1 = .ok n ∧ n.source = .expr a) ∧
    (p.TreeShaped → ∀ cmd q, Driver.IsCommand p cmd →
      Relation.ReflTransGen (Driver.CursorOn p) cmd q →
      Driver.isCandidate p q = true ∧ Driver.anchor p q = Driver.anchor p cmd) ∧
    (p.TreeShaped → ∀ x q, Criteria.isCriteriaCall p x = true →
      Criteria.isCriteriaCall p q = true → Relation.TransGen (Criteria.OperandOf p) x q →
      Criteria.anchor p x = Criteria.anchor p q) ∧
    (∀ c pl, Criteria.isCriteriaCall p c = true →
      Criteria.enclosingPipeline? p (Criteria.outermostCriteria p c) = some pl →
      (Criteria.anchor p c = Criteria.anchor p pl ↔
        (Criteria.firstMatchCriteria? p pl).isSome = true)) := by
  refine ⟨?_, fun ht _ _ hcmd h => Driver.cursorChain_anchor ht hcmd h,
    fun ht _ _ hx hq h => Criteria.anchor_eq_of_operandOf ht hx hq h,
    fun _ _ hc hpl => Criteria.anchor_eq_anchor_iff_firstMatchCriteria? hc hpl⟩
  intro e d a h hret
  obtain ⟨-, hd, hc, rfl⟩ := (anchorOf?_eq_some_iff hreg).1 h
  have hhost := hreg d hd
  obtain ⟨hca, haa⟩ := QueryParser.anchor_settles hhost hc hret
  have hexpr := QueryParser.hasExpr_of_isCandidate hhost hca
  exact ⟨hca, haa, (anchorOf?_eq_some_iff hreg).2 ⟨hexpr, hd, hca, haa⟩,
    (dialectFor?_eq_some_iff hreg).2 ⟨hexpr, hd, hca, haa⟩,
    QueryParser.parse_yields_ok hhost hca haa⟩

/-- Two parts that lose their query: the criteria call `x` (0) is an operand of
`a.orOperator(x)` (1) and also the argument of `log(x)` (2), which as the last container
holds its parent link; and the pipeline `newAggregation(match(c1, c2))` (6) has one `match`
stage (5), of two criteria (3, 4). -/
def looseParts : Program where
  exprs := #[
    { kind := .call ⟨none, "where", some SpringName.criteria, none, []⟩, parent := some 2 },
    { kind := .call ⟨none, "orOperator", some SpringName.criteria, none, [0]⟩ },
    { kind := .call ⟨none, "log", none, none, [0]⟩ },
    { kind := .call ⟨none, "where", some SpringName.criteria, none, []⟩, parent := some 5 },
    { kind := .call ⟨none, "where", some SpringName.criteria, none, []⟩, parent := some 5 },
    { kind := .call ⟨none, "match", some SpringName.aggregation, none, [3, 4]⟩, parent := some 6 },
    { kind := .call ⟨none, "newAggregation", some SpringName.aggregation, none, [5]⟩ }]

/-- An operand of a criteria call that stands in a second container, and the criteria of a
pipeline whose only `match` stage has two of them, keep anchors of their own. -/
theorem anchor_not_shared_by_looseParts :
    0 ∈ looseParts.children 1 ∧
      (standard.anchorOf? looseParts 0).map Prod.snd = some 0 ∧
      (standard.anchorOf? looseParts 1).map Prod.snd = some 1 ∧
      3 ∈ looseParts.children 5 ∧ 5 ∈ looseParts.children 6 ∧
      (standard.anchorOf? looseParts 3).map Prod.snd = some 3 ∧
      (standard.anchorOf? looseParts 6).map Prod.snd = some 6 := by
  decide +kernel

/-- In the standard registry, the orOperator call of `looseParts` is its own anchor, and the
criteria parser is the one picked for it. -/
theorem anchor_law_standard :
    standard.OfHostDialects ∧ standard.dialectFor? looseParts 1 = some .criteria :=
  have hanchor : standard.anchorOf? looseParts 1 = some (.criteria, 1) :=
    (anchorOf?_eq_some_iff standard_ofHostDialects).2
      ⟨by decide, by simp [standard, QueryParser.registry], by decide +kernel, by decide +kernel⟩
  ⟨standard_ofHostDialects, ((anchor_law standard standard_ofHostDialects looseParts).1 1 .criteria 1
    hanchor fun _ => ⟨1, by decide +kernel⟩).2.2.2.1⟩

end Registry

end QueryScope
