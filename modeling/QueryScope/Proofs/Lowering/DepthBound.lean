import QueryScope.Lowering.Constants
import QueryScope.Proofs.Host.SyntaxGraph
/-!
# Raising the resolution depth

The resolver follows an expression through parentheses, variables, fields, calls and array
items, one level per step, and gives up past its depth bound. With a deeper bound it goes at
least as far, so an answer found within the lower bound is still an answer within the higher
one (`kept_resolveAt`, `kept_untilAt`).

The value found can change. A call takes the first `return` value of its method that resolves,
and a deeper bound can make an earlier `return` resolve: the call then switches to that value
(`resolve_switches_return_with_depth`). Following an expression to where its value was built
(`resolveUntil`), a field is followed to its initializer first and to its last assignment
before the use only when the initializer leads nowhere, and a deeper bound can switch it from
the assignment to the initializer. Where there is no such choice, every method having at most
one `return` and no field with an initializer being assigned, the value stays the same.

`AnswerKept exact a b` says that `b` answers whenever `a` does, and with the same answer when
`exact` holds. It is kept by the ways the resolver combines the answers of its steps: a step
from a place both bounds reach alike (`AnswerKept.bind`), the first of several alternatives
(`AnswerKept.findSome?`), and all items of a list (`kept_resolveAll`).

Main statement: `resolve_deeper`.
-/

namespace QueryScope

/-- Every method of the program has at most one `return` value. -/
def Program.SingleReturns (p : Program) : Prop := ∀ m, (p.returnsOf m).length ≤ 1

/-- Every method has at most one `return` value, and no field both has an initializer and is
assigned. -/
def Program.SingleSources (p : Program) : Prop :=
  p.SingleReturns ∧ ∀ f, (p.field f).initializer.isSome → p.fieldAssignments f = []

/-- `b` answers whenever `a` does, and with the same answer when `exact` holds. -/
def AnswerKept {α : Type} (exact : Prop) (a b : Option α) : Prop :=
  ∀ v, a = some v → ∃ v', b = some v' ∧ (exact → v' = v)

namespace AnswerKept

variable {α β : Type} {exact : Prop}

theorem refl (a : Option α) : AnswerKept exact a a := fun v h => ⟨v, h, fun _ => rfl⟩

theorem none_left (b : Option α) : AnswerKept exact none b := fun _ h => by cases h

/-- A step from a place that both sides reach alike. -/
theorem bind {o : Option α} {f g : α → Option β} (h : ∀ x, AnswerKept exact (f x) (g x)) :
    AnswerKept exact (o.bind f) (o.bind g) := by
  cases o with
  | none => exact none_left _
  | some x => exact h x

theorem map {a b : Option α} (f : α → β) (h : AnswerKept exact a b) :
    AnswerKept exact (a.map f) (b.map f) := by
  intro v ha
  obtain ⟨x, hx, rfl⟩ := Option.map_eq_some_iff.1 ha
  obtain ⟨x', hb, hx'⟩ := h x hx
  exact ⟨f x', by rw [hb, Option.map_some], fun hex => by rw [hx' hex]⟩

/-- The first alternative that answers: some alternative still answers, though not always the
same one, and when there is at most one alternative it is the same one. -/
theorem findSome? {l : List α} {f g : α → Option β} (hl : exact → l.length ≤ 1)
    (h : ∀ x ∈ l, AnswerKept exact (f x) (g x)) :
    AnswerKept exact (l.findSome? f) (l.findSome? g) := by
  intro v hv
  obtain ⟨l₁, x, l₂, rfl, hx, -⟩ := List.findSome?_eq_some_iff.1 hv
  obtain ⟨v', hgx, hv'⟩ := h x (by simp) v hx
  obtain ⟨w, hw⟩ := Option.isSome_iff_exists.1
    (List.findSome?_isSome_iff.2 ⟨x, by simp, by simp [hgx]⟩ : ((l₁ ++ x :: l₂).findSome? g).isSome)
  refine ⟨w, hw, fun hex => ?_⟩
  -- a single alternative is `x` itself
  have hlen := hl hex
  simp only [List.length_append, List.length_cons] at hlen
  obtain ⟨rfl, rfl⟩ : l₁ = [] ∧ l₂ = [] :=
    ⟨List.eq_nil_of_length_eq_zero (by omega), List.eq_nil_of_length_eq_zero (by omega)⟩
  simp only [List.nil_append, List.findSome?_cons, hgx] at hw
  cases hw
  exact hv' hex

end AnswerKept

namespace Resolver

/-! ### One resolution step per shape -/

section Steps

variable {r : Resolver} {e f : Nat}

theorem resolveAt_literal {l : Literal} (hk : (r.program.expr e).kind = .literal l) :
    r.resolveAt (f + 1) e = some (literalValue l) := by
  rw [resolveAt.eq_2, Program.stripParens_of_kind hk (by simp), hk]

/-- A field that is no enum constant has the value of its initializer, one level down. -/
theorem resolveAt_field {fld : Nat} (hk : (r.program.expr e).kind = .reference (.field fld))
    (henum : (r.program.field fld).isEnumConstant = false) :
    r.resolveAt (f + 1) e = (r.program.field fld).initializer.bind (r.resolveAt f) := by
  rw [resolveAt.eq_2, Program.stripParens_of_kind hk (by simp), hk]
  simp [henum]

/-- A call of a method of the program has the first of its `return` values that resolves, one
level down. -/
theorem resolveAt_call {c : Call} {m : Nat} (hk : (r.program.expr e).kind = .call c)
    (ht : c.target = some m) (hctor : (r.program.method m).isConstructor = false) :
    r.resolveAt (f + 1) e = (r.program.returnsOf m).findSome? (r.resolveAt f) := by
  rw [resolveAt.eq_2, Program.stripParens_of_kind hk (by simp), hk]
  simp [ht, hctor]

end Steps

/-! ### More fuel keeps the answers -/

variable (p : Program) (d d' : Nat)

theorem kept_resolveAll {exact : Prop} {f f' : Nat} (es : List Nat)
    (h : ∀ e ∈ es, AnswerKept exact ((⟨p, d⟩ : Resolver).resolveAt f e)
      ((⟨p, d'⟩ : Resolver).resolveAt f' e)) :
    AnswerKept exact ((⟨p, d⟩ : Resolver).resolveAll f es)
      ((⟨p, d'⟩ : Resolver).resolveAll f' es) := by
  induction es with
  | nil => simp only [resolveAll]; exact .refl _
  | cons e es ih =>
    intro vs hvs
    simp only [resolveAll, bind, Option.bind_eq_some_iff, pure, Option.some.injEq] at hvs
    obtain ⟨v, hv, vs', hvs', rfl⟩ := hvs
    obtain ⟨w, hw, hwv⟩ := h e (by simp) v hv
    obtain ⟨ws, hws, hwsv⟩ := ih (fun e he => h e (by simp [he])) vs' hvs'
    refine ⟨w :: ws, by simp [resolveAll, hw, hws], fun hex => ?_⟩
    rw [hwv hex, hwsv hex]

/-- With at least as much fuel, the resolver answers wherever it answered before, and with
the same value when no method has two `return` values. The depth bound itself plays no part
below `resolve`, so the two resolvers need only share their program. -/
theorem kept_resolveAt {f f' : Nat} (hf : f ≤ f') (e : Nat) :
    AnswerKept p.SingleReturns ((⟨p, d⟩ : Resolver).resolveAt f e)
      ((⟨p, d'⟩ : Resolver).resolveAt f' e) := by
  induction f generalizing f' e with
  | zero => rw [resolveAt.eq_1]; exact .none_left _
  | succ f ih =>
    obtain ⟨f', rfl⟩ : ∃ g, f' = g + 1 := ⟨f' - 1, by omega⟩
    have ih' := fun e => ih (Nat.le_of_succ_le_succ hf) e
    rw [resolveAt.eq_2, resolveAt.eq_2]
    dsimp only
    -- both sides look at the same expression; only the steps below it get more fuel
    split
    · exact .refl _
    · split
      · exact .refl _
      · exact .bind ih'
    · exact .bind ih'
    · split
      · exact .refl _
      · split
        · exact .refl _
        · exact .findSome? (fun h => h _) fun x _ => ih' x
    · exact (kept_resolveAll p d d' _ fun x _ => ih' x).map _
    · exact .refl _

/-- The same for following an expression to the first expression a test accepts, where a field
with an initializer that leads nowhere falls back on its last assignment. -/
theorem kept_untilAt (accept : Nat → Bool) {f f' : Nat} (hf : f ≤ f') (e : Nat) :
    AnswerKept p.SingleSources ((⟨p, d⟩ : Resolver).untilAt accept f e)
      ((⟨p, d'⟩ : Resolver).untilAt accept f' e) := by
  induction f generalizing f' e with
  | zero => rw [untilAt.eq_1]; exact .none_left _
  | succ f ih =>
    obtain ⟨f', rfl⟩ : ∃ g, f' = g + 1 := ⟨f' - 1, by omega⟩
    have ih' := fun e => ih (Nat.le_of_succ_le_succ hf) e
    rw [untilAt.eq_2, untilAt.eq_2]
    dsimp only
    split
    · exact .refl _
    · split
      · split
        · exact .findSome? (fun h => h.1 _) fun x _ => ih' x
        · exact .refl _
      · exact .bind ih'
      · next fld _ =>
        -- the initializer first, then the last assignment before the use
        intro v hv
        split at hv
        · next _ found hA =>
          cases hv
          obtain ⟨w, hA', hw⟩ := AnswerKept.bind (o := (p.field fld).initializer) ih' _ hA
          rw [hA']
          exact ⟨w, rfl, hw⟩
        · next _ hA =>
          split
          · next found' hA' =>
            refine ⟨found', rfl, fun hex => absurd hv ?_⟩
            -- a field with an initializer has no assignment to fall back on
            have hinit : (p.field fld).initializer.isSome := by
              cases hi : (p.field fld).initializer with
              | none => rw [hi] at hA'; cases hA'
              | some _ => rfl
            rw [hex.2 fld hinit]
            simp
          · exact AnswerKept.bind (fun m => AnswerKept.bind fun (x : Nat × Nat) => ih' x.2) v hv
      · exact .refl _

/-! ### Main statement -/

/-- Raising the depth bound never loses an answer: what the resolver answers within depth `d`
it still answers within any `d' ≥ d`, and so does the search for the expression a test
accepts. The value is the same when no method has two `return` values (and, for the search,
no field with an initializer is also assigned). -/
theorem resolve_deeper (p : Program) {d d' : Nat} (hd : d ≤ d') (e : Nat) :
    (∀ v, (⟨p, d⟩ : Resolver).resolve e = some v →
      ∃ v', (⟨p, d'⟩ : Resolver).resolve e = some v' ∧ (p.SingleReturns → v' = v)) ∧
    (∀ accept x, (⟨p, d⟩ : Resolver).resolveUntil e accept = some x →
      ∃ x', (⟨p, d'⟩ : Resolver).resolveUntil e accept = some x' ∧ (p.SingleSources → x' = x)) :=
  ⟨kept_resolveAt p d d' (Nat.succ_le_succ hd) e,
    fun accept => kept_untilAt p d d' accept (Nat.succ_le_succ hd) e⟩

open Builder in
/-- `String name() { return NAME; return "b"; }` with `final String NAME = "a"`, and a call
`name()` as expression 3. -/
def twoReturns : Program := Prod.snd (StateT.run (m := Id) (do
  let f ← file "Names.java"
  let c ← declareClass f "com.example.Names" .plain
  let a ← literal (.string "a")
  let name ← finalField c "NAME" .string (some a)
  let m ← method c "name" (some .string)
  let _ ← ret (← fieldRef name)
  let _ ← ret (← literal (.string "b"))
  let _ ← method c "use" none
  let _ ← exprStmt (← invoke none m [])
  pure ()) ({} : Builder)) |>.program

/-- Within depth 1 the field `NAME` is too deep and the call takes its second `return`; within
depth 2 the first `return` resolves and the call switches to it. -/
theorem resolve_switches_return_with_depth :
    (⟨twoReturns, 1⟩ : Resolver).resolve 3 = some (.string "b") ∧
      (⟨twoReturns, 2⟩ : Resolver).resolve 3 = some (.string "a") := by
  have hreturns : twoReturns.returnsOf 0 = [1, 2] := by decide
  have hcall : ∀ d f, (⟨twoReturns, d⟩ : Resolver).resolveAt (f + 1) 3 =
      [1, 2].findSome? ((⟨twoReturns, d⟩ : Resolver).resolveAt f) := fun _ _ =>
    (resolveAt_call rfl rfl rfl).trans (congrArg _ hreturns)
  have hname : ∀ d f, (⟨twoReturns, d⟩ : Resolver).resolveAt (f + 1) 1 =
      (⟨twoReturns, d⟩ : Resolver).resolveAt f 0 := fun _ _ =>
    (resolveAt_field rfl rfl).trans rfl
  constructor
  · rw [resolve, hcall, List.findSome?_cons, hname, resolveAt.eq_1, List.findSome?_cons,
      resolveAt_literal rfl]
    rfl
  · rw [resolve, hcall, List.findSome?_cons, hname, resolveAt_literal rfl]
    rfl

/-- The program with two `return` values, within depths 1 and 2. -/
theorem resolve_deeper_twoReturns :
    1 ≤ 2 ∧
    (∀ v, (⟨twoReturns, 1⟩ : Resolver).resolve 3 = some v →
      ∃ v', (⟨twoReturns, 2⟩ : Resolver).resolve 3 = some v' ∧ (twoReturns.SingleReturns → v' = v)) ∧
    (∀ accept x, (⟨twoReturns, 1⟩ : Resolver).resolveUntil 3 accept = some x →
      ∃ x', (⟨twoReturns, 2⟩ : Resolver).resolveUntil 3 accept = some x' ∧
        (twoReturns.SingleSources → x' = x)) :=
  ⟨by decide, resolve_deeper twoReturns (by decide) 3⟩

end Resolver

end QueryScope
