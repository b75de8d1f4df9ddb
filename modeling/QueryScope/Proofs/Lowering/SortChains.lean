import Mathlib.Data.List.Basic
import QueryScope.Proofs.Lowering.Nesting
/-!
# Sort chains read forwards

A sort is written as a chain of `Sort` calls: `by(..)` and `and(..)` add keys, and
`ascending()`, `descending()` and `reverse()` change the keys before them. Read from the left,
a chain is a list of steps (`SortStep`) run over the keys so far (`SortStep.run`): keys are
appended, a forcing modifier sets the direction of every key so far, `reverse()` flips it.

The lowering reads the chain the other way round. For each call it folds the calls after it
from the outermost in (`SortState.inner`): the first forcing modifier met wins and the
reversals outside it are counted; the key then gets the forced direction or its own, flipped
when reversed (`SortState.apply`). A nested `and(..)` starts from the state of its own place.

The two readings agree because folding one more call in, from the inside, is the same as
applying its modifier to the key first (`SortState.apply_inner`). By induction over the calls
after a key, the state at a key applies the modifiers after it in order
(`apply_foldl_reverse`). By induction over the nesting (the fuel), every key of the chain comes
out in place with its forward direction, and the context comes back as it was
(`sortKeysWith_run`, `sortKeys_forward`).
-/

namespace QueryScope

namespace Program

theorem receiversFrom_cons {p : Program} {accept : Nat → Bool} {id r : Nat}
    (ha : accept id = true) (hr : p.receiverBelow? id = some r) :
    p.receiversFrom accept id = id :: p.receiversFrom accept r := by
  rw [Program.receiversFrom, if_pos ha]
  split <;> simp_all

theorem receiversFrom_stop {p : Program} {accept : Nat → Bool} {id : Nat}
    (ha : accept id = false) : p.receiversFrom accept id = [] := by
  rw [Program.receiversFrom, if_neg (by simp [ha])]

theorem receiverBelow?_of_receiver {p : Program} {id r : Nat} {c : Call}
    (hc : p.call? id = some c) (hr : c.receiver = some r) (hs : p.stripParens r = r)
    (hlt : r < id) : p.receiverBelow? id = some r := by
  simp [Program.receiverBelow?, hc, hr, hs, hlt]

end Program

namespace Criteria

/-! ### The forward reading -/

/-- A key of a sort as the forward reading sees it: on a field named at an expression, with its
direction so far, or a key the lowering does not understand. -/
inductive Key where
  | field (source field : Nat) (direction : Option Direction)
  | unknown (source : Nat)
  deriving DecidableEq

namespace Key

/-- The direction of a key; a key not understood has none. -/
def direction : Key → Option Direction
  | .field _ _ d => d
  | .unknown _ => none

/-- Change the direction of a key. -/
def redirect (f : Option Direction → Option Direction) : Key → Key
  | .field s x d => .field s x (f d)
  | .unknown s => .unknown s

/-- The node of a key. -/
def node (r : Resolver) : Key → Node
  | .field s x d => sortKey r s x d
  | .unknown s => Lowering.unknownNode s

@[simp] theorem redirect_id : Key.redirect id = id := by
  funext k
  cases k <;> rfl

@[simp] theorem redirect_redirect (f g : Option Direction → Option Direction) (k : Key) :
    (k.redirect f).redirect g = k.redirect (g ∘ f) := by
  cases k <;> rfl

@[simp] theorem redirect_comp (f g : Option Direction → Option Direction) :
    Key.redirect g ∘ Key.redirect f = Key.redirect (g ∘ f) := by
  funext k
  cases k <;> rfl

end Key

/-- One call of a sort chain: `by(..)` with the keys it writes, `and(..)` of a nested chain,
a modifier, or `unsorted()`. -/
inductive SortStep where
  | keys (ks : List Key)
  | nested (inner : List SortStep)
  | ascending
  | descending
  | reverse
  | unsorted

namespace SortStep

/-- The method name of a step. -/
def name : SortStep → String
  | .keys _ => "by"
  | .nested _ => "and"
  | .ascending => "ascending"
  | .descending => "descending"
  | .reverse => "reverse"
  | .unsorted => "unsorted"

/-- What a step does to the direction of each key before it. -/
def modify : SortStep → Option Direction → Option Direction
  | .ascending, _ => some .ascending
  | .descending, _ => some .descending
  | .reverse, d => d.map Direction.flip
  | _, d => d

/-- The keys of a chain read from the left, after the keys `acc`: `by` and `and` append keys,
and a modifier changes every key so far. -/
def run : List SortStep → List Key → List Key
  | [], acc => acc
  | .keys ks :: rest, acc => run rest (acc ++ ks)
  | .nested inner :: rest, acc => run rest (acc ++ run inner [])
  | m :: rest, acc => run rest (acc.map (Key.redirect m.modify))

/-- `Sort.by(DESC, "a").and(Sort.by("b")).reverse().and(Sort.by(Order.asc("c")))`, read from
the left: the reversal flips the keys of `a` and `b`, and not the key of `c` after it. -/
example : run [.keys [.field 3 1 (some .descending)], .nested [.keys [.field 6 4 (some .ascending)]],
    .reverse, .nested [.keys [.field 13 11 (some .ascending)]]] [] =
    [.field 3 1 (some .ascending), .field 6 4 (some .descending), .field 13 11 (some .ascending)] := by
  simp [run, SortStep.modify, Key.redirect, Direction.flip]

/-- The levels a chain takes: one, and one more for each `and(..)` nested in it. -/
def depth : List SortStep → Nat
  | [] => 1
  | .nested inner :: rest => max (depth inner + 1) (depth rest)
  | _ :: rest => depth rest

/-- The keys a step adds at its own place. -/
def produced : SortStep → List Key
  | .keys ks => ks
  | .nested inner => run inner []
  | _ => []

/-- The modifiers of the steps after a key, applied to it from the innermost out. -/
def after (steps : List SortStep) (d : Option Direction) : Option Direction :=
  steps.foldl (fun d st => st.modify d) d

theorem after_nil : after [] = id := rfl

theorem after_cons (st : SortStep) (rest : List SortStep) :
    after (st :: rest) = after rest ∘ st.modify := rfl

theorem run_cons_nil (st : SortStep) (rest : List SortStep) :
    run (st :: rest) [] = run rest st.produced := by
  cases st <;> simp [run, produced]

/-- The keys before a chain get all its modifiers; the chain's own keys follow. -/
theorem run_append : ∀ (steps : List SortStep) (acc : List Key),
    run steps acc = acc.map (Key.redirect (after steps)) ++ run steps [] := by
  intro steps
  induction steps with
  | nil => intro acc; simp [run, after_nil]
  | cons st rest ih =>
    intro acc
    rw [run_cons_nil, ih st.produced, after_cons]
    cases st with
    | keys ks =>
      simp only [run]
      rw [ih]
      simp only [produced, List.map_append, List.append_assoc]
      rfl
    | nested inner =>
      simp only [run]
      rw [ih]
      simp only [produced, List.map_append, List.append_assoc]
      rfl
    | ascending | descending | reverse | unsorted =>
      simp only [run]
      rw [ih]
      simp [produced, List.map_map]

theorem depth_pos (steps : List SortStep) : 0 < depth steps := by
  induction steps with
  | nil => simp [depth]
  | cons st rest ih => cases st <;> simp [depth, ih]

theorem depth_nested_le {inner : List SortStep} :
    ∀ {steps : List SortStep}, SortStep.nested inner ∈ steps → depth inner + 1 ≤ depth steps := by
  intro steps
  induction steps with
  | nil => simp
  | cons st rest ih =>
    intro h
    rcases List.mem_cons.1 h with rfl | h
    · simp [depth]
    · have := ih h
      cases st <;> simp [depth] <;> omega

end SortStep

/-! ### The state of the modifiers -/

@[simp] theorem Direction.flip_flip (d : Direction) : d.flip.flip = d := by cases d <;> rfl

/-- Folding one more call into the state, from the inside, applies its modifier first. -/
theorem SortState.apply_inner (s : SortState) (st : SortStep) (d : Option Direction) :
    (s.inner st.name).apply d = s.apply (st.modify d) := by
  rcases s with ⟨forced, reversed⟩
  cases forced with
  | some f => cases st <;> simp [SortState.inner, SortState.apply, SortStep.modify]
  | none =>
    cases st <;> cases d <;> cases reversed <;>
      simp [SortState.inner, SortState.apply, SortStep.modify, SortStep.name]

@[simp] theorem SortState.apply_default : SortState.apply {} = id := by
  funext d
  cases d <;> rfl

/-! ### The keys a `by` call writes -/

/-- One call of an `Order` chain: `asc`, `desc` and `by` name the field and give its
direction, `with` gives the direction. -/
def orderStep (r : Resolver) (acc : Option Nat × Option Direction) (id : Nat) :
    Option Nat × Option Direction :=
  (r.program.call? id).elim acc fun c =>
    if c.args.length = 1 then
      if c.name = "asc" ∨ c.name = "by" then (c.args.head?, some .ascending)
      else if c.name = "desc" then (c.args.head?, some .descending)
      else if c.name = "with" then (acc.1, c.args.head?.bind (direction? r))
      else acc
    else acc

/-- The key an `Order` chain writes: the last field named, with the last direction given. -/
def orderKey (r : Resolver) (outer : Nat) : Key :=
  let named := (r.program.receiverChain (isOrderCall r.program) outer).foldl (orderStep r)
    (none, none)
  named.1.elim (.unknown outer) fun f => .field outer f named.2

/-- The key an operand of `Sort.by(..)` writes: an `Order`, or a field sorted ascending. -/
def operandKey (r : Resolver) (source operand : Nat) : Key :=
  (r.resolveUntil operand (isOrderCall r.program)).elim (.field source operand (some .ascending))
    (orderKey r)

/-- The keys a `Sort.by(..)` call writes: after a leading direction, one key in that direction
per field name; otherwise one key per operand. -/
def writtenKeys (r : Resolver) (source : Nat) (args : List Nat) : List Key :=
  (args.head?.bind (direction? r)).elim ((operands r args).map (operandKey r source))
    fun d => (fieldNames r args.tail).map fun f => .field source f (some d)

theorem order_eq (r : Resolver) (outer : Nat) (s : SortState) :
    order r outer s = ((orderKey r outer).redirect s.apply).node r := by
  unfold order orderKey
  dsimp only
  conv_lhs => rw [List.foldl_ext _ (orderStep r) _ (by
    intro acc id _
    unfold orderStep
    split
    · next c hc =>
      simp only [hc, Option.elim]
      split
      case h_5 =>
        -- no `Order` method of one argument: the pair so far is kept
        by_cases hlen : c.args.length = 1
        · obtain ⟨x, hx⟩ := List.length_eq_one_iff.mp hlen
          simp_all
        · simp [hlen]
      all_goals simp_all
    · next hc => simp [hc])]
  generalize List.foldl (orderStep r) (none, none) _ = named
  obtain ⟨_ | f, d⟩ := named <;> rfl

/-- A `Sort.by(..)` call gives the keys it writes, each under the state in force. -/
theorem sortBy_eq (r : Resolver) (source : Nat) (args : List Nat) (s : SortState) :
    sortBy r source args s = (writtenKeys r source args).map fun k => (k.redirect s.apply).node r := by
  unfold sortBy writtenKeys
  extract_lets p byOperands
  have hoperands : byOperands =
      ((operands r args).map (operandKey r source)).map fun k => (k.redirect s.apply).node r := by
    simp only [byOperands, List.map_map]
    apply List.map_congr_left
    intro o _
    split
    · next ord hord =>
      simp only [p] at hord
      simp [operandKey, hord, order_eq]
    · next hnone =>
      simp only [p] at hnone
      simp [operandKey, hnone, Key.redirect, Key.node]
  cases args with
  | nil => simpa using hoperands
  | cons first fields =>
    cases hd : direction? r first with
    | none => simpa [hd] using hoperands
    | some d => simp [hd, directedKeys, List.map_map, Key.redirect, Key.node]

/-! ### Sort chains of a program -/

mutual
/-- `SortChain r expr steps`: the sort `expr` leads to is a chain of `Sort` calls that reads,
from the innermost call out, as `steps`. -/
inductive SortChain (r : Resolver) : Nat → List SortStep → Prop
  | mk {expr outer : Nat} {steps : List SortStep} :
      r.resolveUntil expr (isSortCall r.program) = some outer →
      SortCalls r (r.program.receiverChain (isSortCall r.program) outer) steps →
      SortChain r expr steps

/-- The calls of a chain, each read as one step. -/
inductive SortCalls (r : Resolver) : List Nat → List SortStep → Prop
  | nil : SortCalls r [] []
  | cons {id : Nat} {ids : List Nat} {st : SortStep} {steps : List SortStep} :
      SortCall r id st → SortCalls r ids steps → SortCalls r (id :: ids) (st :: steps)

/-- One call of a chain read as a step: `by(..)` with the keys it writes, `and(..)` of a
nested chain, a modifier without arguments, or `unsorted()`. -/
inductive SortCall (r : Resolver) : Nat → SortStep → Prop
  | keys {id : Nat} {c : Call} : r.program.call? id = some c → c.name = "by" →
      SortCall r id (.keys (writtenKeys r id c.args))
  | nested {id other : Nat} {c : Call} {inner : List SortStep} : r.program.call? id = some c →
      c.name = "and" → c.args = [other] → SortChain r other inner → SortCall r id (.nested inner)
  | modifier {id : Nat} {c : Call} {m : SortStep} : r.program.call? id = some c →
      m ∈ [.ascending, .descending, .reverse] → c.name = m.name → c.args = [] → SortCall r id m
  | unsorted {id : Nat} {c : Call} : r.program.call? id = some c → c.name = "unsorted" →
      SortCall r id .unsorted
end

section Chains

variable {r : Resolver}

theorem SortCall.call_name {id : Nat} {st : SortStep} (h : SortCall r id st) :
    ∃ c, r.program.call? id = some c ∧ c.name = st.name := by
  cases h with
  | keys hc hn => exact ⟨_, hc, hn⟩
  | nested hc hn _ _ => exact ⟨_, hc, hn⟩
  | modifier hc _ hn _ => exact ⟨_, hc, hn⟩
  | unsorted hc hn => exact ⟨_, hc, hn⟩

/-- Folding the calls after a key from the outermost in gives the state whose direction is that
of the modifiers after the key applied from the innermost out. -/
theorem apply_foldl_reverse {f : SortState → Nat → SortState}
    (hf : ∀ s id st, SortCall r id st → ∀ d, (f s id).apply d = s.apply (st.modify d)) :
    ∀ ids steps, SortCalls r ids steps → ∀ t,
      (ids.reverse.foldl f t).apply = t.apply ∘ SortStep.after steps := by
  intro ids
  induction ids with
  | nil =>
    intro steps h t
    cases h
    rfl
  | cons id ids ih =>
    intro steps h t
    cases h with
    | cons hcall hrest =>
      funext d
      rw [List.reverse_cons, List.foldl_append, List.foldl_cons, List.foldl_nil,
        hf _ _ _ hcall, ih _ hrest]
      rfl

/-- The walk along a chain that, at each call, adds the keys of the call under the calls after
it and passes those calls on, gives the chain's keys in order. -/
theorem foldlM_sortCalls {F : List Node × List Nat → Nat → Lowering (List Node × List Nat)}
    {s : LoweringContext} {render : Key → Node} {steps : List SortStep}
    (hF : ∀ id st rest restSteps keys, SortCall r id st → SortCalls r rest restSteps →
      st :: restSteps <:+ steps →
      (F (keys, id :: rest) id).run s =
        ((keys ++ st.produced.map (render ∘ Key.redirect (SortStep.after restSteps)), rest), s)) :
    ∀ ids sts, SortCalls r ids sts → sts <:+ steps → ∀ keys,
      (ids.foldlM F (keys, ids)).run s = ((keys ++ (SortStep.run sts []).map render, []), s) := by
  intro ids
  induction ids with
  | nil =>
    intro sts h _ keys
    cases h
    simp [SortStep.run]
    rfl
  | cons id ids ih =>
    intro sts h hsuf keys
    cases h with
    | @cons _ _ st restSteps hcall hrest =>
      simp only [List.foldlM_cons, StateT.run_bind, hF _ _ _ _ _ hcall hrest hsuf]
      refine (ih _ hrest ((List.suffix_cons _ _).trans hsuf) _).trans ?_
      rw [SortStep.run_cons_nil, SortStep.run_append restSteps st.produced]
      simp

/-- A chain within the depth bound and the fuel lowers to the keys of its forward reading,
under the state inherited from around it, and gives the context back as it was. -/
theorem sortKeysWith_run : ∀ fuel expr steps (t : SortState) (s : LoweringContext),
    SortChain r expr steps → s.depth + SortStep.depth steps ≤ s.maxDepth →
    SortStep.depth steps ≤ fuel →
    (sortKeysWith r fuel expr t).run s =
      ((SortStep.run steps []).map fun k => (k.redirect t.apply).node r, s) := by
  -- induction on the fuel, which bounds the nesting of `and(..)`
  intro fuel
  induction fuel with
  | zero =>
    intro expr steps t s _ _ hfuel
    have := SortStep.depth_pos steps
    omega
  | succ fuel ih =>
    intro expr steps t s hchain hdepth hfuel
    obtain ⟨ho, hcalls⟩ := hchain
    have hs : s.depth < s.maxDepth := by
      have := SortStep.depth_pos steps
      omega
    simp only [sortKeysWith]
    rw [Lowering.nested_run_enter _ _ _ s hs]
    simp only [ho, StateT.run_bind]
    rw [@foldlM_sortCalls r _ _ (fun k => (k.redirect t.apply).node r) steps ?hF _ _ hcalls
      List.suffix_rfl []]
    · rfl
    · intro id st rest restSteps keys hcall hrest hsuf
      simp only [List.drop_succ_cons, List.drop_zero]
      -- the state in force at this call is that of the calls after it
      generalize hstate : List.foldl _ t rest.reverse = u
      have hu : u.apply = t.apply ∘ SortStep.after restSteps := by
        rw [← hstate]
        refine apply_foldl_reverse ?_ rest restSteps hrest t
        intro s' o st' hcall' d
        obtain ⟨c', hc', hname'⟩ := hcall'.call_name
        simp only [hc']
        rw [hname', SortState.apply_inner]
      cases hcall with
      | keys hc hname =>
        simp only [hc, hname]
        rw [sortBy_eq, hu]
        simp only [SortStep.produced, Function.comp_def, Key.redirect_redirect]
        rfl
      | @nested _ _ _ inner hc hname hargs hchain =>
        -- the nested chain lies one level deeper, within the bound and the fuel
        have hd := SortStep.depth_nested_le (hsuf.subset List.mem_cons_self)
        simp only [hc, hname, hargs, StateT.run_bind]
        rw [ih _ _ u _ hchain (by simp; omega) (by omega), hu]
        simp only [SortStep.produced, Function.comp_def, Key.redirect_redirect]
        rfl
      | modifier hc hm hname hargs =>
        simp only [List.mem_cons, List.not_mem_nil, or_false] at hm
        rcases hm with rfl | rfl | rfl <;>
        · simp only [hc, hname, hargs, SortStep.name, SortStep.produced, List.map_nil,
            List.append_nil]
          rfl
      | unsorted hc hname =>
        simp only [hc, hname, SortStep.produced, List.map_nil, List.append_nil]
        rfl

/-- A key with no direction is an unknown operator. -/
theorem Key.operator?_node {k : Key} (h : k.direction = none) :
    (k.node r).operator? = some .unknown := by
  cases k with
  | field source field d =>
    simp only [Key.direction] at h
    subst h
    simp [Key.node, sortKey, Node.operator?, Node.ofComponents, Node.put, Node.components,
      Component.kind]
  | unknown source =>
    simp [Key.node, Lowering.unknownNode, Node.operator?, Node.ofComponents, Node.put,
      Node.components, Component.kind]

end Chains

/-- The keys of a sort chain within the depth bound are those of reading the chain from the
left, in order and with their directions, and a key whose direction is not determined is an
unknown operator; the context comes back as it was. -/
theorem sortKeys_forward (r : Resolver) (fuel expr : Nat) (steps : List SortStep)
    (s : LoweringContext) (hchain : SortChain r expr steps)
    (hdepth : s.depth + SortStep.depth steps ≤ s.maxDepth) (hfuel : SortStep.depth steps ≤ fuel) :
    (sortKeys r fuel expr).run s = ((SortStep.run steps []).map (Key.node r), s) ∧
      ∀ k ∈ SortStep.run steps [], k.direction = none → (k.node r).operator? = some .unknown := by
  refine ⟨?_, fun k _ hk => Key.operator?_node hk⟩
  rw [sortKeys, sortKeysWith_run fuel expr steps {} s hchain hdepth hfuel]
  simp

/-! ### The chain of the trailing-modifier test -/

open Builder in
/-- `Sort.by(DESC, "a").and(Sort.by("b")).reverse().and(Sort.by(Order.asc("c")))`: the
chain is expression 14, its calls 3, 7, 8 and 14, the nested sorts 6 and 13. -/
def trailingReverse : Program := Prod.snd (StateT.run (m := Id) (do
  let f ← file "A.java"
  let _ ← enumeration f SpringName.direction ["ASC", "DESC"]
  let c ← declareClass f "com.example.A" .plain
  let _ ← method c "m" none
  let desc ← fieldRef 1
  let a ← literal (.string "a")
  let byA ← staticCall SpringName.sort "by" [desc, a]
  let b ← literal (.string "b")
  let byB ← staticCall SpringName.sort "by" [b]
  let andB ← call byA SpringName.sort "and" [byB]
  let reversed ← call andB SpringName.sort "reverse" []
  let cName ← literal (.string "c")
  let ascC ← staticCall SpringName.order "asc" [cName]
  let byOrder ← staticCall SpringName.sort "by" [ascC]
  let _ ← call reversed SpringName.sort "and" [byOrder]
  pure ()) ({} : Builder)) |>.program

/-- The steps of the chain of `trailingReverse`, from the innermost call out. -/
def trailingReverseSteps : List SortStep :=
  [.keys (writtenKeys ⟨trailingReverse, defaultLimit⟩ 3 [0, 1]),
    .nested [.keys (writtenKeys ⟨trailingReverse, defaultLimit⟩ 6 [4])], .reverse,
    .nested [.keys (writtenKeys ⟨trailingReverse, defaultLimit⟩ 13 [11])]]

/-- The chain of `trailingReverse` from a fresh context: its keys are those of its forward
reading. -/
theorem sortKeys_forward_trailingReverse :
    SortChain ⟨trailingReverse, defaultLimit⟩ 14 trailingReverseSteps ∧
    (LoweringContext.withLimits .springCriteria defaultLimit defaultLimit).depth +
        SortStep.depth trailingReverseSteps ≤
      (LoweringContext.withLimits .springCriteria defaultLimit defaultLimit).maxDepth ∧
    SortStep.depth trailingReverseSteps ≤ defaultLimit + 1 ∧
    ((sortKeys ⟨trailingReverse, defaultLimit⟩ (defaultLimit + 1) 14).run
        (.withLimits .springCriteria defaultLimit defaultLimit) =
      ((SortStep.run trailingReverseSteps []).map (Key.node ⟨trailingReverse, defaultLimit⟩),
        .withLimits .springCriteria defaultLimit defaultLimit) ∧
    ∀ k ∈ SortStep.run trailingReverseSteps [], k.direction = none →
      (k.node ⟨trailingReverse, defaultLimit⟩).operator? = some .unknown) := by
  -- the `Sort` calls, and the type receivers the chains stop at
  have hsort : ∀ i ∈ [3, 6, 7, 8, 13, 14], isSortCall trailingReverse i = true := by decide
  have hstop : ∀ i ∈ [2, 5, 12], isSortCall trailingReverse i = false := by decide
  have hcall : ∀ i ∈ [3, 6, 7, 8, 13, 14], trailingReverse.stripParens i = i := by
    simp only [List.mem_cons, List.not_mem_nil, or_false]
    rintro i (rfl | rfl | rfl | rfl | rfl | rfl) <;> exact Program.stripParens_of_call? rfl
  have htype : ∀ i ∈ [2, 5, 12], trailingReverse.stripParens i = i := by
    simp only [List.mem_cons, List.not_mem_nil, or_false]
    rintro i (rfl | rfl | rfl) <;>
      exact Program.stripParens_of_kind (k := .reference (.typeName SpringName.sort)) rfl (by simp)
  -- the calls of each chain, down the receivers to the type `Sort`
  have hchain : trailingReverse.receiverChain (isSortCall trailingReverse) 14 = [3, 7, 8, 14] := by
    rw [Program.receiverChain, hcall 14 (by simp),
      Program.receiversFrom_cons (hsort 14 (by simp))
        (Program.receiverBelow?_of_receiver rfl rfl (hcall 8 (by simp)) (by decide)),
      Program.receiversFrom_cons (hsort 8 (by simp))
        (Program.receiverBelow?_of_receiver rfl rfl (hcall 7 (by simp)) (by decide)),
      Program.receiversFrom_cons (hsort 7 (by simp))
        (Program.receiverBelow?_of_receiver rfl rfl (hcall 3 (by simp)) (by decide)),
      Program.receiversFrom_cons (hsort 3 (by simp))
        (Program.receiverBelow?_of_receiver rfl rfl (htype 2 (by simp)) (by decide)),
      Program.receiversFrom_stop (hstop 2 (by simp))]
    rfl
  have hsingle : ∀ i, i = 6 ∨ i = 13 →
      trailingReverse.receiverChain (isSortCall trailingReverse) i = [i] := by
    rintro i (rfl | rfl)
    · rw [Program.receiverChain, hcall 6 (by simp),
        Program.receiversFrom_cons (hsort 6 (by simp))
          (Program.receiverBelow?_of_receiver rfl rfl (htype 5 (by simp)) (by decide)),
        Program.receiversFrom_stop (hstop 5 (by simp))]
      rfl
    · rw [Program.receiverChain, hcall 13 (by simp),
        Program.receiversFrom_cons (hsort 13 (by simp))
          (Program.receiverBelow?_of_receiver rfl rfl (htype 12 (by simp)) (by decide)),
        Program.receiversFrom_stop (hstop 12 (by simp))]
      rfl
  have hresolve : ∀ i ∈ [6, 13, 14],
      Resolver.resolveUntil ⟨trailingReverse, defaultLimit⟩ i (isSortCall trailingReverse) = some i := by
    intro i hi
    have hmem : i ∈ [3, 6, 7, 8, 13, 14] := by simp at hi ⊢; omega
    rw [Driver.resolveUntil_of_accept (by rw [hcall i hmem]; exact hsort i hmem), hcall i hmem]
  have h6 : SortChain ⟨trailingReverse, defaultLimit⟩ 6
      [.keys (writtenKeys ⟨trailingReverse, defaultLimit⟩ 6 [4])] := by
    refine .mk (hresolve 6 (by simp)) ?_
    rw [hsingle 6 (.inl rfl)]
    exact .cons (.keys (c := ⟨some 5, "by", some SpringName.sort, none, [4]⟩) rfl rfl) .nil
  have h13 : SortChain ⟨trailingReverse, defaultLimit⟩ 13
      [.keys (writtenKeys ⟨trailingReverse, defaultLimit⟩ 13 [11])] := by
    refine .mk (hresolve 13 (by simp)) ?_
    rw [hsingle 13 (.inr rfl)]
    exact .cons (.keys (c := ⟨some 12, "by", some SpringName.sort, none, [11]⟩) rfl rfl) .nil
  have h14 : SortChain ⟨trailingReverse, defaultLimit⟩ 14 trailingReverseSteps := by
    refine .mk (hresolve 14 (by simp)) ?_
    rw [hchain]
    exact .cons (.keys (c := ⟨some 2, "by", some SpringName.sort, none, [0, 1]⟩) rfl rfl) (.cons (.nested rfl rfl rfl h6)
      (.cons (.modifier rfl (by simp) rfl rfl) (.cons (.nested rfl rfl rfl h13) .nil)))
  have hdepth : SortStep.depth trailingReverseSteps = 2 := by
    simp [trailingReverseSteps, SortStep.depth]
  have hkeys := sortKeys_forward ⟨trailingReverse, defaultLimit⟩ (defaultLimit + 1) 14
    trailingReverseSteps (.withLimits .springCriteria defaultLimit defaultLimit) h14
    (by simp [hdepth, LoweringContext.withLimits, defaultLimit])
    (by simp [hdepth, defaultLimit])
  exact ⟨h14, by simp [hdepth, LoweringContext.withLimits, defaultLimit],
    by simp [hdepth, defaultLimit], hkeys⟩

end Criteria

end QueryScope
