import QueryScope.Proofs.Lowering.Anchors
import QueryScope.Proofs.Lowering.DepthBound
/-!
# Nested filters and the depth bound

Every `Filters` call a driver query is built from is lowered one level deeper than the call
around it (`Lowering.nested`): the context counts the levels entered, refuses a level once the
count has reached its bound, and counts back down when a level is left. A refused level is not
entered, so it is not left either: it records one failure and stands as an unknown node.

Entering and leaving are exact inverses, so a filter lowered without a refusal gives back the
context it was given, and one with a refusal gives it back with that one failure recorded
(`filter_run_nest`). For a chain of `N` calls of `and`, `or` or `nor`, each the single
argument of the one before, around an `eq` filter, lowered from a fresh context with depth
bound `L`:
- if `N < L` every call is entered: the filter is the chain of `N` combinator nodes around
  the `eq` node, and nothing is recorded;
- otherwise the first `L` calls are entered and the next is refused: the filter is `L`
  combinator nodes around one unknown node, and exactly one recursion failure is recorded;

and in both cases the depth is back to zero when the query is lowered
(`parse_nested_combinators`).
-/

namespace QueryScope

namespace Lowering

variable {α : Type} (what : String) (fallback : α) (body : Lowering α) (s : LoweringContext)

/-- Below the bound, a nested fragment runs one level deeper and comes back up. -/
theorem nested_run_enter (h : s.depth < s.maxDepth) :
    (nested what fallback body).run s =
      ((body.run { s with depth := s.depth + 1 }).1,
        (body.run { s with depth := s.depth + 1 }).2.exit) := by
  have hent : s.enter what = .ok { s with depth := s.depth + 1 } := by
    simp [LoweringContext.enter, Nat.not_le.2 h]
  simp [nested, hent]
  rfl

/-- At the bound, a nested fragment is not run: the failure is recorded, the depth kept. -/
theorem nested_run_refuse (h : s.maxDepth ≤ s.depth) :
    (nested what fallback body).run s =
      (fallback, s.addError (.recursionLimit what s.depth s.maxDepth)) := by
  have hent : s.enter what = .error (.recursionLimit what s.depth s.maxDepth) := by
    simp [LoweringContext.enter, h]
  simp [nested, hent, record]
  rfl

end Lowering

namespace Operator

theorem ofSpelling_combinator {op : Operator} (hop : op ∈ [.and, .or, .nor]) :
    ofSpelling op.spelling = op := by
  simp only [List.mem_cons, List.not_mem_nil, or_false] at hop
  rcases hop with rfl | rfl | rfl <;> decide

theorem spelling_ne_empty {op : Operator} (hop : op ∈ [.and, .or, .nor]) : op.spelling ≠ "empty" := by
  simp only [List.mem_cons, List.not_mem_nil, or_false] at hop
  rcases hop with rfl | rfl | rfl <;> decide

end Operator

namespace Driver

open Lowering

/-! ### Chains of direct `Filters` calls -/

/-- A direct call of a `Filters` method: no helper method, variable or parentheses stand between
the call and the place it is used. -/
def FiltersCall (p : Program) (name : String) (args : List Nat) (id : Nat) : Prop :=
  ∃ receiver, p.call? id =
    some { receiver, name, declaringType := some DriverName.filters, target := none, args }

/-- `Nest p name inner top calls`: the calls `calls` of the `Filters` method `name`, outermost
first, each the single argument of the one before, lead from `top` down to the filter `inner`. -/
inductive Nest (p : Program) (name : String) (inner : Nat) : Nat → List Nat → Prop
  | inner : Nest p name inner inner []
  | call {id arg : Nat} {calls : List Nat} : FiltersCall p name [arg] id →
      Nest p name inner arg calls → Nest p name inner id (id :: calls)

/-- The top of a nest is its outermost call, or the inner filter when there is no call. -/
theorem Nest.top_cases {p : Program} {name : String} {inner top : Nat} {calls : List Nat}
    (h : Nest p name inner top calls) : top = inner ∨ ∃ arg, FiltersCall p name [arg] top := by
  cases h with
  | inner => exact .inl rfl
  | call hcall _ => exact .inr ⟨_, hcall⟩

/-- Combinator nodes around a filter, one for each call, the outermost first. -/
def combinatorNest (op : Operator) (calls : List Nat) (inner : Node) : Node :=
  calls.foldr (fun id n => nodeAt id [.named op, .branch .filter [n]]) inner

/-- The node of `Filters.eq(field, value)` for a known field name and a known value. -/
def eqLeaf (id field value : Nat) (name : String) (v : Constant) : Node :=
  nodeAt id [.named .eq, .field (FieldRef.schemaAt field name),
    .value (.constant (.expr value) v v.bson)]

/-- A collection's `find` with one filter argument, which is no client session. -/
structure FindWith (p : Program) (a filter : Nat) : Prop where
  call : ∃ c, p.call? a = some c ∧ c.declaringType.any DriverName.isCollection = true ∧
    c.name = "find" ∧ c.args = [filter]
  notSession : (p.staticType? filter).any (·.simpleName == "ClientSession") = false

/-! ### One filter call -/

section Steps

variable {r : Resolver}

theorem builderCall?_filtersCall {name : String} {args : List Nat} {id : Nat}
    (h : FiltersCall r.program name args id) :
    ∃ c, builderCall? r [DriverName.filters] id = some (id, c) ∧ c.name = name ∧ c.args = args := by
  obtain ⟨recv, hc⟩ := h
  refine ⟨⟨recv, name, some DriverName.filters, none, args⟩, ?_, rfl, rfl⟩
  rw [builderCall?, resolveUntil_of_accept] <;>
    simp [Program.stripParens_of_call? hc, Program.callDeclaredBy, hc]

/-- A direct `Filters` call given where a list of filters may stand is one filter: it is no
array, and no list factory, and it leads nowhere else. -/
theorem listElements_filtersCall {name : String} {args : List Nat} {id : Nat}
    (h : FiltersCall r.program name args id) : listElements r id = [id] := by
  obtain ⟨recv, hc⟩ := h
  simp [listElements, Program.stripParens_of_call? hc, Program.kind_of_call? hc,
    Resolver.resolveUntil, Resolver.untilAt, Program.isListFactory, Program.isListOf,
    Program.isCallOf, Program.isArrayInit, hc, Call.is, Call.isDeclaredBy, DriverName.filters,
    JdkName.list, JdkName.arrays, JdkName.collections]

theorem filters_run_filtersCall {name : String} {args : List Nat} {top : Nat}
    (h : FiltersCall r.program name args top) (hname : name ≠ "empty") (fuel : Nat)
    (s : LoweringContext) :
    (filters r fuel top).run s = ([((filter r fuel top).run s).1], ((filter r fuel top).run s).2) := by
  obtain ⟨c, hb, hcname, -⟩ := builderCall?_filtersCall h
  have hempty : isEmptyFilter r top = false := by simp [isEmptyFilter, hb, hcname, hname]
  simp only [filters, hempty]
  rfl

/-- At the bound a filter is refused whatever it is: one failure, and an unknown node. -/
theorem filter_run_refuse (fuel e : Nat) (s : LoweringContext) (h : s.maxDepth ≤ s.depth) :
    (filter r fuel e).run s =
      (unknownNode e, s.addError (.recursionLimit "filter" s.depth s.maxDepth)) := by
  cases fuel <;> simp only [filter] <;> exact nested_run_refuse _ _ _ s h

/-- Below the bound, a combinator lowers its one argument one level deeper, and comes back. -/
theorem filter_run_combinator {op : Operator} (hop : op ∈ [.and, .or, .nor]) {arg id : Nat}
    (h : FiltersCall r.program op.spelling [arg] id) (harg : listElements r arg = [arg])
    (fuel : Nat) (s : LoweringContext) (hs : s.depth < s.maxDepth) :
    (filter r (fuel + 1) id).run s =
      (nodeAt id [.named op,
          .branch .filter [((filter r fuel arg).run { s with depth := s.depth + 1 }).1]],
        ((filter r fuel arg).run { s with depth := s.depth + 1 }).2.exit) := by
  obtain ⟨c, hb, hname, hargs⟩ := builderCall?_filtersCall h
  simp only [filter]
  rw [nested_run_enter _ _ _ s hs]
  simp only [hb, hname, hargs, varargs, Operator.ofSpelling_combinator hop]
  -- the three combinators share one branch of the lowering
  simp only [List.mem_cons, List.not_mem_nil, or_false] at hop
  rcases hop with rfl | rfl | rfl <;>
  · simp only [Operator.spelling, harg, List.mapM_cons, List.mapM_nil]
    rfl

theorem constantType_literalValue (l : Literal) :
    r.constantType (Resolver.literalValue l) = (Resolver.literalValue l).bson := by
  cases l <;> rfl

/-- Below the bound, an `eq` of a literal field name and a literal value is lowered to its
node, and the context comes back as it was. -/
theorem filter_run_eq {id field value : Nat} {name : String} {l : Literal}
    (h : FiltersCall r.program "eq" [field, value] id)
    (hfield : (r.program.expr field).kind = .literal (.string name))
    (hvalue : (r.program.expr value).kind = .literal l) (fuel : Nat) (s : LoweringContext)
    (hs : s.depth < s.maxDepth) :
    (filter r (fuel + 1) id).run s = (eqLeaf id field value name (Resolver.literalValue l), s) := by
  obtain ⟨c, hb, hname, hargs⟩ := builderCall?_filtersCall h
  have hof : Operator.ofSpelling "eq" = .eq := by decide
  have hname' : r.resolveFieldName field = FieldRef.schemaAt field name := by
    simp [Resolver.resolveFieldName, Resolver.resolveString, Resolver.resolve,
      Resolver.resolveAt_literal hfield, Resolver.literalValue, FieldRef.schemaAt]
  have hvalue' : r.resolveValue value =
      .constant (.expr value) (Resolver.literalValue l) (Resolver.literalValue l).bson := by
    simp [Resolver.resolveValue, Resolver.resolve, Resolver.resolveAt_literal hvalue,
      constantType_literalValue]
  have hrun : (filter r (fuel + 1) id).run s = (nodeAt id [.named .eq,
      .field (r.resolveFieldName field), .value (r.resolveValue value)], s) := by
    simp only [filter]
    rw [nested_run_enter _ _ _ s hs]
    simp only [hb, hname, hargs, hof]
    rfl
  rw [hrun, hname', hvalue']
  rfl

end Steps

/-! ### A whole chain -/

/-- A chain of combinators around a filter that lowers cleanly, from a context below its
bound and with fuel to spare: each call below the bound is entered and left again, and the
first call at the bound is refused. So the context comes back as it was, or with exactly one
recursion failure recorded. -/
theorem filter_run_nest {r : Resolver} {op : Operator} (hop : op ∈ [.and, .or, .nor])
    {leaf : Nat} {leafNode : Node} (hleafElems : listElements r leaf = [leaf])
    (hleaf : ∀ fuel (s : LoweringContext), s.depth < s.maxDepth →
      (filter r (fuel + 1) leaf).run s = (leafNode, s))
    {top : Nat} {calls : List Nat} (hnest : Nest r.program op.spelling leaf top calls) :
    ∀ fuel (s : LoweringContext), s.depth ≤ s.maxDepth → s.maxDepth < fuel + s.depth →
      (filter r fuel top).run s =
        if s.depth + calls.length < s.maxDepth then (combinatorNest op calls leafNode, s)
        else
          (combinatorNest op (calls.take (s.maxDepth - s.depth))
              (unknownNode ((calls.drop (s.maxDepth - s.depth)).headD leaf)),
            s.addError (.recursionLimit "filter" s.maxDepth s.maxDepth)) := by
  -- induction on the chain, from the innermost call out; the context is that of each call
  induction hnest with
  | inner =>
    intro fuel s hle hfuel
    by_cases hs : s.depth < s.maxDepth
    · obtain ⟨fuel, rfl⟩ : ∃ f, fuel = f + 1 := ⟨fuel - 1, by omega⟩
      rw [hleaf fuel s hs, if_pos (by simpa using hs)]
      rfl
    · have heq : s.depth = s.maxDepth := by omega
      rw [filter_run_refuse fuel _ s (by omega), if_neg (by simpa using hs), heq]
      simp [combinatorNest]
  | @call id arg calls hcall hrest ih =>
    intro fuel s hle hfuel
    by_cases hs : s.depth < s.maxDepth
    · obtain ⟨fuel, rfl⟩ : ∃ f, fuel = f + 1 := ⟨fuel - 1, by omega⟩
      have harg : listElements r arg = [arg] := by
        rcases hrest.top_cases with rfl | ⟨_, htop⟩
        exacts [hleafElems, listElements_filtersCall htop]
      rw [filter_run_combinator hop hcall harg fuel s hs,
        ih fuel { s with depth := s.depth + 1 } (by simp; omega) (by simp; omega)]
      dsimp only
      by_cases hfit : s.depth + 1 + calls.length < s.maxDepth
      · rw [if_pos hfit, if_pos (by simp; omega)]
        rfl
      · -- the refusal lies further in: one level fewer is left below this call
        rw [if_neg hfit, if_neg (by simp; omega),
          show s.maxDepth - s.depth = s.maxDepth - (s.depth + 1) + 1 by omega,
          List.take_succ_cons, List.drop_succ_cons]
        rfl
    · have heq : s.depth = s.maxDepth := by omega
      rw [filter_run_refuse fuel _ s (by omega), if_neg (by simp; omega), heq]
      simp [combinatorNest]

/-! ### The query around the chain -/

theorem FindWith.isCommand {p : Program} {a top : Nat} (h : FindWith p a top) : IsCommand p a := by
  obtain ⟨c, hc, hcoll, hname, -⟩ := h.call
  exact ⟨c, hc, hcoll, by simp [hname, collectionCommand?]⟩

theorem commandChain?_of_isCommand {p : Program} {a : Nat} (h : IsCommand p a) :
    commandChain? p a = some (a, []) := by
  obtain ⟨c, hc, hcoll, hcmd⟩ := h
  obtain ⟨command, hcommand⟩ := Option.isSome_iff_exists.1 hcmd
  simp [commandChain?, Program.stripParens_of_call? hc, chainFrom, hc, hcoll, hcommand]

/-- A `find` with no cursor call after it lowers its filter argument, with the limits of the
context it starts from, and ends in the context the filter leaves. -/
theorem lowerChain_run_find {p : Program} {a top : Nat} (h : FindWith p a top)
    (s : LoweringContext) :
    ((lowerChain a a [] p).run s).1.children .filter =
        ((filters ⟨p, s.maxDepth⟩ (s.maxDepth + 1) top).run s).1 ∧
      ((lowerChain a a [] p).run s).2 =
        ((filters ⟨p, s.maxDepth⟩ (s.maxDepth + 1) top).run s).2 := by
  obtain ⟨⟨c, hc, hcoll, hname, hargs⟩, hsession⟩ := h
  have hcmd : commandOf p a [] = .findMany := by simp [commandOf, hc, hname, collectionCommand?]
  have hcargs : commandArgs p c = [top] := by simp [commandArgs, hargs, hsession]
  rcases hrun : (filters ⟨p, s.maxDepth⟩ (s.maxDepth + 1) top).run s with ⟨fs, s'⟩
  simp only [lowerChain, hcmd, hc, hcargs, commandParts, StateT.run_bind, StateT.run_get,
    pure_bind, hrun, StateT.run_pure, List.reverse_nil, List.foldlM_nil]
  exact ⟨rfl, rfl⟩

theorem parse_run_find {p : Program} {a top : Nat} (h : FindWith p a top) (ha : anchor p a = a)
    (s : LoweringContext) :
    (parse p a).run s = (.ok ((lowerChain a a [] p).run s).1, ((lowerChain a a [] p).run s).2) := by
  have hcmd := h.isCommand
  simp only [parse, isCandidate_of_isCommand hcmd, ha, commandChain?_of_isCommand hcmd,
    Bool.not_true, bne_self_eq_false, Bool.false_eq_true, ite_false]
  rfl

/-- Lowering `find(c(c(… eq(field, value) …)))` for a combinator `c` with depth bound
`maxDepth`: below the bound the chain comes out whole and nothing is recorded; at the bound it
is cut after `maxDepth` combinators, with an unknown node for the rest and one recursion
failure; and the depth is back to zero. -/
theorem parse_nested_combinators (p : Program) (maxDepth maxHops : Nat) {op : Operator}
    (hop : op ∈ [.and, .or, .nor]) {a top leaf field value : Nat} {calls : List Nat}
    {name : String} {l : Literal} (hfind : FindWith p a top) (hanchor : anchor p a = a)
    (hnest : Nest p op.spelling leaf top calls) (hleaf : FiltersCall p "eq" [field, value] leaf)
    (hfield : (p.expr field).kind = .literal (.string name))
    (hvalue : (p.expr value).kind = .literal l) :
    ∃ n ctx, (parse p a).run (.withLimits .javaDriver maxDepth maxHops) = (.ok n, ctx) ∧
      ctx.depth = 0 ∧
      (calls.length < maxDepth →
        n.children .filter =
          [combinatorNest op calls (eqLeaf leaf field value name (Resolver.literalValue l))] ∧
        ctx.errors = []) ∧
      (maxDepth ≤ calls.length →
        n.children .filter =
          [combinatorNest op (calls.take maxDepth) (unknownNode ((calls.drop maxDepth).headD leaf))] ∧
        ctx.errors = [.recursionLimit "filter" maxDepth maxDepth]) := by
  let s := LoweringContext.withLimits .javaDriver maxDepth maxHops
  have hchain := filter_run_nest (r := ⟨p, maxDepth⟩) hop (listElements_filtersCall hleaf)
    (fun fuel t ht => filter_run_eq hleaf hfield hvalue fuel t ht) hnest (maxDepth + 1) s
    (by simp [s, LoweringContext.withLimits]) (by simp [s, LoweringContext.withLimits])
  -- the outermost call is a combinator, or the `eq` itself: no empty filter
  have hfilters : (filters ⟨p, maxDepth⟩ (maxDepth + 1) top).run s =
      ([((filter ⟨p, maxDepth⟩ (maxDepth + 1) top).run s).1],
        ((filter ⟨p, maxDepth⟩ (maxDepth + 1) top).run s).2) := by
    rcases hnest.top_cases with rfl | ⟨_, htop⟩
    · exact filters_run_filtersCall hleaf (by decide) _ s
    · exact filters_run_filtersCall htop (Operator.spelling_ne_empty hop) _ s
  obtain ⟨hchildren, hstate⟩ := lowerChain_run_find hfind s
  rw [show s.maxDepth = maxDepth from rfl] at hchildren hstate
  refine ⟨_, _, parse_run_find hfind hanchor s, ?_, ?_, ?_⟩
  · rw [hstate, hfilters, hchain]
    split <;> simp [s, LoweringContext.withLimits, LoweringContext.addError]
  · intro hlt
    rw [hchildren, hstate, hfilters, hchain, if_pos (by simpa [s, LoweringContext.withLimits] using hlt)]
    simp [s, LoweringContext.withLimits]
  · intro hge
    rw [hchildren, hstate, hfilters, hchain,
      if_neg (by simpa [s, LoweringContext.withLimits] using hge)]
    simp [s, LoweringContext.withLimits, LoweringContext.addError]

open Builder in
/-- `orders.find(Filters.and(Filters.and(Filters.eq("n", 1))))` on a collection field: the
`eq` is expression 4, the two `and` calls 6 and 8, and the `find` 9. -/
def nestedAnds : Program := Prod.snd (StateT.run (m := Id) (do
  let f ← file "Shop.java"
  let c ← declareClass f "com.example.Shop" .plain
  let orders ← field c "orders" (.named DriverName.mongoCollection)
  let _ ← method c "recent" none
  let recv ← fieldRef orders
  let name ← literal (.string "n")
  let one ← literal (.int 1)
  let eq ← staticCall DriverName.filters "eq" [name, one]
  let inner ← staticCall DriverName.filters "and" [eq]
  let outer ← staticCall DriverName.filters "and" [inner]
  let _ ← exprStmt (← call recv DriverName.mongoCollection "find" [outer])
  pure ()) ({} : Builder)) |>.program

/-- Two `and` calls with depth bound 2: both are entered, and the `eq` below them is refused. -/
theorem parse_nested_combinators_ands :
    FindWith nestedAnds 9 8 ∧ anchor nestedAnds 9 = 9 ∧ Nest nestedAnds "and" 4 8 [8, 6] ∧
    FiltersCall nestedAnds "eq" [1, 2] 4 ∧ (nestedAnds.expr 1).kind = .literal (.string "n") ∧
    (nestedAnds.expr 2).kind = .literal (.int 1) ∧
    ∃ n ctx, (parse nestedAnds 9).run (.withLimits .javaDriver 2 defaultLimit) = (.ok n, ctx) ∧
      ctx.depth = 0 ∧
      ([8, 6].length < 2 →
        n.children .filter = [combinatorNest .and [8, 6] (eqLeaf 4 1 2 "n" (.int32 1))] ∧
        ctx.errors = []) ∧
      (2 ≤ [8, 6].length →
        n.children .filter =
          [combinatorNest .and ([8, 6].take 2) (unknownNode (([8, 6].drop 2).headD 4))] ∧
        ctx.errors = [.recursionLimit "filter" 2 2]) := by
  have hfind : FindWith nestedAnds 9 8 :=
    ⟨⟨_, rfl, by decide, rfl, rfl⟩, by rw [Program.staticType?]; rfl⟩
  have hanchor : anchor nestedAnds 9 = 9 := by
    rw [anchor, Program.ancestors]
    rfl
  have hnest : Nest nestedAnds Operator.and.spelling 4 8 [8, 6] :=
    .call ⟨_, rfl⟩ (.call ⟨_, rfl⟩ .inner)
  have hleaf : FiltersCall nestedAnds "eq" [1, 2] 4 := ⟨_, rfl⟩
  have hfield : (nestedAnds.expr 1).kind = .literal (.string "n") := rfl
  have hvalue : (nestedAnds.expr 2).kind = .literal (.int 1) := rfl
  -- stated apart, so that the operator is fixed before the conclusion is matched
  have hlowered := parse_nested_combinators nestedAnds 2 defaultLimit (by decide) hfind hanchor
    hnest hleaf hfield hvalue
  exact ⟨hfind, hanchor, hnest, hleaf, hfield, hvalue, hlowered⟩

end Driver

end QueryScope
