import QueryScope.Proofs.Lowering.Nesting
/-!
# Criteria chains, call by call

A criteria chain such as `where("a").is(1).and("b").not().gt(2)` is read from its head, one call
at a time, and each call does one of five things (`Link`). `where(name)` and `and(name)` name
the field of the predicates after them, `not()` negates one of them, and `orOperator`,
`andOperator` and `norOperator` combine the chains of their operands. Any other call is a
predicate, and an expression that is no call does nothing.

The nodes of a chain are stated call by call, each from the calls before it (`chainNodes`):
- the field and negation calls give none;
- a combinator gives a node of its operator over one filter per operand: that operand's single
  node, or an `and` of its nodes;
- a predicate gives an unknown node when no field comes before it. Otherwise it gives a node of
  its operator on the latest field named, with the value of its arguments. That node is wrapped
  in a `not` on the same field when, looking back, a `not()` comes before any other predicate
  that has a field.

The main statement (`criteria_nodes_eq_chainNodes`) says that lowering a chain within the depth
bound gives exactly these nodes, with its operands lowered one level deeper. It rests on a frame
property of lowering (`GivesAt`): what a lowering gives depends on its context only through the
depth and its bound, and it gives them back as they were (`criteria_keepsLevel`). So a failure
recorded on the way, by an operand that is no criteria chain or lies too deep, changes no node.
-/

namespace QueryScope

namespace Lowering

variable {α β : Type} {d M : Nat}

/-! ### Lowering at a level -/

/-- At depth `d` under the bound `M`, a lowering gives `a` and leaves the depth and the bound as
they were, whatever failures its context holds. -/
def GivesAt (d M : Nat) (m : Lowering α) (a : α) : Prop :=
  ∀ t : LoweringContext, t.depth = d → t.maxDepth = M →
    (m.run t).1 = a ∧ (m.run t).2.depth = d ∧ (m.run t).2.maxDepth = M

/-- A lowering that keeps the level: from any context it gives what it gives from every context
of the same depth and bound, and it gives the depth back. -/
def KeepsLevel (m : Lowering α) : Prop :=
  ∀ s : LoweringContext, GivesAt s.depth s.maxDepth m (m.run s).1

theorem givesAt_pure (a : α) : GivesAt d M (pure a) a := fun _ hd hM => ⟨rfl, hd, hM⟩

theorem GivesAt.bind {m : Lowering α} {f : α → Lowering β} {a : α} {b : β}
    (hm : GivesAt d M m a) (hf : GivesAt d M (f a) b) : GivesAt d M (m >>= f) b := by
  intro t hd hM
  obtain ⟨ha, hd', hM'⟩ := hm t hd hM
  have hrest := hf (m.run t).2 hd' hM'
  rw [← ha] at hrest
  exact hrest

/-- Each element given, the list of them is given. -/
theorem givesAt_mapM {f : α → Lowering β} {g : α → β} :
    ∀ {l : List α}, (∀ x ∈ l, GivesAt d M (f x) (g x)) → GivesAt d M (l.mapM f) (l.map g)
  | [], _ => givesAt_pure []
  | x :: l, h => by
    rw [List.mapM_cons, List.map_cons]
    exact (h x List.mem_cons_self).bind
      ((givesAt_mapM fun y hy => h y (List.mem_cons_of_mem x hy)).bind (givesAt_pure _))

/-- A fold whose step takes the value of each prefix to that of the prefix one longer gives
the value of the whole list. -/
theorem givesAt_foldlM {F : β → α → Lowering β} {S : List α → β}
    (hF : ∀ pre x, GivesAt d M (F (S pre) x) (S (pre ++ [x]))) :
    ∀ (l pre : List α), GivesAt d M (l.foldlM F (S pre)) (S (pre ++ l))
  | [], pre => by simpa using givesAt_pure (S pre)
  | x :: l, pre => by
    rw [List.foldlM_cons]
    refine (hF pre x).bind ?_
    simpa using givesAt_foldlM hF l (pre ++ [x])

theorem givesAt_unsupported (dialect : Dialect) (expr : Nat) (feature : String) :
    GivesAt d M (unsupported dialect expr feature) (unknownNode expr) :=
  fun _ hd hM => ⟨rfl, hd, hM⟩

/-- Below the bound, a nested fragment gives what its body gives one level deeper. -/
theorem givesAt_nested_enter {what : String} {fallback : α} {body : Lowering α} {a : α}
    (h : d < M) (hbody : GivesAt (d + 1) M body a) : GivesAt d M (nested what fallback body) a := by
  intro t hd hM
  rw [nested_run_enter what fallback body t (by omega)]
  obtain ⟨ha, hd', hM'⟩ := hbody { t with depth := t.depth + 1 } (by simp [hd]) hM
  refine ⟨ha, ?_, hM'⟩
  simp only [LoweringContext.exit, hd']
  omega

/-- At the bound, a nested fragment gives its fallback. -/
theorem givesAt_nested_refuse {what : String} {fallback : α} {body : Lowering α} (h : M ≤ d) :
    GivesAt d M (nested what fallback body) fallback := by
  intro t hd hM
  rw [nested_run_refuse what fallback body t (by omega)]
  exact ⟨rfl, hd, hM⟩

/-- A lowering that gives something at the level of every context keeps the level. -/
theorem keepsLevel_of_exists {m : Lowering α}
    (h : ∀ s : LoweringContext, ∃ a, GivesAt s.depth s.maxDepth m a) : KeepsLevel m := by
  intro s
  obtain ⟨a, ha⟩ := h s
  rw [(ha s rfl rfl).1]
  exact ha

end Lowering

namespace Criteria

open Lowering

/-! ### What each call of a chain does -/

/-- What one call of a criteria chain does. -/
inductive Link where
  /-- `where(name)` or `and(name)`: the field of the predicates after it. -/
  | field (name : Nat)
  /-- `not()`: the next predicate with a field is negated. -/
  | negation
  /-- `orOperator`, `andOperator` or `norOperator`: a filter over the chains of its operands. -/
  | combinator (op : Operator) (operands : List Nat)
  /-- Any other call: a predicate on the current field, valued by its arguments. -/
  | predicate (op : Operator) (args : List Nat)
  /-- An expression that is no call. -/
  | noCall

namespace Link

/-- What a call does, by its name and arguments; the predicate `is` is an equality. -/
def ofCall (r : Resolver) (c : Call) : Link :=
  match (c.name, c.args) with
  | ("where", [name]) | ("and", [name]) => .field name
  | ("not", []) => .negation
  | (name, args) =>
    (combinator? name).elim (.predicate (if name == "is" then .eq else .ofSpelling name) args)
      fun op => .combinator op (operands r args)

/-- What the expression `id` does in a chain. -/
def of (r : Resolver) (id : Nat) : Link := (r.program.call? id).elim .noCall (ofCall r)

/-- The field a call names. -/
def field? : Link → Option Nat
  | .field name => some name
  | _ => none

end Link

/-- The field named last among the calls before a call. -/
def latestField (before : List Link) : Option Nat := before.reverse.findSome? Link.field?

/-- Looking back over calls, the latest first: whether a `not()` comes before any predicate that
has a field. A predicate with no field before it does not stop the look. -/
def negationBack : List Link → Bool
  | [] => false
  | .negation :: _ => true
  | .predicate _ _ :: earlier => (earlier.findSome? Link.field?).isNone && negationBack earlier
  | _ :: earlier => negationBack earlier

/-- Whether a `not()` among the calls before a call still waits for its predicate. -/
def negationPending (before : List Link) : Bool := negationBack before.reverse

/-- An operand's filter: its one node, or an `and` over its nodes. -/
def operandNode (operand : Nat) (nodes : List Node) : Node :=
  if h : nodes.length = 1 then nodes[0] else nodeAt operand [.named .«and», .branch .filter nodes]

/-- A predicate on a field: its operator, the field, and the value of its arguments if they give
one. -/
def fieldPredicate (r : Resolver) (id : Nat) (op : Operator) (args : List Nat) (f : Nat) : Node :=
  nodeAt id ([.named op, .field (r.resolveFieldName f)] ++ (operatorValue r op id args).toList.map .value)

/-- A predicate negated: `not` on the same field, over the predicate. -/
def negatedPredicate (r : Resolver) (id f : Nat) (n : Node) : Node :=
  nodeAt id [.named .«not», .field (r.resolveFieldName f), .branch .filter [n]]

/-- The node a call gives, from the calls before it, where `lowered` gives the nodes of the
chain an operand leads to; a call that names the field or negates gives none. -/
def Link.node? (r : Resolver) (lowered : Nat → List Node) (before : List Link) (id : Nat) :
    Link → Option Node
  | .combinator op operands =>
    some (nodeAt id [.named op, .branch .filter (operands.map fun o => operandNode o (lowered o))])
  | .predicate op args =>
    some ((latestField before).elim (unknownNode id) fun f =>
      if negationPending before then negatedPredicate r id f (fieldPredicate r id op args f)
      else fieldPredicate r id op args f)
  | .field _ | .negation | .noCall => none

/-- The nodes of a chain's calls in order, each from the calls before it. -/
def chainNodes (r : Resolver) (lowered : Nat → List Node) (calls : List Nat) : List Node :=
  calls.zipIdx.filterMap fun p => (Link.of r p.1).node? r lowered ((calls.take p.2).map (Link.of r)) p.1

/-- What reading the calls of a chain keeps, as the calls say it: their nodes, the latest field
named and whether a negation waits. -/
def chainState (r : Resolver) (lowered : Nat → List Node) (calls : List Nat) : ChainState :=
  ⟨chainNodes r lowered calls, latestField (calls.map (Link.of r)),
    negationPending (calls.map (Link.of r))⟩

/-! ### Calls and their links -/

namespace Link

variable {r : Resolver} {c : Call}

theorem of_eq_ofCall {id : Nat} (hc : r.program.call? id = some c) : of r id = ofCall r c := by
  simp [of, hc]

theorem of_eq_noCall {id : Nat} (hc : r.program.call? id = none) : of r id = .noCall := by
  simp [of, hc]

theorem ofCall_where {name : Nat} (hname : c.name = "where") (hargs : c.args = [name]) :
    ofCall r c = .field name := by
  simp [ofCall, hname, hargs]

theorem ofCall_and {name : Nat} (hname : c.name = "and") (hargs : c.args = [name]) :
    ofCall r c = .field name := by
  simp [ofCall, hname, hargs]

theorem ofCall_not (hname : c.name = "not") (hargs : c.args = []) : ofCall r c = .negation := by
  simp [ofCall, hname, hargs]

/-- A call that names no field and does not negate combines or is a predicate. -/
theorem ofCall_of_acting (hwhere : ∀ name, c.name = "where" → c.args = [name] → False)
    (hand : ∀ name, c.name = "and" → c.args = [name] → False)
    (hnot : c.name = "not" → c.args = [] → False) :
    ofCall r c = (combinator? c.name).elim
      (.predicate (if c.name == "is" then .eq else .ofSpelling c.name) c.args)
      fun op => .combinator op (operands r c.args) := by
  unfold ofCall
  split
  · next name heq =>
    simp only [Prod.mk.injEq] at heq
    exact absurd heq.2 (hwhere name heq.1)
  · next name heq =>
    simp only [Prod.mk.injEq] at heq
    exact absurd heq.2 (hand name heq.1)
  · next heq =>
    simp only [Prod.mk.injEq] at heq
    exact absurd heq.2 (hnot heq.1)
  · next name args _ _ _ heq =>
    simp only [Prod.mk.injEq] at heq
    rw [heq.1, heq.2]

/-- A predicate's operator and arguments are its call's. -/
theorem ofCall_eq_predicate {op : Operator} {args : List Nat}
    (h : ofCall r c = .predicate op args) :
    op = (if c.name == "is" then .eq else .ofSpelling c.name) ∧ args = c.args := by
  unfold ofCall at h
  split at h
  · cases h
  · cases h
  · cases h
  · next name args' heq =>
    simp only [Prod.mk.injEq] at heq
    obtain ⟨rfl, rfl⟩ := heq
    cases hop : combinator? c.name with
    | none =>
      simp only [hop, Option.elim, Link.predicate.injEq] at h
      exact ⟨h.1.symm, h.2.symm⟩
    | some op' => simp [hop, Option.elim] at h

end Link

/-! ### The state after one more call -/

theorem latestField_append_singleton (before : List Link) (l : Link) :
    latestField (before ++ [l]) = l.field?.or (latestField before) := by
  simp only [latestField, List.reverse_append, List.reverse_singleton, List.singleton_append,
    List.findSome?_cons]
  cases l.field? <;> rfl

theorem negationPending_append_singleton (before : List Link) (l : Link) :
    negationPending (before ++ [l]) = negationBack (l :: before.reverse) := by
  simp [negationPending]

theorem chainNodes_append_singleton (r : Resolver) (lowered : Nat → List Node) (calls : List Nat)
    (id : Nat) :
    chainNodes r lowered (calls ++ [id]) = chainNodes r lowered calls ++
      ((Link.of r id).node? r lowered (calls.map (Link.of r)) id).toList := by
  unfold chainNodes
  rw [List.zipIdx_append, List.filterMap_append]
  congr 1
  · -- the calls before keep the calls before them
    apply List.filterMap_congr
    intro p hp
    have hlt : p.2 < calls.length := by
      have := List.mem_zipIdx hp
      omega
    rw [List.take_append_of_le_length (Nat.le_of_lt hlt)]
  · -- the new call comes after all the others
    simp only [Nat.zero_add, List.zipIdx_cons, List.zipIdx_nil, List.filterMap_cons,
      List.filterMap_nil, List.take_append_length]
    cases (Link.of r id).node? r lowered (calls.map (Link.of r)) id <;> rfl

/-- The state after one more call: the call's node added, the field it names if any, and the
negation looked back for from after it. -/
theorem chainState_append_singleton (r : Resolver) (lowered : Nat → List Node) (calls : List Nat)
    (id : Nat) :
    chainState r lowered (calls ++ [id]) =
      ⟨chainNodes r lowered calls ++
          ((Link.of r id).node? r lowered (calls.map (Link.of r)) id).toList,
        (Link.of r id).field?.or (latestField (calls.map (Link.of r))),
        negationBack (Link.of r id :: (calls.map (Link.of r)).reverse)⟩ := by
  rw [chainState, chainNodes_append_singleton, List.map_append, List.map_singleton,
    latestField_append_singleton, negationPending_append_singleton]

section State

variable {r : Resolver} {lowered : Nat → List Node} {calls : List Nat} {id : Nat}

theorem chainState_of_noCall (h : Link.of r id = .noCall) :
    chainState r lowered (calls ++ [id]) = chainState r lowered calls := by
  rw [chainState_append_singleton, h]
  simp [chainState, Link.node?, Link.field?, negationBack, negationPending]

theorem chainState_of_field {name : Nat} (h : Link.of r id = .field name) :
    chainState r lowered (calls ++ [id]) = { chainState r lowered calls with field := some name } := by
  rw [chainState_append_singleton, h]
  simp [chainState, Link.node?, Link.field?, negationBack, negationPending]

theorem chainState_of_negation (h : Link.of r id = .negation) :
    chainState r lowered (calls ++ [id]) = { chainState r lowered calls with negate := true } := by
  rw [chainState_append_singleton, h]
  simp [chainState, Link.node?, Link.field?, negationBack]

theorem chainState_of_combinator {op : Operator} {operands : List Nat}
    (h : Link.of r id = .combinator op operands) :
    chainState r lowered (calls ++ [id]) = { chainState r lowered calls with
      nodes := (chainState r lowered calls).nodes ++
        [nodeAt id [.named op, .branch .filter (operands.map fun o => operandNode o (lowered o))]] } := by
  rw [chainState_append_singleton, h]
  simp [chainState, Link.node?, Link.field?, negationBack, negationPending]

theorem nodeAt_add (id : Nat) (cs : List Component) (c : Component) :
    (nodeAt id cs).add c = nodeAt id (cs ++ [c]) := by
  show Node.mk (.expr id) (Node.put (cs.foldl Node.put []) c) =
    Node.mk (.expr id) ((cs ++ [c]).foldl Node.put [])
  rw [List.foldl_append]
  rfl

/-- A predicate read by the lowering is the predicate its call says, on the state so far. -/
theorem chainState_of_predicate {c : Call} {op : Operator} {args : List Nat}
    (hc : r.program.call? id = some c) (h : Link.ofCall r c = .predicate op args) :
    chainState r lowered (calls ++ [id]) = predicate r (chainState r lowered calls) id c := by
  have hlink : Link.of r id = .predicate op args := by rw [Link.of_eq_ofCall hc, h]
  obtain ⟨hop, rfl⟩ := Link.ofCall_eq_predicate h
  -- the three parts of the state after the predicate, from the calls before it
  have hnodes : chainNodes r lowered (calls ++ [id]) = chainNodes r lowered calls ++
      [(latestField (calls.map (Link.of r))).elim (unknownNode id) fun f =>
        if negationPending (calls.map (Link.of r)) then
          negatedPredicate r id f (fieldPredicate r id op c.args f)
        else fieldPredicate r id op c.args f] := by
    rw [chainNodes_append_singleton, hlink]
    rfl
  have hfield : latestField ((calls ++ [id]).map (Link.of r)) = latestField (calls.map (Link.of r)) := by
    rw [List.map_append, List.map_singleton, latestField_append_singleton, hlink]
    rfl
  have hneg : negationPending ((calls ++ [id]).map (Link.of r)) =
      ((latestField (calls.map (Link.of r))).isNone && negationPending (calls.map (Link.of r))) := by
    rw [List.map_append, List.map_singleton, negationPending_append_singleton, hlink]
    rfl
  unfold predicate
  simp only [chainState, hnodes, hfield, hneg, ← hop]
  cases hf : latestField (calls.map (Link.of r)) with
  | none => rfl
  | some f =>
    -- a field: the predicate on it, negated when a `not()` waits, which it then takes
    simp only [Option.elim, Option.isNone_some, Bool.false_and]
    cases hv : operatorValue r op id c.args <;>
    cases hn : negationPending (calls.map (Link.of r)) <;>
    simp [fieldPredicate, negatedPredicate, nodeAt_add, hv]

end State

theorem operandNode_singleton (o : Nat) (n : Node) : operandNode o [n] = n := rfl

theorem operandNode_of_ne_singleton {o : Nat} {nodes : List Node}
    (h : ∀ n, nodes = [n] → False) :
    operandNode o nodes = nodeAt o [.named .«and», .branch .filter nodes] := by
  rw [operandNode, dif_neg]
  intro hlen
  obtain ⟨n, rfl⟩ := List.length_eq_one_iff.1 hlen
  exact h n rfl

/-! ### Lowering a chain -/

section Chain

variable {r : Resolver} {fuel d M : Nat} {lowered : Nat → List Node}

/-- Within the depth bound, a chain lowers one level deeper to the nodes of its calls, given
what the chains of its operands lower to. -/
theorem criteria_givesAt_enter {expr : Nat} (h : d < M)
    (hlow : ∀ o, GivesAt (d + 1) M (criteria r fuel o) (lowered o)) :
    GivesAt d M (criteria r (fuel + 1) expr)
      ((r.resolveUntil expr (isCriteriaCall r.program)).elim [unknownNode expr] fun outer =>
        chainNodes r lowered (r.program.receiverChain (isCriteriaCall r.program) outer)) := by
  rw [criteria]
  apply givesAt_nested_enter h
  dsimp only
  split
  · next hnone =>
    -- no criteria call: one unknown node
    rw [hnone]
    exact (givesAt_unsupported _ _ _).bind (givesAt_pure _)
  · next outer hsome =>
    rw [hsome]
    -- the fold over the chain keeps the state its calls say, one call at a time
    refine (givesAt_foldlM (S := chainState r lowered) ?_ _ []).bind (givesAt_pure _)
    intro pre id
    split
    · next hnone =>
      rw [chainState_of_noCall (Link.of_eq_noCall hnone)]
      exact givesAt_pure _
    · next c hc =>
      split
      · next name hname hargs =>
        rw [chainState_of_field (by rw [Link.of_eq_ofCall hc, Link.ofCall_where hname hargs])]
        exact givesAt_pure _
      · next name hname hargs =>
        rw [chainState_of_field (by rw [Link.of_eq_ofCall hc, Link.ofCall_and hname hargs])]
        exact givesAt_pure _
      · next hname hargs =>
        rw [chainState_of_negation (by rw [Link.of_eq_ofCall hc, Link.ofCall_not hname hargs])]
        exact givesAt_pure _
      · next hwhere hand hnot =>
        have hlink := Link.ofCall_of_acting (r := r) hwhere hand hnot
        split
        · next op hop =>
          -- a combinator: one filter per operand, each lowered one level deeper
          rw [hop] at hlink
          rw [chainState_of_combinator (by rw [Link.of_eq_ofCall hc, hlink]; rfl)]
          refine (givesAt_mapM (g := fun o => operandNode o (lowered o)) ?_).bind (givesAt_pure _)
          intro o _
          refine (hlow o).bind ?_
          split
          · next single hsingle =>
            rw [hsingle]
            exact givesAt_pure _
          · next hmany =>
            rw [operandNode_of_ne_singleton hmany]
            exact givesAt_pure _
        · next hop =>
          rw [hop] at hlink
          rw [chainState_of_predicate hc hlink]
          exact givesAt_pure _

/-- At the bound, a chain is refused whatever it is: one unknown node. -/
theorem criteria_givesAt_refuse {expr : Nat} (fuel : Nat) (h : M ≤ d) :
    GivesAt d M (criteria r fuel expr) [unknownNode expr] := by
  cases fuel with
  | zero =>
    rw [criteria]
    exact givesAt_nested_refuse h
  | succ fuel =>
    rw [criteria]
    exact givesAt_nested_refuse h

variable (r) in
/-- Lowering a chain keeps the level: its nodes depend on the context only through the depth
and its bound, and the depth comes back as it was. -/
theorem criteria_keepsLevel : ∀ fuel expr, KeepsLevel (criteria r fuel expr) := by
  -- induction on the fuel, which bounds the nesting of operands
  intro fuel
  induction fuel with
  | zero =>
    intro expr
    refine keepsLevel_of_exists fun s => ⟨[unknownNode expr], ?_⟩
    by_cases h : s.depth < s.maxDepth
    · rw [criteria]
      exact givesAt_nested_enter h (givesAt_pure _)
    · exact criteria_givesAt_refuse 0 (by omega)
  | succ fuel ih =>
    intro expr
    refine keepsLevel_of_exists fun s => ?_
    by_cases h : s.depth < s.maxDepth
    · exact ⟨_, criteria_givesAt_enter h fun o => ih o { s with depth := s.depth + 1 }⟩
    · exact ⟨_, criteria_givesAt_refuse (fuel + 1) (by omega)⟩

end Chain

/-- Lowering a criteria chain within the depth bound gives, in order, the node of each call that
is no field and no negation, each from the calls before it: a combinator over the filters its
operands lower to one level deeper, and a predicate on the latest field, negated when a `not()`
waits for it. A chain at the bound, or an expression that leads to no criteria call, gives one
unknown node. -/
theorem criteria_nodes_eq_chainNodes (r : Resolver) (fuel expr : Nat) (s : LoweringContext) :
    ((criteria r (fuel + 1) expr).run s).1 =
      if s.maxDepth ≤ s.depth then [unknownNode expr]
      else (r.resolveUntil expr (isCriteriaCall r.program)).elim [unknownNode expr] fun outer =>
        chainNodes r (fun o => ((criteria r fuel o).run { s with depth := s.depth + 1 }).1)
          (r.program.receiverChain (isCriteriaCall r.program) outer) := by
  split
  · next h => exact (criteria_givesAt_refuse (fuel + 1) h s rfl rfl).1
  · next h =>
    have hlow : ∀ o, GivesAt (s.depth + 1) s.maxDepth (criteria r fuel o)
        ((criteria r fuel o).run { s with depth := s.depth + 1 }).1 :=
      fun o => criteria_keepsLevel r fuel o { s with depth := s.depth + 1 }
    exact (criteria_givesAt_enter (by omega) hlow s rfl rfl).1

end Criteria

end QueryScope
