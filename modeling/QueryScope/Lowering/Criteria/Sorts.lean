import QueryScope.Lowering.Criteria.Shapes
/-!
# Sort specifications

A sort is built with `Sort.by(..)`, combined with `and(..)` and modified by `ascending()`,
`descending()` and `reverse()` calls after it; a key is a field name, an `Order`, or a
direction followed by field names.

A modifier applies to every key built before it in the chain and to the sorts combined in
by `and`: `ascending()` and `descending()` force the direction unless an outer one already
did, `reverse()` flips it unless a direction is forced. A key with no direction is unknown.

Each sort chain is one level deeper than the one holding it.
-/

namespace QueryScope

namespace Criteria

/-- The direction of a sort key. -/
inductive Direction where
  | ascending
  | descending
  deriving DecidableEq

/-- The other direction. -/
def Direction.flip : Direction → Direction
  | .ascending => .descending
  | .descending => .ascending

/-- The modifiers in force for a sort: a forced direction and whether it is reversed. -/
structure SortState where
  forced : Option Direction := none
  reversed : Bool := false

namespace SortState

/-- The state inside a modifier call of a given name. -/
def inner (s : SortState) (name : String) : SortState :=
  if s.forced.isSome then s
  else match name with
    | "ascending" => { s with forced := some .ascending }
    | "descending" => { s with forced := some .descending }
    | "reverse" => { s with reversed := !s.reversed }
    | _ => s

/-- The direction a key gets: the forced one or its own, flipped when reversed. -/
def apply (s : SortState) (d : Option Direction) : Option Direction :=
  (s.forced <|> d).map fun d => if s.reversed then d.flip else d

end SortState

/-- Whether an expression is a `Sort` call. -/
def isSortCall (p : Program) (id : Nat) : Bool := p.callDeclaredBy (· == SpringName.sort) id

/-- Whether an expression is an `Order` call. -/
def isOrderCall (p : Program) (id : Nat) : Bool := p.callDeclaredBy (· == SpringName.order) id

/-- The direction a known `Direction` constant names. -/
def direction? (r : Resolver) (expr : Nat) : Option Direction :=
  match r.resolve expr with
  | some (.enumConstant cls name) =>
    if cls == SpringName.direction then
      match name with
      | "ASC" => some .ascending
      | "DESC" => some .descending
      | _ => none
    else none
  | _ => none

/-- A sort key on a field, with its direction as an inferred flag. -/
def sortKey (r : Resolver) (source field : Nat) (d : Option Direction) : Node :=
  let (op, value) : Operator × ValueRef := match d with
    | some .ascending => (.ascending, ValueRef.flagAt field 1)
    | some .descending => (.descending, ValueRef.flagAt field (-1))
    | none => (.unknown, .unknown)
  let reference := match r.resolveString field with
    | some name => FieldRef.schemaAt field name
    | none => .unknown
  Node.ofComponents (.expr source) [.named op, .field reference, .value value]

/-- The keys on fields named after a direction. -/
def directedKeys (r : Resolver) (source : Nat) (d : Option Direction) (fields : List Nat)
    (s : SortState) : List Node :=
  (fieldNames r fields).map fun f => sortKey r source f (s.apply d)

/-- The key an `Order` chain builds: `asc`, `desc` or `by` name the field, `with` sets the
direction. -/
def order (r : Resolver) (outer : Nat) (s : SortState) : Node :=
  let p := r.program
  let (field, d) := (p.receiverChain (isOrderCall p) outer).foldl (fun (acc : Option Nat × Option Direction) id =>
    match p.call? id with
    | some c =>
      match c.name, c.args with
      | "asc", [name] | "by", [name] => (some name, some .ascending)
      | "desc", [name] => (some name, some .descending)
      | "with", [value] => (acc.1, direction? r value)
      | _, _ => acc
    | none => acc) (none, none)
  match field with
  | some f => sortKey r outer f (s.apply d)
  | none => Lowering.unknownNode outer

/-- The keys of a `Sort.by(..)`: a leading direction applies to the field names after it;
otherwise each operand is an `Order` or an ascending field. -/
def sortBy (r : Resolver) (source : Nat) (args : List Nat) (s : SortState) : List Node :=
  let p := r.program
  let byOperands := (operands r args).map fun operand =>
    match r.resolveUntil operand (isOrderCall p) with
    | some o => order r o s
    | none => sortKey r source operand (s.apply (some .ascending))
  match args with
  | first :: fields =>
    match direction? r first with
    | some d => directedKeys r source (some d) fields s
    | none => byOperands
  | [] => byOperands

/-- The keys of a sort chain, one level deeper, under the modifiers in force around it;
`fuel` exceeds the levels left. -/
def sortKeysWith (r : Resolver) : Nat → Nat → SortState → Lowering (List Node)
  | 0, expr, _ => Lowering.nested "sort" [Lowering.unknownNode expr] (pure [Lowering.unknownNode expr])
  | fuel + 1, expr, inherited => Lowering.nested "sort" [Lowering.unknownNode expr] (do
    let p := r.program
    match r.resolveUntil expr (isSortCall p) with
    | none => pure [← Lowering.unsupported .springCriteria expr "sort not built with Sort"]
    | some outer =>
      let chain := p.receiverChain (isSortCall p) outer
      let step (acc : List Node × List Nat) (id : Nat) : Lowering (List Node × List Nat) := do
        let (keys, later) := acc
        -- `later` holds the calls after this one, the next first
        let rest := later.drop 1
        let s := rest.reverse.foldl (fun s o => match p.call? o with
          | some oc => s.inner oc.name
          | none => s) inherited
        match p.call? id with
        | none => pure (keys, rest)
        | some c =>
          match c.name, c.args with
          | "by", args => pure (keys ++ sortBy r id args s, rest)
          | "and", [other] => do
            let more ← sortKeysWith r fuel other s
            pure (keys ++ more, rest)
          | "unsorted", _ | "ascending", [] | "descending", [] | "reverse", [] => pure (keys, rest)
          | _, _ => pure (keys ++ [Lowering.unknownNode id], rest)
      let (keys, _) ← chain.foldlM step ([], chain)
      pure keys)

/-- The keys of a sort chain. -/
def sortKeys (r : Resolver) (fuel expr : Nat) : Lowering (List Node) := sortKeysWith r fuel expr {}

/-- The keys of a `sort` stage chain: each call takes a sort, or a direction and field names. -/
def sortOperation (r : Resolver) (fuel : Nat) (chain : List Nat) : Lowering (List Node) :=
  chain.foldlM (fun keys id =>
    match r.program.call? id with
    | none => pure keys
    | some c =>
      match c.args with
      | [s] => do pure (keys ++ (← sortKeys r fuel s))
      | d :: fields => pure (keys ++ directedKeys r id (direction? r d) fields {})
      | [] => pure (keys ++ [Lowering.unknownNode id])) []

end Criteria

end QueryScope
