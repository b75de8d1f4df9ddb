import QueryScope.Lowering.Driver.Builders
import QueryScope.Lowering.Handles
/-!
# Driver queries

A driver query is a chain of calls: a command of a collection handle, then optionally cursor
calls (`sort`, `limit`, `projection`, `filter`, `first`) on its result. The anchor of a
query is the outermost call of the chain; every other call of the chain belongs to it.

Lowering a query follows the chain down to the command, finds the namespace of the handle
the command runs on, lowers the command's filter, updates or pipeline, and then applies the
cursor calls from the innermost out, so that the outermost of two like calls wins.
-/

namespace QueryScope

namespace Driver

/-- The command a collection method runs. -/
def collectionCommand? : String → Option Command
  | "aggregate" => some .aggregate
  | "countDocuments" => some .countDocuments
  | "estimatedDocumentCount" => some .estimatedDocumentCount
  | "distinct" => some .distinct
  | "find" => some .findMany
  | "deleteMany" => some .deleteMany
  | "deleteOne" => some .deleteOne
  | "insertMany" => some .insertMany
  | "insertOne" => some .insertOne
  | "replaceOne" => some .replaceOne
  | "updateMany" => some .updateMany
  | "updateOne" => some .updateOne
  | "findOneAndDelete" => some .findOneAndDelete
  | "findOneAndReplace" => some .findOneAndReplace
  | "findOneAndUpdate" => some .findOneAndUpdate
  | _ => none

/-- Whether an expression is a call declared by a collection or cursor type. -/
def isDriverCall (p : Program) (id : Nat) : Bool :=
  p.callDeclaredBy (fun t => DriverName.isCollection t || DriverName.isCursor t) id

/-- Walk down a chain to its collection command, collecting the cursor calls on the way,
outermost first. A helper call returning a collection or cursor is followed into; a cursor
seen twice, or a collection method that runs no command, ends the walk without a chain. -/
def chainFrom (r : Resolver) : Nat → Nat → List Nat → Option (Nat × List Nat)
  | 0, _, _ => none
  | fuel + 1, current, cursors => do
    let p := r.program
    let c ← p.call? current
    if c.declaringType.any DriverName.isCollection then
      let _ ← collectionCommand? c.name
      some (current, cursors)
    else if c.declaringType.any DriverName.isCursor then
      if cursors.contains current then none
      else
        let next ← r.resolveUntil (← c.receiver) (isDriverCall p)
        chainFrom r fuel next (cursors ++ [current])
    else
      let next ← r.resolveUntil current (isDriverCall p)
      chainFrom r fuel next cursors

/-- The command call of a chain and its cursor calls, outermost first. Each cursor is
visited once and at most one helper step comes between two visits, so twice the program's
size bounds the walk. -/
def commandChain? (p : Program) (expr : Nat) : Option (Nat × List Nat) :=
  chainFrom { program := p } (2 * p.exprs.size + 2) (p.stripParens expr) []

/-- Whether an expression starts a driver query: a collection command, or a cursor call on
a chain that leads to one. -/
def isCandidate (p : Program) (expr : Nat) : Bool :=
  match p.call? expr with
  | some c =>
    if c.declaringType.any DriverName.isCollection then (collectionCommand? c.name).isSome
    else if c.declaringType.any DriverName.isCursor then (commandChain? p expr).isSome
    else false
  | none => false

/-- Climb the parents while each is a parenthesis or a call on the expression below it,
keeping the last candidate call seen. -/
def anchorAbove (p : Program) (anchor current : Nat) : List Nat → Nat
  | [] => anchor
  | parent :: rest =>
    match (p.expr parent).kind with
    | .paren _ => anchorAbove p anchor parent rest
    | .call c =>
      if c.receiver == some current then
        anchorAbove p (if isCandidate p parent then parent else anchor) parent rest
      else anchor
    | _ => anchor

/-- The outermost call of the chain an expression belongs to. -/
def anchor (p : Program) (expr : Nat) : Nat := anchorAbove p expr expr (p.ancestors expr)

/-- The command a chain runs: a `find` followed by `first` finds one document. -/
def commandOf (p : Program) (commandCall : Nat) (cursors : List Nat) : Command :=
  let base := ((p.call? commandCall).bind fun c => collectionCommand? c.name).getD .unknown
  let first := cursors.any fun cur => match p.call? cur with
    | some c => c.name == "first"
    | none => false
  if base == .findMany && first then .findOne else base

/-- The arguments of a command without a leading client session. -/
def commandArgs (p : Program) (c : Call) : List Nat :=
  match c.args with
  | first :: rest =>
    if (p.staticType? first).any (·.simpleName == "ClientSession") then rest else c.args
  | [] => []

/-- What a command's arguments give: the filter, the updates, the pipeline stages and the
field of a `distinct`. -/
structure CommandParts where
  filter : List Node := []
  updates : List Node := []
  stages : List Node := []
  distinctField : Option FieldRef := none

/-- Lower the arguments of a command. -/
def commandParts (r : Resolver) (fuel : Nat) (command : Command) (args : List Nat) :
    Lowering CommandParts := do
  let p := r.program
  match command with
  | .aggregate =>
    match args with
    | pipeline :: _ => do
      let stages ← (listElements r pipeline).mapM (stage r fuel)
      pure { stages }
    | [] => pure {}
  | .distinct =>
    let distinctField := args.head?.map r.resolveFieldName
    match args with
    | _ :: query :: _ =>
      if p.isClassLiteral query then pure { distinctField }
      else do
        let filter ← filters r fuel query
        pure { filter, distinctField }
    | _ => pure { distinctField }
  | .insertOne | .insertMany | .estimatedDocumentCount => pure {}
  | _ =>
    match args with
    | query :: rest => do
      let filter ← filters r fuel query
      match rest with
      | upd :: _ =>
        if command.updatesDocuments then do
          let updates ← (listElements r upd).mapM (update r fuel)
          pure { filter, updates }
        else pure { filter }
      | [] => pure { filter }
    | [] => pure {}

/-- Apply one cursor call to the query, adding to the filter for `filter`. -/
def applyCursor (r : Resolver) (fuel : Nat) (acc : Node × List Node) (cursor : Nat) :
    Lowering (Node × List Node) :=
  let (node, filter) := acc
  match r.program.call? cursor with
  | some c =>
    match c.args with
    | arg :: _ =>
      match c.name with
      | "sort" => do
        let keys ← sorts r (shapeFuel r) arg
        pure (node.add (.branch .sorts keys), filter)
      | "projection" => do
        let ps ← projections r (shapeFuel r) arg
        pure (node.add (.branch .projections ps), filter)
      | "filter" => do
        let more ← filters r fuel arg
        pure (node, filter ++ more)
      | "limit" =>
        match r.resolveInt32 arg with
        | some k => pure (node.add (.limit k), filter)
        | none => pure (node, filter)
      | _ => pure (node, filter)
    | [] => pure (node, filter)
  | none => pure (node, filter)

/-- Lower the query of a chain anchored at `anchor`. -/
def lowerChain (anchor commandCall : Nat) (cursors : List Nat) (p : Program) : Lowering Node := do
  let ctx ← get
  let r : Resolver := { program := p, maxDepth := ctx.maxDepth }
  let fuel := ctx.maxDepth + 1
  let command := commandOf p commandCall cursors
  match p.call? commandCall with
  | none => pure (nodeAt anchor [.command .unknown])
  | some c =>
    let search : HandleSearch := { resolver := r, maxHops := ctx.maxHops }
    let collection := match c.receiver with
      | some recv => search.extract recv
      | none => .unknown
    let parts ← commandParts r fuel command (commandArgs p c)
    let node := nodeAt anchor [.dialect .javaDriver, .command command, .collection collection]
    let node := match parts.distinctField with
      | some f => node.add (.field f)
      | none => node
    let (node, filter) ← cursors.reverse.foldlM (applyCursor r fuel) (node, parts.filter)
    pure ((node.add (.branch .filter filter)).add (.branch .updates parts.updates)
      |>.add (.branch .aggregation parts.stages))

/-- Lower the driver query anchored at an expression; an expression that starts no query, or
belongs to the query of another anchor, is refused. -/
def parse (p : Program) (anchorExpr : Nat) : Lowering (Except LoweringError Node) := do
  let name := s!"expr#{anchorExpr}"
  if !isCandidate p anchorExpr then
    return .error (.notACandidate .javaDriver name)
  let owner := anchor p anchorExpr
  if owner != anchorExpr then
    return .error (.notTheAnchor name s!"expr#{owner}")
  match commandChain? p anchorExpr with
  | none => return .error (.notACandidate .javaDriver name)
  | some (commandCall, cursors) => do
    let node ← lowerChain anchorExpr commandCall cursors p
    return .ok node

/-- The call holding an expression as an argument, looking through parentheses, arrays and
list factories, with the argument's position. -/
def enclosingCall? (p : Program) (expr : Nat) : Option (Nat × Nat) :=
  go expr (p.ancestors expr)
where
  go (child : Nat) : List Nat → Option (Nat × Nat)
    | [] => none
    | parent :: rest =>
      match (p.expr parent).kind with
      | .paren _ | .arrayInit _ => go parent rest
      | .call c =>
        if p.isListFactory parent then go parent rest
        else (c.args.idxOf? child).map (parent, ·)
      | _ => none

/-- Whether an expression names the database of a driver query: the first argument of
`getDatabase`. -/
def isDatabaseReference (p : Program) (expr : Nat) : Bool :=
  match enclosingCall? p expr with
  | some (c, i) => i == 0 && p.isGetDatabase c
  | none => false

/-- Whether an expression names the collection of a driver query: the first argument of
`getCollection`. -/
def isCollectionReference (p : Program) (expr : Nat) : Bool :=
  match enclosingCall? p expr with
  | some (c, i) => i == 0 && p.isGetCollection c
  | none => false

/-- Whether a known string names a document field in a driver query: the first argument of a
filter or update, any argument of a projection or sort, a `$` path given to an accumulator
or to `group`, or the path of an `unwind`. -/
def isFieldReference (p : Program) (expr : Nat) : Bool :=
  match (Resolver.mk p defaultLimit).resolveString expr, enclosingCall? p expr with
  | some value, some (callId, i) =>
    match p.call? callId with
    | some c =>
      match c.declaringType with
      | some t =>
        if t == DriverName.filters || t == DriverName.updates then i == 0
        else if t == DriverName.projections || t == DriverName.sorts then true
        else if t == DriverName.accumulators then 0 < i && value.startsWith "$"
        else if t == DriverName.aggregates then
          match c.name with
          | "unwind" => true
          | "group" => i == 0 && value.startsWith "$"
          | _ => false
        else false
      | none => false
    | none => false
  | _, _ => false

end Driver

end QueryScope
