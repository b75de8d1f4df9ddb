import QueryScope.Lowering.Criteria.Stages
import QueryScope.Lowering.Criteria.Updates
import QueryScope.Text.Lower
/-!
# Criteria queries

A criteria query is anchored at the outermost call of its criteria chain, or, in a pipeline,
at the criteria of the pipeline's first `match` stage. The template operations above the
anchor (or above the variable holding it) give the command, the collection and the update:

* the command is named by the outermost operation, and by the `apply(..)` form for fluent
  updates;
* the collection is the first known name an operation passes (`inCollection`, the second
  argument of `aggregate`, the last argument of others), else the entity class of a class
  literal, named by its `@Document` annotation or its simple name with a lower-case initial;
* the update is the update argument of the first operation that has one.

`limit` and `with(sort)` calls of a `Query` around the anchor add a limit and sort keys.
-/

namespace QueryScope

namespace Criteria

/-- The command a template operation of a given name runs. -/
def operationCommand : String → Command
  | "aggregate" | "aggregateStream" => .aggregate
  | "count" | "exactCount" => .countDocuments
  | "estimatedCount" => .estimatedDocumentCount
  | "find" | "findAll" | "stream" | "scroll" | "all" => .findMany
  | "exists" | "findById" | "findOne" | "one" | "oneValue" | "first" | "firstValue" => .findOne
  | "findDistinct" | "distinct" => .distinct
  | "findAllAndRemove" | "remove" => .deleteMany
  | "findAndModify" => .findOneAndUpdate
  | "findAndRemove" => .findOneAndDelete
  | "findAndReplace" => .findOneAndReplace
  | "insert" => .insertOne
  | "insertAll" => .insertMany
  | "replace" => .replaceOne
  | "save" | "upsert" => .upsert
  | "updateFirst" => .updateOne
  | "updateMulti" => .updateMany
  | _ => .unknown

/-- The command of an operation chain: a fluent update (`apply`) is named by its terminal
call, anything else by the outermost operation. -/
def chainCommand (p : Program) (chain : List Nat) (outermost : Nat) : Command :=
  match p.call? outermost with
  | none => .unknown
  | some terminal =>
    let appliesUpdate := chain.any fun id => match p.call? id with
      | some c => c.name == "apply"
      | none => false
    if !appliesUpdate then operationCommand terminal.name
    else match terminal.name with
      | "all" => .updateMany
      | "first" => .updateOne
      | "upsert" => .upsert
      | "findAndModify" => .findOneAndUpdate
      | _ => .unknown

/-- The template operations above an expression, nearest first. -/
def operationsAbove (p : Program) (expr : Nat) : List Nat := (p.ancestors expr).filter (isTemplateCall p)

/-- The template operations running a query: those above it, or else those above the first
use of a variable holding the statement it is part of. -/
def operations (p : Program) (anchor : Nat) : List Nat :=
  match operationsAbove p anchor with
  | [] =>
    let root := p.root anchor
    let holders := p.exprIds.filter fun id =>
      match (p.expr id).kind with
      | .reference (.localVar v) =>
        (p.var v).initializer == some root || (p.localAssignments v).contains root
      | _ => false
    (holders.map (operationsAbove p)).find? (!·.isEmpty) |>.getD []
  | direct => direct

/-- The template calls along the receivers from the outermost operation, outermost first. -/
def operationChain (p : Program) (outermost : Nat) : List Nat :=
  go outermost
where
  go (id : Nat) : List Nat :=
    if isTemplateCall p id then
      match (p.call? id).bind (·.receiver) with
      | some r => if r < id then id :: go r else [id]
      | none => [id]
    else []
  termination_by id

/-- The name with its first character in lower case. -/
def decapitalize (name : String) : String :=
  match name.toList with
  | c :: cs => String.ofList (Text.lowerCase c ++ cs)
  | [] => ""

/-- The collection of an entity class: the `collection` (or else `value`) argument of its
`@Document` annotation when it is a known string, or else its simple name with a lower-case
initial, at the class literal. -/
def entityCollection (r : Resolver) (literal : Nat) (t : HostType) : Nat × String :=
  let p := r.program
  let annotated := do
    let cls ← p.classByName? t.name
    let doc ← (p.cls cls).annotation? SpringName.document
    let arg ← doc.arg? "collection" <|> doc.arg? "value"
    let name ← r.resolveString arg
    pure (arg, name)
  annotated.getD (literal, decapitalize t.simpleName)

/-- The argument naming the collection in an operation call. -/
def collectionArgument? (c : Call) : Option Nat :=
  match c.name, c.args with
  | "inCollection", [name] => some name
  | "aggregate", _ :: name :: _ | "aggregateStream", _ :: name :: _ => some name
  | _, _ :: _ :: _ => c.args.getLast?
  | _, _ => none

/-- The class literal of an expression, without parentheses. -/
def classLiteral? (p : Program) (id : Nat) : Option (Nat × HostType) :=
  let id := p.stripParens id
  match (p.expr id).kind with
  | .classLiteral t => some (id, t)
  | _ => none

/-- The collection a query's operations name. -/
def collection (r : Resolver) (chain : List Nat) (typedInput : Option Nat) : CollectionRef :=
  let p := r.program
  let calls := chain.filterMap p.call?
  let named := calls.findSome? fun c => do
    let source ← collectionArgument? c
    let name ← r.resolveString source
    pure (CollectionRef.onlyCollection (.expr source) name)
  let typed := do
    let id ← typedInput
    match (p.expr id).kind with
    | .classLiteral t =>
      let (source, name) := entityCollection r id t
      some (CollectionRef.onlyCollection (.expr source) name)
    | _ => none
  let passed := calls.findSome? fun c => c.args.findSome? fun a => do
    let (id, t) ← classLiteral? p a
    let (source, name) := entityCollection r id t
    pure (CollectionRef.onlyCollection (.expr source) name)
  (named <|> typed <|> passed).getD .unknown

/-- Whether an expression starts a criteria query: a criteria call or a pipeline. -/
def isCandidate (p : Program) (expr : Nat) : Bool := isCriteriaCall p expr || isNewAggregation p expr

/-- The outermost criteria call above an expression, through parentheses, arrays and JDK
lists. -/
def outermostCriteria (p : Program) (expr : Nat) : Nat :=
  go expr (p.ancestors expr)
where
  go (anchor : Nat) : List Nat → Nat
    | [] => anchor
    | parent :: rest =>
      if isCriteriaCall p parent then go parent rest
      else if p.isParen parent || p.isListOf parent || p.isArrayInit parent then go anchor rest
      else anchor

/-- The anchor of a criteria expression, with `fuel` bounding the steps from one pipeline's
criteria to another. -/
def anchorWith (p : Program) : Nat → Nat → Nat
  | 0, expr => expr
  | fuel + 1, expr =>
    if isNewAggregation p expr then
      match firstMatchCriteria? p expr with
      | some c => anchorWith p fuel c
      | none => expr
    else
      let anchor := outermostCriteria p expr
      match (enclosingPipeline? p anchor).bind (firstMatchCriteria? p) with
      | some first => if first != anchor then anchorWith p fuel first else anchor
      | none => anchor

/-- The anchor of a criteria expression: the outermost criteria call holding it, or the
first `match` criteria of the pipeline holding it. -/
def anchor (p : Program) (expr : Nat) : Nat := anchorWith p (p.exprs.size + 2) expr

/-- Apply the `limit` and `with(sort)` calls of queries around the anchor, innermost first. -/
def applyQueryCalls (r : Resolver) (fuel : Nat) (query : Node) (anchorExpr : Nat) : Lowering Node :=
  let p := r.program
  (p.ancestors anchorExpr).foldlM (fun q parent =>
    match p.call? parent with
    | some c =>
      if c.isDeclaredBy SpringName.query then
        match c.args with
        | [arg] =>
          match c.name with
          | "limit" =>
            match r.resolveInt32 arg with
            | some k => pure (q.add (.limit k))
            | none => pure q
          | "with" => do
            let keys ← sortKeys r fuel arg
            pure (q.add (.branch .sorts keys))
          | _ => pure q
        | _ => pure q
      else pure q
    | none => pure q) query

/-- Lower the criteria query anchored at an expression; an expression that starts no query,
or belongs to the query of another anchor, is refused. -/
def parse (p : Program) (anchorExpr : Nat) : Lowering (Except LoweringError Node) := do
  let name := s!"expr#{anchorExpr}"
  if !isCandidate p anchorExpr then
    return .error (.notACandidate .springCriteria name)
  let owner := anchor p anchorExpr
  if owner != anchorExpr then
    return .error (.notTheAnchor name s!"expr#{owner}")
  let ctx ← get
  let r : Resolver := { program := p, maxDepth := ctx.maxDepth }
  let fuel := ctx.maxDepth + 1
  let pipelineExpr := if isNewAggregation p anchorExpr then some anchorExpr
    else enclosingPipeline? p anchorExpr
  let (filters, stages, typedInput) ← match pipelineExpr with
    | some pl => do
      let (stages, typedInput) ← pipeline r fuel pl
      pure ([], stages, typedInput)
    | none => do
      let filters ← criteria r fuel anchorExpr
      pure (filters, [], none)
  let (command, coll, chain) := match (operations p (pipelineExpr.getD anchorExpr)).getLast? with
    | some outermost =>
      let chain := operationChain p outermost
      (chainCommand p chain outermost, collection r chain typedInput, chain)
    | none => (Command.unknown, CollectionRef.unknown, [])
  let upd := match chain.findSome? (updateArgument? p) with
    | some u => if command.updatesDocuments then updates r u else []
    | none => []
  let query := nodeAt anchorExpr [.dialect .springCriteria, .command command, .collection coll,
    .branch .filter filters, .branch .updates upd, .branch .aggregation stages]
  let query ← applyQueryCalls r fuel query anchorExpr
  return .ok query

/-- Whether an expression names the collection of a criteria query: an argument of a class's
`@Document` annotation, or the argument of an `inCollection` operation. -/
def isCollectionReference (p : Program) (expr : Nat) : Bool :=
  let inDocument := match p.enclosingClass? expr with
    | some c => p.isAnnotationArgument c SpringName.document expr
    | none => false
  inDocument || match p.parent? expr with
    | some parent =>
      match p.call? parent with
      | some c => c.name == "inCollection" && isTemplateCall p parent
      | none => false
    | none => false

/-- Whether a known string names a document field in a criteria query: the first argument of
`where` or `and`. -/
def isFieldReference (p : Program) (expr : Nat) : Bool :=
  let named := match p.parent? expr with
    | some parent =>
      match p.call? parent with
      | some c =>
        c.isDeclaredBy SpringName.criteria && (c.name == "where" || c.name == "and") &&
          c.args.head? == some expr
      | none => false
    | none => false
  named && ((Resolver.mk p defaultLimit).resolveString expr).isSome

end Criteria

end QueryScope
