import QueryScope.Lowering.Nesting
import QueryScope.Lowering.Calls
/-!
# Call shapes of criteria queries

A criteria query is a chain of `Criteria` calls (`where("age").gt(18).and("name").is(n)`),
run by a template operation (`mongoTemplate.find(query(criteria), Person.class)`), or the
criteria of the first `match` stage of an aggregation built with `newAggregation`.

This module holds the tests for the calls of each role, the operands of a combinator (given
separately, as one array or as one JDK list), the field names of a projection or grouping
(given as strings or through `Fields`), and the links between a `match` stage's criteria and
its pipeline.
-/

namespace QueryScope

namespace Criteria

/-- Whether an expression is a `Criteria` call. -/
def isCriteriaCall (p : Program) (id : Nat) : Bool := p.callDeclaredBy (· == SpringName.criteria) id

/-- Whether an expression is a call of a template operation. -/
def isTemplateCall (p : Program) (id : Nat) : Bool :=
  p.callDeclaredBy SpringName.isTemplateOperation id

/-- Whether an expression is `Aggregation.newAggregation(..)`. -/
def isNewAggregation (p : Program) (id : Nat) : Bool :=
  p.isCallOf SpringName.aggregation "newAggregation" id

/-- Whether an expression is a call of a stage-building type. -/
def isStageCall (p : Program) (id : Nat) : Bool := p.callDeclaredBy SpringName.stageTypes.contains id

/-- Whether an expression is a `Fields` call. -/
def isFieldsCall (p : Program) (id : Nat) : Bool := p.callDeclaredBy (· == SpringName.fields) id

/-- Whether an expression only wraps operands: parentheses, an array or a JDK list. -/
def isOperandWrapper (p : Program) (id : Nat) : Bool := p.isParen id || p.isArrayInit id || p.isListOf id

/-- The operands of a combinator: one argument leading to an array or a JDK list gives its
items, anything else is taken as it is. -/
def operands (r : Resolver) : List Nat → List Nat
  | [single] =>
    let p := r.program
    match (r.resolveUntil single fun id => p.isArrayInit id || p.isListOf id).map (p.expr · |>.kind) with
    | some (.arrayInit items) => items
    | some (.call c) => c.args
    | _ => [single]
  | args => args

/-- The field names of a list of arguments, looking through `Fields.field`, `Fields.fields`
and `Fields.from`; `fuel` bounds their nesting. -/
def fieldNamesFrom (r : Resolver) : Nat → List Nat → List Nat
  | 0, _ => []
  | fuel + 1, args =>
    (operands r args).flatMap fun arg =>
      match (r.resolveUntil arg (isFieldsCall r.program)).bind r.program.call? with
      | some c =>
        match c.name, c.args with
        | "field", [name] => [name]
        | "fields", names | "from", names => fieldNamesFrom r fuel names
        | _, _ => []
      | none => [arg]

/-- The field names of a list of arguments. -/
def fieldNames (r : Resolver) (args : List Nat) : List Nat :=
  fieldNamesFrom r (r.program.exprs.size + 1) args

/-- The pipeline whose `match` stage holds a criteria chain: above the criteria, past
parentheses, a `match` call, then only operand wrappers up to `newAggregation`. -/
def enclosingPipeline? (p : Program) (criteria : Nat) : Option Nat :=
  match (p.ancestors criteria).dropWhile p.isParen with
  | stage :: rest =>
    if p.isCallOf SpringName.aggregation "match" stage then
      match rest.dropWhile (fun a => !isNewAggregation p a && isOperandWrapper p a) with
      | a :: _ => if isNewAggregation p a then some a else none
      | [] => none
    else none
  | [] => none

/-- The criteria of the first `match` stage within one pipeline argument, searching arrays
and JDK lists in order; the argument is already without parentheses. -/
def firstMatchIn (p : Program) (id : Nat) : Option Nat :=
  match (p.expr id).kind with
  | .arrayInit items => items.attach.findSome? fun ⟨e, _⟩ =>
    let e := p.stripParens e
    if e < id then firstMatchIn p e else none
  | .call c =>
    if c.is JdkName.list "of" || c.is JdkName.arrays "asList" then
      c.args.attach.findSome? fun ⟨e, _⟩ =>
        let e := p.stripParens e
        if e < id then firstMatchIn p e else none
    else if c.is SpringName.aggregation "match" then
      match c.args with
      | [criteria] =>
        let criteria := p.stripParens criteria
        if isCriteriaCall p criteria then some criteria else none
      | _ => none
    else none
  | _ => none
termination_by id

/-- The criteria of the first `match` stage of a pipeline. -/
def firstMatchCriteria? (p : Program) (pipeline : Nat) : Option Nat := do
  let c ← p.call? pipeline
  c.args.findSome? fun a => firstMatchIn p (p.stripParens a)

end Criteria

end QueryScope
