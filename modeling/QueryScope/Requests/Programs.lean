import QueryScope.Interchange.Program
import QueryScope.Interchange.Host
import QueryScope.Interchange.Bson
import QueryScope.Lowering.HostTypes
import QueryScope.Lowering.Constants
import QueryScope.Lowering.Handles
/-!
# Requests on host programs

The answers about a described program: every expression, class, method, field and variable
with what the navigation queries say about it.
-/

namespace QueryScope

namespace Requests

/-- What is known about one expression. -/
def exprFacts (p : Program) (detail : Bool) (id : Nat) : Json :=
  let e := p.expr id
  let t := p.staticType? id
  let base : List (String × Json) :=
    [("id", .ofNat id), ("kind", e.kind.toJson), ("offset", .ofNat e.offset),
      ("parent", .optNat e.parent), ("root", .ofNat (p.root id)), ("children", .nats (p.children id)),
      ("descendants", .ofNat (p.descendants id).length), ("strip_parens", .ofNat (p.stripParens id)),
      ("static_type", Json.optStr (t.map HostType.text)),
      ("bson", Json.ofOption (fun t => (p.bsonOf t).toJson) t),
      ("method", .optNat (p.enclosingMethod? id)), ("class", .optNat (p.enclosingClass? id)),
      ("file", .optNat (p.fileOf? id))]
  if detail then
    let call := match p.call? id with
      | some c => match c.declaringType with
        | some d => .obj [("declared_by", .bool (c.isDeclaredBy d)), ("is", .bool (c.is d c.name))]
        | none => .obj [("declared_by", .bool false), ("is", .bool false)]
      | none => .null
    .obj (base ++ [("arguments", .nats (p.arguments id)),
      ("owner", Json.ofOption Owner.toJson e.owner), ("call", call)])
  else .obj base

/-- What is known about one class. -/
def classFacts (p : Program) (id : Nat) : Json :=
  let c := p.cls id
  .obj [("id", .ofNat id), ("name", .str c.name), ("simple_name", .str c.simpleName),
    ("superclass", .optNat (p.superclass? id)), ("hierarchy", .nats (p.hierarchy id)),
    ("constructors", .nats (p.constructorsWithInherited id)),
    ("enum_constants", .strs (p.enumConstants id)), ("by_name", .optNat (p.classByName? c.name))]

/-- What is known about one method. -/
def methodFacts (p : Program) (id : Nat) : Json :=
  .obj [("id", .ofNat id), ("name", .str (p.method id).name), ("returns", .nats (p.returnsOf id)),
    ("call_sites", .nats (p.callSitesOf id)), ("statement_roots", .nats (p.statementRoots id)),
    ("exprs", .nats (p.exprsIn id))]

/-- What is known about one field. -/
def hostFieldFacts (p : Program) (id : Nat) : Json :=
  .obj [("id", .ofNat id), ("name", .str (p.field id).name),
    ("assignments", .arr ((p.fieldAssignments id).map fun (m, v) => Json.nats [m, v]))]

/-- What is known about one variable. -/
def varFacts (p : Program) (id : Nat) : Json :=
  .obj [("id", .ofNat id), ("name", .str (p.var id).name),
    ("parameter", .optNat (p.parameterIndex? id)), ("assignments", .nats (p.localAssignments id))]

/-- The answer to `syntax`. -/
def syntaxAnswer (req : Json) : Option Json := do
  let d ← Description.read? (← req.need "program")
  let detail ← req.flag? "detail"
  let p := d.program
  pure (.obj [("exprs", .arr (p.exprIds.map (exprFacts p detail))),
    ("classes", .arr ((List.range p.classes.size).map (classFacts p))),
    ("methods", .arr ((List.range p.methods.size).map (methodFacts p))),
    ("fields", .arr ((List.range p.fields.size).map (hostFieldFacts p))),
    ("vars", .arr ((List.range p.vars.size).map (varFacts p)))])

/-- The answer to `type_ref`. -/
def typeRefAnswer (req : Json) : Option Json := do
  let t ← HostType.ofJson? 300 (← req.need "type")
  let base : List (String × Json) :=
    [("canonical", .str t.text), ("simple_name", .str t.simpleName), ("is_array", .bool t.isArray),
      ("element", Json.optStr (t.element?.map HostType.text)), ("is_iterable", .bool t.isIterable),
      ("array_of", .str t.arrayOf.text)]
  match req.get? "is" with
  | none | some .null => pure (.obj base)
  | some j => do pure (.obj (base ++ [("is", .bool (t.is (← j.str?)))]))

/-- The targets of a request, each an expression of the program. -/
def targetsOf (d : Description) (req : Json) : Option (List Nat) := do
  let ts ← d.targets? (req.get? "at")
  if ts.all d.program.hasExpr then some ts else none

/-- A limit of a request, the default when absent. -/
def limitOf (req : Json) (k : String) : Option Nat :=
  match req.get? k with
  | none | some .null => some defaultLimit
  | some j => j.nat?

/-- What resolution says about one expression. -/
def resolveFacts (r : Resolver) (id : Nat) : Json :=
  let v := r.resolve id
  .obj [("expr", .ofNat id), ("resolve", Json.ofOption Constant.toJson v),
    ("constant_type", Json.ofOption (fun c => (r.constantType c).toJson) v),
    ("string", Json.optStr (r.resolveString id)), ("value", (r.resolveValue id).toJson),
    ("field", (r.resolveFieldName id).toJson),
    ("field_expression", (r.resolveFieldExpression id).toJson)]

/-- The answer to `resolve`. -/
def resolveAnswer (req : Json) : Option Json := do
  let d ← Description.read? (← req.need "program")
  let ts ← targetsOf d req
  let r : Resolver := { program := d.program, maxDepth := ← limitOf req "max_depth" }
  pure (.arr (ts.map (resolveFacts r)))

/-- The answer to `extract`. -/
def extractAnswer (req : Json) : Option Json := do
  let d ← Description.read? (← req.need "program")
  let ts ← targetsOf d req
  let s : HandleSearch :=
    { resolver := { program := d.program, maxDepth := ← limitOf req "max_depth" },
      maxHops := ← limitOf req "max_hops" }
  pure (.arr (ts.map fun id => .obj [("expr", .ofNat id), ("reference", (s.extract id).toJson)]))

/-- The answer to a request on host programs, `none` for bad input or another operation. -/
def programs (op : String) (req : Json) : Option Json :=
  match op with
  | "syntax" => syntaxAnswer req
  | "type_ref" => typeRefAnswer req
  | "resolve" => resolveAnswer req
  | "extract" => extractAnswer req
  | _ => none

end Requests

end QueryScope
