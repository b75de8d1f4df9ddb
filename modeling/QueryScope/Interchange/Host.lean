import QueryScope.Host.Program
import QueryScope.Json.Value
/-!
# Interchange form of host program entities

A type is `{"name", "args", "array_dims"}`. An expression's shape is an object with one
member named after the shape: `Literal` (itself `"Null"` or `{"Int": n}`, `{"String": s}`, …),
`Reference` (`{"Local": id}`, `{"Field": id}` or `{"Type": name}`), `Call`, `Parenthesized`,
`New`, `ClassLiteral` or `ArrayInit`.
-/

namespace QueryScope

mutual
/-- The form of a host type. -/
def HostType.toJson : HostType → Json
  | .mk n as d =>
    .obj [("name", .str n), ("args", .arr (HostType.toJsonList as)), ("array_dims", .ofNat d.toNat)]

/-- The forms of a list of host types. -/
def HostType.toJsonList : List HostType → List Json
  | [] => []
  | t :: ts => HostType.toJson t :: HostType.toJsonList ts
end

/-- The form of a literal. -/
def Literal.toJson : Literal → Json
  | .null => .str "Null"
  | .boolean b => .tagged "Boolean" (.bool b)
  | .int n => .tagged "Int" (.int n)
  | .long n => .tagged "Long" (.int n)
  | .double x => .tagged "Double" (.num x)
  | .char c => .tagged "Char" (.str (String.singleton c))
  | .string s => .tagged "String" (.str s)

/-- The form of an optional id. -/
def Json.optNat (n : Option Nat) : Json := Json.ofOption Json.ofNat n

/-- The form of an expression's shape. -/
def ExprKind.toJson : ExprKind → Json
  | .literal l => .tagged "Literal" l.toJson
  | .reference (.localVar v) => .tagged "Reference" (.tagged "Local" (.ofNat v))
  | .reference (.field f) => .tagged "Reference" (.tagged "Field" (.ofNat f))
  | .reference (.typeName n) => .tagged "Reference" (.tagged "Type" (.str n))
  | .call c => .tagged "Call" (.obj [("receiver", .optNat c.receiver), ("name", .str c.name),
      ("declaring_type", .optStr c.declaringType), ("target", .optNat c.target),
      ("args", .nats c.args)])
  | .paren inner => .tagged "Parenthesized" (.ofNat inner)
  | .new t ctor args => .tagged "New"
      (.obj [("ty", t.toJson), ("constructor", .optNat ctor), ("args", .nats args)])
  | .classLiteral t => .tagged "ClassLiteral" t.toJson
  | .arrayInit items => .tagged "ArrayInit" (.nats items)

/-- The form of an owner. -/
def Owner.toJson : Owner → Json
  | .method m => .tagged "Method" (.ofNat m)
  | .inClass c => .tagged "Class" (.ofNat c)

end QueryScope
