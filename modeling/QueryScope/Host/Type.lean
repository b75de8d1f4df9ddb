import QueryScope.Text.Qualified
/-!
# Host types

A type of the host program as its source writes it: a fully qualified name (or a primitive
keyword such as `int`), type arguments, and a number of array dimensions. Its canonical text
is `name<arg, arg>[]…`.

The number of dimensions is a byte. The array of a type adds one dimension with byte
arithmetic, so the array of a type with 255 dimensions has none. An array's element drops one
dimension. The iterable containers the analysis understands
are `Iterable`, `List`, `Set`, `Collection` and `ArrayList` (without array dimensions).
-/

namespace QueryScope

/-- A type of the host program. -/
inductive HostType where
  | mk (name : String) (args : List HostType) (dims : UInt8)
deriving Inhabited

namespace HostType

/-- The qualified name. -/
def name : HostType → String
  | .mk n _ _ => n

/-- The type arguments. -/
def args : HostType → List HostType
  | .mk _ as _ => as

/-- The number of array dimensions. -/
def dims : HostType → UInt8
  | .mk _ _ d => d

/-- A type without arguments or dimensions. -/
def named (n : String) : HostType := .mk n [] 0

/-- A type with arguments. -/
def generic (n : String) (as : List HostType) : HostType := .mk n as 0

/-- The array of a type: one more dimension, counted in a byte. -/
def arrayOf : HostType → HostType
  | .mk n as d => .mk n as (d + 1)

/-- Whether the type is an array. -/
def isArray (t : HostType) : Bool := 0 < t.dims

/-- The element type of an array. -/
def element? : HostType → Option HostType
  | .mk n as d => if d = 0 then none else some (.mk n as (d - 1))

/-- The names of the iterable containers the analysis understands. -/
def iterableNames : List String :=
  ["java.lang.Iterable", "java.util.List", "java.util.Set", "java.util.Collection",
    "java.util.ArrayList"]

/-- Whether the type is an iterable container. -/
def isIterable (t : HostType) : Bool := !t.isArray && iterableNames.contains t.name

/-- Whether the type, not an array, has the given name. -/
def «is» (t : HostType) (n : String) : Bool := !t.isArray && t.name == n

/-- The last segment of the name. -/
def simpleName (t : HostType) : String := QueryScope.simpleName t.name

mutual
/-- The canonical text of a type. -/
def text : HostType → String
  | .mk n as d =>
    let shown := match as with
      | [] => n
      | _ => n ++ "<" ++ ", ".intercalate (textList as) ++ ">"
    shown ++ String.join (List.replicate d.toNat "[]")

/-- The canonical texts of a list of types. -/
def textList : List HostType → List String
  | [] => []
  | t :: ts => text t :: textList ts
end

mutual
/-- Structural equality of types. -/
def beq : HostType → HostType → Bool
  | .mk n as d, .mk m bs e => n == m && beqList as bs && d == e

/-- Structural equality of type lists. -/
def beqList : List HostType → List HostType → Bool
  | [], [] => true
  | a :: as, b :: bs => beq a b && beqList as bs
  | _, _ => false
end

instance : BEq HostType := ⟨beq⟩

/-- The string type. -/
def string : HostType := named "java.lang.String"

/-- The object type. -/
def object : HostType := named "java.lang.Object"

end HostType

end QueryScope
