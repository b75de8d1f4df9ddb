import QueryScope.Bson.Union
import QueryScope.Text.Unsigned
/-!
# Collection schemas

The type of the field at a dotted path: each segment steps into a document's field (a
missing field is `null`), into an array's element (a segment that is an index picks the
element itself, any other segment steps into the element), into each member of a union
(taking the union of the results), through a computed type to its base, and stays `any` in
`any`. A segment into any other type gives `null`. A schema *has* a field when its type is
not `null`.
-/

namespace QueryScope

/-- Whether a path segment is an array index: an unsigned 64-bit number. -/
def isIndexSegment (seg : String) : Bool := (Text.readUnsigned 64 seg).isSome

namespace Bson

mutual
/-- The type one path segment below a type. -/
def step (seg : String) : Bson → Bson
  | .object fs => (fs.lookup seg).getD .null
  | .array e => if isIndexSegment seg then e else step seg e
  | .anyOf ms => union (stepList seg ms)
  | .computed b _ => step seg b
  | .any => .any
  | _ => .null

/-- Step each member of a union. -/
def stepList (seg : String) : List Bson → List Bson
  | [] => []
  | t :: ts => step seg t :: stepList seg ts
end

end Bson

namespace Schema

/-- The schema of a namespace with no known fields. -/
def empty (ns : Namespace) : Schema := .mk ns (.object [])

/-- The type of the field at a dotted path. -/
def typeOf (s : Schema) (path : String) : Bson :=
  (path.splitOn ".").foldl (fun t seg => Bson.step seg t) s.type

/-- Whether the schema has a field at a dotted path. -/
def hasField (s : Schema) (path : String) : Bool := !(s.typeOf path == .null)

end Schema

end QueryScope
