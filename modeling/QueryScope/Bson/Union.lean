import QueryScope.Bson.Display
/-!
# Unions of BSON types

A union keeps its members in a canonical form: members of a union given as a member are
taken in its place (one level deep, since a union's members are never unions), a member
equal to an earlier one is dropped, and the members are sorted by their rank (the order of
the constructors of `Bson`) and then by their text, keeping the given order among members
with the same rank and text.

`Bson.union` is the union of a list of types as a type: no member is `any`, one member is
that member, more are a union. A union containing `null` is an optional type, written `t?`.

The module also holds the operations that only look through unions: the base of a computed
type, nullability, cardinality, flattening and dropping `null`.
-/

namespace QueryScope

namespace Bson

/-- The position of a type's constructor, which orders union members first. -/
def rank : Bson → Nat
  | .null => 0
  | .boolean => 1
  | .int32 => 2
  | .int64 => 3
  | .double => 4
  | .decimal128 => 5
  | .string => 6
  | .objectId => 7
  | .uuid => 8
  | .date => 9
  | .array _ => 10
  | .object _ => 11
  | .enumeration _ _ => 12
  | .anyOf _ => 13
  | .computed _ _ => 14
  | .any => 15

/-- Append a type unless an equal one is already there. -/
def pushUnique (acc : List Bson) (t : Bson) : List Bson :=
  if acc.any (· == t) then acc else acc ++ [t]

/-- Collect the members of a list of types, taking the members of unions in their place. -/
def collectMembers (ts : List Bson) : List Bson :=
  ts.foldl (fun acc t =>
    match t with
    | .anyOf ms => ms.foldl pushUnique acc
    | t => pushUnique acc t) []

/-- Whether `a` goes before or with `b` in a union: by rank, then by text. -/
def memberLe (a b : Bson) : Bool :=
  a.rank < b.rank || (a.rank == b.rank && !decide (b.display < a.display))

/-- The canonical members of the union of a list of types. -/
def unionMembers (ts : List Bson) : List Bson :=
  (collectMembers ts).mergeSort memberLe

/-- The union of a list of types: `any` for none, the member itself for one. -/
def union (ts : List Bson) : Bson :=
  match unionMembers ts with
  | [] => .any
  | [t] => t
  | ms => .anyOf ms

/-- The type or `null`. -/
def nullable (t : Bson) : Bson := union [t, .null]

/-- The members of a union other than `null`. -/
def nonNull (ms : List Bson) : List Bson := ms.filter fun m => !(m == .null)

/-- Whether `null` is one of the members. -/
def hasNull (ms : List Bson) : Bool := ms.any (· == .null)

/-- The type without its computed wrappers. -/
def base : Bson → Bson
  | .computed b _ => base b
  | t => t

/-- Whether the type admits `null`. -/
def isNullable : Bson → Bool
  | .null | .any => true
  | .anyOf ms => hasNull ms
  | .computed b _ => isNullable b
  | _ => false

/-- The largest count of values a 64-bit counter holds. -/
def countLimit : Nat := Nat.pow 2 64 - 1

mutual
/-- The number of values of the type, `countLimit` for the unbounded ones. -/
def cardinality : Bson → Nat
  | .null => 1
  | .boolean => 2
  | .enumeration ms _ => ms.length
  | .anyOf ms => (cardinalities ms).getD countLimit
  | .computed b _ => cardinality b
  | _ => countLimit

/-- The largest cardinality of a list of types, if any. -/
def cardinalities : List Bson → Option Nat
  | [] => none
  | t :: ts =>
    match cardinalities ts with
    | none => some (cardinality t)
    | some c => some (max (cardinality t) c)
end

mutual
/-- The type with every union inside arrays, documents and unions rebuilt by `union`. -/
def flatten : Bson → Bson
  | .array t => .array (flatten t)
  | .object fs => .object (flattenFields fs)
  | .anyOf ms => union (flattenList ms)
  | t => t

/-- Flatten each type of a list. -/
def flattenList : List Bson → List Bson
  | [] => []
  | t :: ts => flatten t :: flattenList ts

/-- Flatten each field type of a document. -/
def flattenFields : List (String × Bson) → List (String × Bson)
  | [] => []
  | (k, t) :: fs => (k, flatten t) :: flattenFields fs
end

/-- The type without its `null` alternative; `null` alone becomes `any`. -/
def toNonNullable : Bson → Bson
  | .null => .any
  | .anyOf ms => union (nonNull ms)
  | t => t

/-- The text of a type, an optional type written `t?` (or `(a | b)?`). -/
def renderNullable : Bson → String
  | .anyOf ms =>
    if hasNull ms then
      match nonNull ms with
      | [] => "null"
      | rest =>
        match union rest with
        | .anyOf ms' => "(" ++ (Bson.anyOf ms').display ++ ")?"
        | other => other.display ++ "?"
    else (Bson.anyOf ms).display
  | t => t.display

/-- Insert a field into fields sorted by name, replacing one of the same name. -/
def insertField (k : String) (t : Bson) : List (String × Bson) → List (String × Bson)
  | [] => [(k, t)]
  | (k', t') :: fs =>
    if k < k' then (k, t) :: (k', t') :: fs
    else if k = k' then (k, t) :: fs
    else (k', t') :: insertField k t fs

/-- A document type from fields in any order; a later field replaces an earlier namesake. -/
def objectOf (fs : List (String × Bson)) : Bson :=
  .object (fs.foldl (fun acc (k, t) => insertField k t acc) [])

/-- Insert a member into members sorted without repeats. -/
def insertMember (m : String) : List String → List String
  | [] => [m]
  | m' :: ms => if m < m' then m :: m' :: ms else if m = m' then m' :: ms else m' :: insertMember m ms

/-- An enum type from members in any order. -/
def enumOf (ms : List String) (name : Option String) : Bson :=
  .enumeration (ms.foldl (fun acc m => insertMember m acc) []) name

end Bson

end QueryScope
