import QueryScope.Json.Value
/-!
# Documents

Settings and metadata snapshots are read from JSON or YAML documents. A `Document` is what a
reader needs of such a tree: text, counts, flags, nulls, lists and string-keyed members. In
JSON each of these is its own kind of value; YAML resolves a plain scalar by what the reader
asks of it, so the two formats share one reader per structure.

`untypedText?` is the text of a value whose type the reader does not fix: a JSON string, or a
YAML scalar that is a string by itself (quoted, or plain and no null, boolean or number).
YAML reads an empty scalar as an empty list or mapping where one is asked for; `isCollection`
tells a list or mapping written as such from that.
-/

namespace QueryScope

/-- What a reader needs of a document tree. -/
class Document (α : Type) where
  text? : α → Option String
  untypedText? : α → Option String
  count? : α → Option Nat
  flag? : α → Option Bool
  isNull : α → Bool
  items? : α → Option (List α)
  members? : α → Option (List (String × α))
  isCollection : α → Bool
  /-- How deeply lists and mappings nest in the value; readers recurse no deeper. -/
  depth : α → Nat

/-- A JSON value as a document: each kind of value is only itself. -/
instance : Document Json where
  text? := Json.str?
  untypedText? := Json.str?
  count? := fun
    | .int n => if 0 ≤ n && n < Int.ofNat (Nat.pow 2 64) then some n.toNat else none
    | _ => none
  flag? := Json.bool?
  isNull := Json.isNull
  items? := Json.arr?
  members? := Json.obj?
  isCollection := fun
    | .arr _ | .obj _ => true
    | _ => false
  depth := Json.depth

namespace Document

/-- The value of a member. -/
def member? {α : Type} [Document α] (d : α) (k : String) : Option α :=
  (members? d).bind fun ms => ms.lookup k

/-- The fields of a record: the members of a mapping that gives none of the names twice, or
the items of a list paired with the names by position, when there are no more items than
names. Members of other names are kept; readers ignore them. -/
def record? {α : Type} [Document α] (names : List String) (d : α) : Option (List (String × α)) :=
  match members? d, items? d with
  | some ms, _ =>
    if names.any fun n => 1 < (ms.filter (·.1 == n)).length then none else some ms
  | none, some xs => if names.length < xs.length then none else some (names.zip xs)
  | none, none => none

end Document

end QueryScope
