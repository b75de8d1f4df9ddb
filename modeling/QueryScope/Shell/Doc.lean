import QueryScope.Text.Quoted
/-!
# Shell documents

The text of a shell query is built as a small tree: raw text (literals, variable names,
calls), objects whose entries keep the order they were added in, and arrays. `Doc.render`
is the only place such a tree becomes text. Compact rendering separates items by `, `;
pretty rendering puts each item on a line of its own, indented two spaces per level. Empty
objects and arrays are `{}` and `[]` either way.

Adding an entry under a key the object already has merges operator objects: two objects
are joined, an object meeting a plain value becomes `{"$eq": value}`, and a plain value is
replaced.
-/

namespace QueryScope

namespace Shell

/-- A shell value being written. -/
inductive Doc where
  /-- Text written as it is. -/
  | raw (text : String)
  /-- An object; keys are written as given, already quoted. -/
  | object (entries : List (String × Doc))
  /-- An array. -/
  | array (items : List Doc)

namespace Doc

/-- The empty object. -/
def empty : Doc := .object []

/-- A quoted text. -/
def string (s : String) : Doc := .raw (quote s)

/-- The value under a key after another value is added under it. -/
def merge : Doc → Doc → Doc
  | .object current, .object more => .object (current ++ more)
  | .object _, other => .object [(quote "$eq", other)]
  | _, value => value

/-- Add an entry to entries, merging with the first entry of the same key. -/
def insertEntry (k : String) (v : Doc) : List (String × Doc) → List (String × Doc)
  | [] => [(k, v)]
  | (k', d) :: es => if k' = k then (k', merge d v) :: es else (k', d) :: insertEntry k v es

/-- Add an entry to an object; any other document stays as it is. -/
def insert (d : Doc) (k : String) (v : Doc) : Doc :=
  match d with
  | .object es => .object (insertEntry k v es)
  | other => other

/-- Two spaces per level. -/
def indent (depth : Nat) : String := String.join (List.replicate depth "  ")

/-- What goes before an item: a comma after an earlier item, then a new line in pretty
form or a blank in compact form. -/
def separator (pretty : Bool) (depth : Nat) (afterItem : Bool) : String :=
  (if afterItem then "," else "") ++
    (if pretty then "\n" ++ indent depth else if afterItem then " " else "")

/-- What goes before a closing bracket. -/
def closing (pretty : Bool) (depth : Nat) : String :=
  if pretty then "\n" ++ indent depth else ""

mutual
/-- The text of a document at a nesting depth. -/
def renderAt (pretty : Bool) (depth : Nat) : Doc → String
  | .raw t => t
  | .object [] => "\x7b\x7d"
  | .array [] => "[]"
  | .object es =>
    "\x7b" ++ renderEntries pretty depth false es ++ closing pretty depth ++ "\x7d"
  | .array xs => "[" ++ renderItems pretty depth false xs ++ closing pretty depth ++ "]"

/-- The entries of an object, each after its separator. -/
def renderEntries (pretty : Bool) (depth : Nat) (afterItem : Bool) :
    List (String × Doc) → String
  | [] => ""
  | (k, v) :: es =>
    separator pretty (depth + 1) afterItem ++ k ++ ": " ++ renderAt pretty (depth + 1) v ++
      renderEntries pretty depth true es

/-- The items of an array, each after its separator. -/
def renderItems (pretty : Bool) (depth : Nat) (afterItem : Bool) : List Doc → String
  | [] => ""
  | x :: xs =>
    separator pretty (depth + 1) afterItem ++ renderAt pretty (depth + 1) x ++
      renderItems pretty depth true xs
end

/-- The text of a document. -/
def render (pretty : Bool) (d : Doc) : String := renderAt pretty 0 d

end Doc

end Shell

end QueryScope
