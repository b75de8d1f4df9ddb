import QueryScope.Text.Blank
/-!
# Namespaces

A namespace names a collection inside a database and is written `database.collection`. It is
*valid* when neither part is blank. Reading a text splits it at its first dot: a text without
a dot has no separator, and one whose database or collection is blank has an empty part.
-/

namespace QueryScope

/-- A database and a collection in it. -/
structure Namespace where
  database : String
  collection : String
deriving DecidableEq, Repr, Inhabited

/-- Why a text is not a namespace. -/
inductive NamespaceError where
  | missingSeparator (text : String)
  | emptyPart (text : String)
deriving DecidableEq, Repr

namespace NamespaceError

/-- The name of the error. -/
def label : NamespaceError → String
  | .missingSeparator _ => "MissingSeparator"
  | .emptyPart _ => "EmptyPart"

/-- The message of the error. -/
def message : NamespaceError → String
  | .missingSeparator s => "Namespace '" ++ s ++ "' must have the form <database>.<collection>"
  | .emptyPart s => "Namespace '" ++ s ++ "' has an empty database or collection"

end NamespaceError

namespace Namespace

/-- The text `database.collection`. -/
def text (ns : Namespace) : String := ns.database ++ "." ++ ns.collection

/-- Neither part is blank. -/
def isValid (ns : Namespace) : Bool := !String.isBlank ns.database && !String.isBlank ns.collection

/-- Split characters at the first dot. -/
def splitAtDot : List Char → Option (List Char × List Char)
  | [] => none
  | c :: cs =>
    if c = '.' then some ([], cs)
    else (splitAtDot cs).map fun (a, b) => (c :: a, b)

/-- Read a namespace from its text. -/
def parse (s : String) : Except NamespaceError Namespace :=
  match splitAtDot s.toList with
  | none => .error (.missingSeparator s)
  | some (db, coll) =>
    let ns : Namespace := ⟨String.ofList db, String.ofList coll⟩
    if ns.isValid then .ok ns else .error (.emptyPart s)

end Namespace

end QueryScope
