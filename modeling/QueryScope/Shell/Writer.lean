import QueryScope.Shell.Doc
import QueryScope.Bson.Union
import QueryScope.Bson.Constant
import QueryScope.Text.Blank
/-!
# Writing a shell script

A query whose values are not all known is written with variables: each unknown value
becomes a variable named after its field, declared before the query as `var name = value`.
The value is the default given for that name by the context, or else a neutral value of the
variable's type (`0`, `""`, `false`, an all-zero object id, ...). A variable is declared
once, with the type it was first used with, and the declarations are sorted by name.

A variable name keeps ASCII letters, digits and `_`, turns every other character into `_`,
and gets a leading `_` when it would be empty or start with a digit.

While writing, the script also notes whether some part could not be written faithfully;
such a script is incomplete.
-/

namespace QueryScope

namespace Shell

/-- A stand-in for a runtime variable: its type and the value to write for it. -/
structure Expansion where
  type : Bson
  default? : Option Constant

/-- How a query is written: pretty or compact, whether it runs unattended, and stand-ins
for variables, by name. -/
structure Context where
  pretty : Bool := false
  autoRun : Bool := false
  expansions : List (String × Expansion) := []

/-- What writing has gathered: the declared variables, sorted by name, and whether some
part could not be written. -/
structure Script where
  declared : List (String × Bson) := []
  incomplete : Bool := false

/-- Writing a script. -/
abbrev Writing := StateM Script

/-- A character kept in a variable name. -/
def Char.isNameChar (c : Char) : Bool :=
  (c.isAlphanum && c.toNat < 128) || c == '_'

/-- The variable name for a text. -/
def identifier (name : String) : String :=
  let cs := name.toList.map fun c => if Char.isNameChar c then c else '_'
  match cs with
  | [] => "_"
  | c :: _ => if c.isDigit then String.ofList ('_' :: cs) else String.ofList cs

/-- Declare a variable in sorted declarations, unless it is declared already. -/
def declare (name : String) (t : Bson) : List (String × Bson) → List (String × Bson)
  | [] => [(name, t)]
  | (n, u) :: vs =>
    if name < n then (name, t) :: (n, u) :: vs
    else if name = n then (n, u) :: vs
    else (n, u) :: declare name t vs

/-- A variable for a runtime value; its first use fixes its type. -/
def runtimeVar (name : String) (t : Bson) : Writing Doc := do
  let n := identifier name
  modify fun s => { s with declared := declare n t s.declared }
  pure (.raw n)

/-- Note that some part could not be written faithfully. -/
def markIncomplete : Writing Unit := modify fun s => { s with incomplete := true }

mutual
/-- A neutral value of a type. -/
def defaultText : Bson → String
  | .null | .any => "null"
  | .boolean => "false"
  | .int32 | .int64 => "0"
  | .double => "0.0"
  | .decimal128 => "Decimal128(\"0\")"
  | .string => "\"\""
  | .objectId => "ObjectId(\"000000000000000000000000\")"
  | .uuid => "UUID(\"00000000-0000-0000-0000-000000000000\")"
  | .date => "ISODate(\"2009-02-11T18:00:00.000Z\")"
  | .array _ => "[]"
  | .object _ => "\x7b\x7d"
  | .enumeration ms _ =>
    match ms with
    | m :: _ => quote m
    | [] => "\"\""
  | .anyOf ms => defaultOfMembers ms
  | .computed b _ => defaultText b

/-- The neutral value of the first member other than `null`. -/
def defaultOfMembers : List Bson → String
  | [] => "null"
  | .null :: ms => defaultOfMembers ms
  | m :: _ => defaultText m
end

/-- The declaration of one variable. -/
def declaration (ctx : Context) (name : String) (t : Bson) : String :=
  let value := match (ctx.expansions.lookup name).bind (·.default?) with
    | some c => c.text
    | none => defaultText t
  "var " ++ name ++ " = " ++ value

/-- The script: the declarations, a blank line and the body, without outer blanks. -/
def Script.finish (s : Script) (ctx : Context) (body : String) : String :=
  match s.declared with
  | [] => String.trimBlank body
  | vs =>
    String.trimBlank ("\n".intercalate (vs.map fun (n, t) => declaration ctx n t) ++ "\n\n" ++ body)

end Shell

end QueryScope
