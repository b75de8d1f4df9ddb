import QueryScope.Json.Value
import QueryScope.Text.Quoted
import QueryScope.Decimal.Shortest
/-!
# Writing JSON text

Values are written compactly. Object members are written in the order of their keys, compared
character by character (which is the order of their UTF-8 bytes), so that two writings of one
value agree. Doubles are written with the fewest digits that read back (`Json.numberNotation`);
a value that is not a finite number has no JSON spelling and is written `null`.

Like the reader, this writer stands in for the JSON library where requests are answered.
-/

namespace QueryScope.Json

/-- Doubles in documents: positional while the decimal point stays within sixteen places
right of the first digit and four places left of it, otherwise one digit, a point, the
rest and `e` with the power; whole numbers keep `.0`. -/
def numberNotation : Decimal.Notation where
  lowestPoint := some (-4)
  highestPoint := some 16
  pointZero := true
  exponentMark := "e"
  exponentPlus := false
  nanText := "null"
  infinityText := "null"

/-- The JSON text of a double. -/
def numberText (x : Float) : String :=
  if x.isNaN || x.isInf then "null" else numberNotation.text x

/-- Insert a member into a list sorted by key. -/
def insertMember (m : String × String) : List (String × String) → List (String × String)
  | [] => [m]
  | n :: ns => if m.1 < n.1 then m :: n :: ns else n :: insertMember m ns

/-- Members sorted by key, stably. -/
def sortMembers (ms : List (String × String)) : List (String × String) :=
  ms.foldr insertMember []

mutual
/-- The compact text of a value. -/
def render : Json → String
  | .null => "null"
  | .bool b => if b then "true" else "false"
  | .int n => toString n
  | .num x => numberText x
  | .str s => quote s
  | .arr xs => "[" ++ ",".intercalate (renderAll xs) ++ "]"
  | .obj ms =>
    let written := sortMembers (renderMembers ms)
    "\x7b" ++ ",".intercalate (written.map fun (k, v) => quote k ++ ":" ++ v) ++ "\x7d"

/-- The texts of array items. -/
def renderAll : List Json → List String
  | [] => []
  | x :: xs => render x :: renderAll xs

/-- The texts of object members. -/
def renderMembers : List (String × Json) → List (String × String)
  | [] => []
  | (k, v) :: ms => (k, render v) :: renderMembers ms
end

end QueryScope.Json
