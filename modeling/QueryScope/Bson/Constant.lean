import QueryScope.Text.Quoted
import QueryScope.Decimal.Shortest
/-!
# Constant values

A value known without running the host program: a literal, an enum constant, or an array of
such values. Its text is the shell literal that stands for it: strings and enum constants
quoted, decimals, dates and object ids wrapped in their constructors, arrays bracketed with
`, ` between items, and doubles with the fewest digits that read back, always positional.

Two doubles are equal when they are equal as numbers, so `0.0` and `-0.0` are equal and a NaN
equals nothing.
-/

namespace QueryScope

/-- A value known without running the host program. -/
inductive Constant where
  | null
  | boolean (b : Bool)
  | int32 (n : Int)
  | int64 (n : Int)
  | double (x : Float)
  | decimal (text : String)
  | string (s : String)
  /-- Milliseconds since the epoch. -/
  | date (millis : Int)
  /-- An object id in hexadecimal. -/
  | objectId (hex : String)
  /-- A constant of an enum class, by qualified class name. -/
  | enumConstant (cls : String) (constant : String)
  | array (items : List Constant)
deriving Inhabited

namespace Constant

mutual
/-- Equality of values, doubles compared as numbers. -/
def beq : Constant → Constant → Bool
  | .null, .null => true
  | .boolean a, .boolean b => a == b
  | .int32 a, .int32 b => a == b
  | .int64 a, .int64 b => a == b
  | .double a, .double b => a == b
  | .decimal a, .decimal b => a == b
  | .string a, .string b => a == b
  | .date a, .date b => a == b
  | .objectId a, .objectId b => a == b
  | .enumConstant c k, .enumConstant c' k' => c == c' && k == k'
  | .array xs, .array ys => beqList xs ys
  | _, _ => false

/-- Pointwise equality of lists of values. -/
def beqList : List Constant → List Constant → Bool
  | [], [] => true
  | x :: xs, y :: ys => beq x y && beqList xs ys
  | _, _ => false
end

instance : BEq Constant := ⟨beq⟩

/-- Doubles in shell text: the fewest digits that read back, always positional, no `.0`. -/
def doubleNotation : Decimal.Notation where
  lowestPoint := none
  highestPoint := none
  pointZero := false
  exponentMark := "e"
  exponentPlus := false
  nanText := "NaN"
  infinityText := "inf"

mutual
/-- The shell literal of a value. -/
def text : Constant → String
  | .null => "null"
  | .boolean b => if b then "true" else "false"
  | .int32 n => toString n
  | .int64 n => toString n
  | .double x => doubleNotation.text x
  | .decimal v => "Decimal128(\"" ++ v ++ "\")"
  | .string s => quote s
  | .date v => "ISODate(" ++ toString v ++ ")"
  | .objectId v => "ObjectId(\"" ++ v ++ "\")"
  | .enumConstant _ k => quote k
  | .array xs => "[" ++ ", ".intercalate (textList xs) ++ "]"

/-- The literals of the items of an array. -/
def textList : List Constant → List String
  | [] => []
  | x :: xs => text x :: textList xs
end

/-- The text of a string value. -/
def asString? : Constant → Option String
  | .string s => some s
  | _ => none

/-- The value as a 32-bit integer, where it is one. -/
def asInt32? : Constant → Option Int
  | .int32 n => some n
  | .int64 n => if -2147483648 ≤ n ∧ n ≤ 2147483647 then some n else none
  | _ => none

end Constant

end QueryScope
