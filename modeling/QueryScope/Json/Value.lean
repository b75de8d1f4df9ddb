/-!
# JSON values

The documents this library reads and writes: settings, metadata snapshots, explain output
and the interchange form of its own types. A number written without a fraction or an
exponent is an integer and keeps its exact value; every other number is a double. An
object keeps its members in the order they were given, and a key given twice keeps its last
value (`Json.obj`'s members are read through `Json.get?`, which finds the first, and the
reader replaces in place).
-/

namespace QueryScope

/-- A JSON document. -/
inductive Json where
  | null
  | bool (b : Bool)
  | int (n : Int)
  | num (x : Float)
  | str (s : String)
  | arr (items : List Json)
  | obj (members : List (String × Json))
deriving Inhabited

namespace Json

/-- The value of a member of an object. -/
def get? : Json → String → Option Json
  | obj ms, k => ms.lookup k
  | _, _ => none

/-- The value of a member, where a missing member and `null` both count as absent. -/
def opt? (j : Json) (k : String) : Option Json :=
  match j.get? k with
  | some null => none
  | other => other

/-- The text of a string value. -/
def str? : Json → Option String
  | str s => some s
  | _ => none

/-- A boolean value. -/
def bool? : Json → Option Bool
  | bool b => some b
  | _ => none

/-- An integer value. -/
def int? : Json → Option Int
  | int n => some n
  | _ => none

/-- A natural number value. -/
def nat? : Json → Option Nat
  | int n => if 0 ≤ n then some n.toNat else none
  | _ => none

/-- The items of an array. -/
def arr? : Json → Option (List Json)
  | arr xs => some xs
  | _ => none

/-- The members of an object. -/
def obj? : Json → Option (List (String × Json))
  | obj ms => some ms
  | _ => none

/-- Whether the value is `null`. -/
def isNull : Json → Bool
  | null => true
  | _ => false

/-- A number as a double, integers rounded to the nearest double. -/
def float? : Json → Option Float
  | num x => some x
  | int n => some (if 0 ≤ n then Float.ofNat n.toNat else -Float.ofNat n.natAbs)
  | _ => none

/-- Replace the value of a key in place, or append it. -/
def setMember (ms : List (String × Json)) (k : String) (v : Json) : List (String × Json) :=
  if ms.any (·.1 == k) then ms.map fun m => if m.1 == k then (k, v) else m
  else ms ++ [(k, v)]

/-- An optional value, `null` when absent. -/
def ofOption {α : Type} (f : α → Json) : Option α → Json
  | some a => f a
  | none => null

/-- A text value, `null` when absent. -/
def optStr (s : Option String) : Json := ofOption str s

/-- A natural number. -/
def ofNat (n : Nat) : Json := int (Int.ofNat n)

/-- An array of texts. -/
def strs (xs : List String) : Json := arr (xs.map str)

/-- An array of natural numbers. -/
def nats (xs : List Nat) : Json := arr (xs.map ofNat)

/-- An object with one member. -/
def tagged (k : String) (v : Json) : Json := obj [(k, v)]

/-- The nesting depth of a document. -/
def depth : Json → Nat
  | .arr xs => depthList xs + 1
  | .obj ms => depthMembers ms + 1
  | _ => 0
where
  depthList : List Json → Nat
    | [] => 0
    | x :: xs => max (depth x) (depthList xs)
  depthMembers : List (String × Json) → Nat
    | [] => 0
    | (_, v) :: ms => max (depth v) (depthMembers ms)

/-- Read a required text member. -/
def text? (j : Json) (k : String) : Option String := (j.get? k).bind Json.str?

/-- Read an optional flag: missing or `null` is false. -/
def flag? (j : Json) (k : String) : Option Bool :=
  match j.get? k with
  | none | some .null => some false
  | some v => v.bool?

end Json

end QueryScope
