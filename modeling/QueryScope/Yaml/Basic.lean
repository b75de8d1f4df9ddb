/-!
# YAML documents

A YAML node is a scalar, a sequence or a mapping with text keys. A scalar keeps its text and
whether it was written plain: only a plain scalar is resolved to a null, a boolean or a
number, by the core schema of YAML 1.2:

* null is `~`, `null`, `Null`, `NULL` or nothing at all;
* a boolean is `true`, `True`, `TRUE`, `false`, `False` or `FALSE`;
* an integer is decimal, or `0x`, `0o` or `0b` followed by digits of that base, with at most
  one sign; a decimal with a leading zero and more digits (`012`) is text;
* a float is a finite decimal with a point or an exponent, or `.inf`, `-.inf` or `.nan` in
  their three spellings.

Every other plain scalar, and every quoted or block scalar, is text.

These modules stand in for the YAML library that reads settings and snapshots; no theorem of
this library rests on them.
-/

namespace QueryScope

/-- A YAML node. -/
inductive Yaml where
  /-- A scalar, and whether it was written plain. -/
  | scalar (text : String) (plain : Bool)
  | seq (items : List Yaml)
  | map (entries : List (String × Yaml))
deriving Inhabited

namespace Yaml

/-- The empty plain scalar, which a missing value stands for. -/
def empty : Yaml := .scalar "" true

/-- The nesting depth of a node. -/
def depth : Yaml → Nat
  | .seq xs => depthList xs + 1
  | .map ms => depthEntries ms + 1
  | .scalar _ _ => 0
where
  depthList : List Yaml → Nat
    | [] => 0
    | x :: xs => max (depth x) (depthList xs)
  depthEntries : List (String × Yaml) → Nat
    | [] => 0
    | (_, v) :: ms => max (depth v) (depthEntries ms)

end Yaml

namespace YamlScalar

/-- Whether a plain scalar is null. -/
def isNull (s : String) : Bool := s == "" || s == "~" || s == "null" || s == "Null" || s == "NULL"

/-- The boolean a plain scalar stands for. -/
def bool? (s : String) : Option Bool :=
  if s == "true" || s == "True" || s == "TRUE" then some true
  else if s == "false" || s == "False" || s == "FALSE" then some false
  else none

/-- The value of a digit in a base. -/
def digit? (base : Nat) (c : Char) : Option Nat :=
  let v := if '0' ≤ c ∧ c ≤ '9' then c.toNat - 48
    else if 'a' ≤ c ∧ c ≤ 'z' then c.toNat - 87
    else if 'A' ≤ c ∧ c ≤ 'Z' then c.toNat - 55
    else base
  if v < base then some v else none

/-- The value of one or more digits of a base. -/
def digits? (base : Nat) (cs : List Char) : Option Nat :=
  if cs.isEmpty then none
  else cs.foldlM (fun acc c => (acc * base + ·) <$> digit? base c) 0

/-- Whether a text is a zero followed by more decimal digits, after at most one sign: such a
text is no number. -/
def leadingZero (cs : List Char) : Bool :=
  let t := match cs with
    | '-' :: t | '+' :: t => t
    | t => t
  match t with
  | '0' :: d :: ds => (d :: ds).all Char.isDigit
  | _ => false

/-- The magnitude of an integer without a sign: a base prefix and its digits, or decimal
digits without a leading zero. -/
def magnitude? (cs : List Char) (whole : List Char) : Option Nat :=
  match cs with
  | '0' :: 'x' :: rest => digits? 16 rest
  | '0' :: 'o' :: rest => digits? 8 rest
  | '0' :: 'b' :: rest => digits? 2 rest
  | _ => if leadingZero whole then none else digits? 10 cs

/-- The count a plain scalar stands for: an integer without a minus sign, below `bound`. -/
def unsigned? (bound : Nat) (s : String) : Option Nat :=
  let cs := s.toList
  let u := match cs with
    | '+' :: u => u
    | u => u
  match u with
  | '+' :: _ | '-' :: _ => none
  | _ => (magnitude? u cs).filter (· < bound)

/-- Whether a plain scalar is a negative integer of at most `bound` in magnitude. -/
def negative (bound : Nat) (s : String) : Bool :=
  match s.toList with
  | '-' :: rest =>
    match rest with
    | '+' :: _ | '-' :: _ => false
    | _ => ((magnitude? rest s.toList).filter (· ≤ bound)).isSome
  | _ => false

/-- Whether a plain scalar is an integer. -/
def isInt (s : String) : Bool :=
  (unsigned? (Nat.pow 2 128) s).isSome || negative (Nat.pow 2 127) s

/-- The largest finite double is below this bound; a decimal at or above it is infinite. -/
def overflowBound : Nat := Nat.pow 2 1024 - Nat.pow 2 970

/-- Whether `m · 10^e` (or `m / 10^(-e)`) is below the bound of finite doubles. -/
def finiteMagnitude (m : Nat) (e : Int) : Bool :=
  if m = 0 then true
  else
    let size := (Nat.toDigits 10 m).length
    if size + e ≤ 308 then true
    else if size + e ≥ 310 then false
    else if 0 ≤ e then m * Nat.pow 10 e.toNat < overflowBound
    else m < overflowBound * Nat.pow 10 (-e).toNat

/-- Whether a text is a finite decimal: digits with an optional point and fraction, or a point
and digits, then an optional exponent. -/
def finiteDecimal (cs : List Char) : Bool :=
  let cs := match cs with
    | '-' :: t | '+' :: t => t
    | t => t
  let whole := cs.takeWhile Char.isDigit
  let afterWhole := cs.dropWhile Char.isDigit
  let (frac, afterFrac) := match afterWhole with
    | '.' :: t => (t.takeWhile Char.isDigit, t.dropWhile Char.isDigit)
    | t => ([], t)
  if whole.isEmpty && frac.isEmpty then false
  else
    let exponent? : Option Int := match afterFrac with
      | [] => some 0
      | e :: t =>
        if e == 'e' || e == 'E' then
          match t with
          | '-' :: ds => (digits? 10 ds).map fun n => -(n : Int)
          | '+' :: ds => (digits? 10 ds).map Int.ofNat
          | ds => (digits? 10 ds).map Int.ofNat
        else none
    match exponent? with
    | none => false
    | some e =>
      let m := (digits? 10 (whole ++ frac)).getD 0
      finiteMagnitude m (e - frac.length)

/-- Whether a plain scalar is a float. -/
def isFloat (s : String) : Bool :=
  let cs := s.toList
  let (signed, u) := match cs with
    | '+' :: u => (true, u)
    | u => (false, u)
  let t := String.ofList u
  if leadingZero cs then false
  else match u with
    | '+' :: _ => false
    | '-' :: _ => !signed && (s == "-.inf" || s == "-.Inf" || s == "-.INF" || finiteDecimal u)
    | _ =>
      t == ".inf" || t == ".Inf" || t == ".INF" || s == ".nan" || s == ".NaN" || s == ".NAN" ||
        finiteDecimal u

/-- Whether a plain scalar is text: no null, boolean, integer or float. -/
def isText (s : String) : Bool :=
  !isNull s && (bool? s).isNone && !isInt s && !isFloat s

end YamlScalar

end QueryScope
