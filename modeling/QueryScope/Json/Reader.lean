import QueryScope.Json.Value
/-!
# Reading JSON text

The grammar of RFC 8259, with these readings:

* blanks between tokens are space, tab, line feed and carriage return;
* an integer literal in `[-2^63, 2^64)` is an integer; any other integer literal, a negative
  zero written `-0`, and every literal with a fraction or an exponent is a double, rounded to
  nearest; a literal beyond the largest double is refused;
* strings may not hold raw controls; `\u` escapes combine surrogate pairs and a surrogate
  that stands alone is refused;
* at most 127 arrays and objects may be open at once;
* a key given twice keeps its last value, at the place of its first.

Every step consumes a character, so reading is bounded by the length of the text.

This reader and the writer stand in for the JSON library where requests are read and answered;
what is proved about documents read back from text takes the text layer as a parameter
(`Json.TextLayer`) and rests on neither.
-/

namespace QueryScope.Json.Reader

/-- The blanks that may stand between tokens. -/
def isSpace (c : Char) : Bool :=
  c == ' ' || c == '\t' || c == '\n' || c == '\r'

/-- Drop leading blanks. -/
def skip (cs : List Char) : List Char := cs.dropWhile isSpace

/-- The value of a hexadecimal digit. -/
def hexValue (c : Char) : Option Nat :=
  if '0' ≤ c ∧ c ≤ '9' then some (c.toNat - 48)
  else if 'a' ≤ c ∧ c ≤ 'f' then some (c.toNat - 87)
  else if 'A' ≤ c ∧ c ≤ 'F' then some (c.toNat - 55)
  else none

/-- The value of four hexadecimal digits. -/
def hex4 (a b c d : Char) : Option Nat := do
  let x ← hexValue a
  let y ← hexValue b
  let z ← hexValue c
  let w ← hexValue d
  pure (((x * 16 + y) * 16 + z) * 16 + w)

/-- The character of a `\u` escape that is no surrogate. -/
def plainUnit (n : Nat) : Option Char :=
  if 0xD800 ≤ n ∧ n < 0xE000 then none else some (Char.ofNat n)

/-- The character of a surrogate pair. -/
def pairUnit (hi lo : Nat) : Option Char :=
  if 0xD800 ≤ hi ∧ hi < 0xDC00 ∧ 0xDC00 ≤ lo ∧ lo < 0xE000 then
    some (Char.ofNat (0x10000 + (hi - 0xD800) * 0x400 + (lo - 0xDC00)))
  else none

/-- The rest of a string literal after its opening quote: its characters (reversed) and what
follows the closing quote. -/
def stringBody : List Char → List Char → Option (List Char × List Char)
  | [], _ => none
  | '"' :: rest, acc => some (acc, rest)
  | '\\' :: 'u' :: a :: b :: c :: d :: rest, acc =>
    match hex4 a b c d with
    | none => none
    | some n =>
      if 0xD800 ≤ n ∧ n < 0xDC00 then
        match rest with
        | '\\' :: 'u' :: e :: f :: g :: h :: rest' =>
          match (hex4 e f g h).bind (pairUnit n) with
          | some ch => stringBody rest' (ch :: acc)
          | none => none
        | _ => none
      else
        match plainUnit n with
        | some ch => stringBody rest (ch :: acc)
        | none => none
  | '\\' :: c :: rest, acc =>
    match c with
    | '"' => stringBody rest ('"' :: acc)
    | '\\' => stringBody rest ('\\' :: acc)
    | '/' => stringBody rest ('/' :: acc)
    | 'b' => stringBody rest (Char.ofNat 8 :: acc)
    | 'f' => stringBody rest (Char.ofNat 12 :: acc)
    | 'n' => stringBody rest ('\n' :: acc)
    | 'r' => stringBody rest ('\r' :: acc)
    | 't' => stringBody rest ('\t' :: acc)
    | _ => none
  | c :: rest, acc => if c.toNat < 32 then none else stringBody rest (c :: acc)
termination_by cs => cs.length
decreasing_by all_goals simp_all; try omega

/-- A string literal after its opening quote. -/
def string (cs : List Char) : Option (String × List Char) :=
  (stringBody cs []).map fun (acc, rest) => (String.ofList acc.reverse, rest)

/-- The digits at the front. -/
def digits (cs : List Char) : List Char × List Char :=
  (cs.takeWhile Char.isDigit, cs.dropWhile Char.isDigit)

/-- The value of decimal digits. -/
def digitsValue (ds : List Char) : Nat :=
  ds.foldl (fun n c => n * 10 + (c.toNat - 48)) 0

/-- A double near `m · 10^e`, or `none` past the largest double. -/
def scientific (negative : Bool) (m : Nat) (e : Int) : Option Float :=
  let x := if 0 ≤ e then Float.ofScientific m false e.toNat else Float.ofScientific m true (-e).toNat
  if x.isInf then none else some (if negative then -x else x)

/-- A number literal. -/
def number (cs : List Char) : Option (Json × List Char) :=
  let (negative, cs) := match cs with
    | '-' :: rest => (true, rest)
    | _ => (false, cs)
  let (whole, rest) := digits cs
  let wholeOk := match whole with
    | [] => false
    | '0' :: _ :: _ => false
    | _ => true
  if !wholeOk then none
  else
    let (fraction, rest, hasFraction, fractionOk) := match rest with
      | '.' :: r =>
        let (f, r') := digits r
        (f, r', true, !f.isEmpty)
      | _ => ([], rest, false, true)
    if !fractionOk then none
    else
      let (expo, rest, hasExponent, exponentOk) := match rest with
        | c :: r =>
          if c == 'e' || c == 'E' then
            let (sign, r) := match r with
              | '+' :: r' => (1, r')
              | '-' :: r' => (-1, r')
              | _ => (1, r)
            let (ds, r') := digits r
            ((sign : Int) * Int.ofNat (digitsValue ds), r', true, !ds.isEmpty)
          else (0, rest, false, true)
        | [] => (0, rest, false, true)
      if !exponentOk then none
      else
        let mantissa := digitsValue (whole ++ fraction)
        if !hasFraction && !hasExponent then
          let n : Int := if negative then -Int.ofNat mantissa else Int.ofNat mantissa
          if negative && mantissa = 0 then some (.num (-0.0), rest)
          else if -Int.ofNat (Nat.pow 2 63) ≤ n ∧ n < Int.ofNat (Nat.pow 2 64) then some (.int n, rest)
          else (scientific negative mantissa 0).map fun x => (.num x, rest)
        else
          (scientific negative mantissa (expo - Int.ofNat fraction.length)).map
            fun x => (.num x, rest)

/-- A literal word at the front. -/
def word (w : List Char) (v : Json) (cs : List Char) : Option (Json × List Char) :=
  if w.isPrefixOf cs then some (v, cs.drop w.length) else none

mutual
/-- A value; `depth` arrays and objects may still be opened, `fuel` bounds the steps. -/
def value (fuel depth : Nat) (cs : List Char) : Option (Json × List Char) :=
  match fuel with
  | 0 => none
  | fuel + 1 =>
    match skip cs with
    | '{' :: rest =>
      if depth ≤ 1 then none
      else members fuel (depth - 1) [] true rest
    | '[' :: rest =>
      if depth ≤ 1 then none
      else items fuel (depth - 1) [] true rest
    | '"' :: rest => (string rest).map fun (s, r) => (.str s, r)
    | 't' :: _ => word "true".toList (.bool true) (skip cs)
    | 'f' :: _ => word "false".toList (.bool false) (skip cs)
    | 'n' :: _ => word "null".toList .null (skip cs)
    | cs' => number cs'

/-- The rest of an array: the items so far (reversed), whether none was read yet. -/
def items (fuel depth : Nat) (acc : List Json) (first : Bool) (cs : List Char) :
    Option (Json × List Char) :=
  match fuel with
  | 0 => none
  | fuel + 1 =>
    match skip cs with
    | ']' :: rest => if first then some (.arr [], rest) else none
    | cs' =>
      match value fuel depth cs' with
      | none => none
      | some (v, rest) =>
        match skip rest with
        | ',' :: rest' => items fuel depth (v :: acc) false rest'
        | ']' :: rest' => some (.arr (v :: acc).reverse, rest')
        | _ => none

/-- The rest of an object: the members so far, whether none was read yet. -/
def members (fuel depth : Nat) (acc : List (String × Json)) (first : Bool) (cs : List Char) :
    Option (Json × List Char) :=
  match fuel with
  | 0 => none
  | fuel + 1 =>
    match skip cs with
    | '}' :: rest => if first then some (.obj [], rest) else none
    | '"' :: rest =>
      match string rest with
      | none => none
      | some (k, rest) =>
        match skip rest with
        | ':' :: rest =>
          match value fuel depth rest with
          | none => none
          | some (v, rest) =>
            let acc := Json.setMember acc k v
            match skip rest with
            | ',' :: rest' => members fuel depth acc false rest'
            | '}' :: rest' => some (.obj acc, rest')
            | _ => none
        | _ => none
    | _ => none
end

end QueryScope.Json.Reader

namespace QueryScope.Json

/-- Read a whole text as one JSON value, blanks around it allowed. -/
def parse? (s : String) : Option Json :=
  let cs := s.toList
  match Reader.value (2 * cs.length + 2) 128 cs with
  | some (v, rest) => if (Reader.skip rest).isEmpty then some v else none
  | none => none

end QueryScope.Json
