/-!
# Shortest decimal digits of a double

A finite double is `m · 2^e`. The reals that round to it form an interval around it, half a
gap wide on either side (the gap below is half as wide when `m` is the smallest normal
mantissa), with both ends included exactly when `m` is even, since a tie then rounds to it.

The shortest decimal of the double is found on the decimal grids `10^p`, coarsest first:
on each grid only the two grid points next to the value can lie in the interval, because
the interval holds the value. The first grid with a point inside wins; of two points
inside, the nearer one wins, and of two equally near, the even one. Everything is exact
`Nat` arithmetic on the value scaled to an integer.

`Digits.ofFinite` returns the digits without trailing zeros and the power of ten they are
scaled by; printing them is left to a `Notation` record.
-/

namespace QueryScope.Decimal

/-- What the bits of a double stand for. -/
inductive Binary where
  /-- `(-1)^negative · mantissa · 2^exponent`; `narrowBelow` when the gap to the next smaller
  double is half the gap to the next larger one. -/
  | finite (negative : Bool) (mantissa : Nat) (exponent : Int) (narrowBelow : Bool)
  | infinite (negative : Bool)
  | nan
deriving Repr, DecidableEq

/-- Decode the IEEE 754 binary64 layout: sign bit, eleven exponent bits, 52 fraction bits. -/
def Binary.ofBits (bits : UInt64) : Binary :=
  let n := bits.toNat
  let negative := n / Nat.pow 2 63 = 1
  let biased := (n / Nat.pow 2 52) % Nat.pow 2 11
  let fraction := n % Nat.pow 2 52
  if biased = Nat.pow 2 11 - 1 then
    if fraction = 0 then .infinite negative else .nan
  else if biased = 0 then
    .finite negative fraction (-1074) false
  else
    .finite negative (fraction + Nat.pow 2 52) (Int.ofNat biased - 1075) (fraction = 0 ∧ 1 < biased)

/-- Decimal digits: the value `digits · 10^exponent`. -/
structure Digits where
  digits : Nat
  exponent : Int
deriving Repr, DecidableEq

/-- `2^k` for an integer `k`, as numerator and denominator. -/
def powTwo (k : Int) : Nat × Nat :=
  if 0 ≤ k then (Nat.pow 2 k.toNat, 1) else (1, Nat.pow 2 (-k).toNat)

/-- `10^k` for an integer `k`, as numerator and denominator. -/
def powTen (k : Int) : Nat × Nat :=
  if 0 ≤ k then (Nat.pow 10 k.toNat, 1) else (1, Nat.pow 10 (-k).toNat)

/-- Compare `d · 10^p` with `x · 2^q`. -/
def compareScaled (d : Nat) (p : Int) (x : Nat) (q : Int) : Ordering :=
  let (tn, td) := powTen p
  let (bn, bd) := powTwo q
  compare (d * tn * bd) (x * bn * td)

/-- `⌊x · 2^q / 10^p⌋`. -/
def floorScaled (x : Nat) (q : Int) (p : Int) : Nat :=
  let (tn, td) := powTen p
  let (bn, bd) := powTwo q
  x * bn * td / (tn * bd)

/-- The number of decimal digits of a positive number, by repeated division. -/
def digitCount (n : Nat) : Nat :=
  if h : n < 10 then 1 else digitCount (n / 10) + 1
termination_by n
decreasing_by omega

/-- The least `k ≤ fuel` with `num · 10^k ≥ den`. -/
def leastShift (num den : Nat) : Nat → Nat → Nat
  | 0, k => k
  | fuel + 1, k => if den ≤ num * Nat.pow 10 k then k else leastShift num den fuel (k + 1)

/-- `⌊log₁₀ (x · 2^q)⌋` for a positive `x`. -/
def decimalMagnitude (x : Nat) (q : Int) : Int :=
  let (bn, bd) := powTwo q
  let num := x * bn
  if bd ≤ num then Int.ofNat (digitCount (num / bd)) - 1
  else -Int.ofNat (leastShift num bd 1100 1)

/-- The interval of one double, scaled by `2^(e-2)`: lower end, value, upper end, and whether
the ends belong to it. -/
structure Interval where
  low : Nat
  value : Nat
  high : Nat
  scale : Int
  closed : Bool

/-- The interval of `m · 2^e`. -/
def Interval.ofFinite (m : Nat) (e : Int) (narrowBelow : Bool) : Interval :=
  { low := if narrowBelow then 4 * m - 1 else 4 * m - 2
    value := 4 * m
    high := 4 * m + 2
    scale := e - 2
    closed := m % 2 = 0 }

/-- Whether the grid point `d · 10^p` lies in the interval. -/
def Interval.holds (i : Interval) (d : Nat) (p : Int) : Bool :=
  let above := compareScaled d p i.low i.scale
  let below := compareScaled d p i.high i.scale
  (above = .gt || (i.closed && above = .eq)) && (below = .lt || (i.closed && below = .eq))

/-- The grid point of `10^p` chosen for the interval, if one of the value's two neighbours lies
in it: the nearer, and of two equally near the even one. -/
def Interval.pick (i : Interval) (p : Int) : Option Nat :=
  let d₀ := floorScaled i.value i.scale p
  let d₁ := d₀ + 1
  let in₀ := d₀ ≠ 0 && i.holds d₀ p
  let in₁ := i.holds d₁ p
  if in₀ && in₁ then
    -- twice the value against the midpoint `(2 d₀ + 1) · 10^p`
    match compareScaled (2 * d₀ + 1) p (2 * i.value) i.scale with
    | .gt => some d₀
    | .lt => some d₁
    | .eq => some (if d₀ % 2 = 0 then d₀ else d₁)
  else if in₀ then some d₀
  else if in₁ then some d₁
  else none

/-- Remove trailing zeros, raising the exponent. -/
def Digits.normalize (d : Nat) (p : Int) : Digits :=
  if h : d ≠ 0 ∧ d % 10 = 0 then Digits.normalize (d / 10) (p + 1)
  else ⟨d, p⟩
termination_by d
decreasing_by omega

/-- The first grid of `grids` on which the interval holds a point. -/
def Interval.search (i : Interval) : List Int → Option Digits
  | [] => none
  | p :: ps =>
    match i.pick p with
    | some d => some (Digits.normalize d p)
    | none => i.search ps

/-- The shortest digits of the positive double `m · 2^e` that read back as it. -/
def Digits.ofFinite (m : Nat) (e : Int) (narrowBelow : Bool) : Digits :=
  if m = 0 then ⟨0, 0⟩
  else
    let i := Interval.ofFinite m e narrowBelow
    let top := decimalMagnitude i.value i.scale + 1
    -- seventeen significant digits always suffice, so nineteen grids are enough
    let grids := (List.range 19).map fun k => top - Int.ofNat k
    match i.search grids with
    | some d => d
    | none => Digits.normalize (floorScaled i.value i.scale (top - 18)) (top - 18)

/-- The decimal text of a natural number. -/
def natText (n : Nat) : String :=
  String.ofList (Nat.toDigits 10 n)

/-- How a double is spelled: where positional notation is used, the spellings of the
special values and of the exponent. -/
structure Notation where
  /-- Positional notation is used when the decimal point falls at least this far left of the
  first digit (counted as a non-positive position); `none` means always. -/
  lowestPoint : Option Int
  /-- Positional notation is used when the decimal point falls at most this far right of the
  first digit; `none` means always. -/
  highestPoint : Option Int
  /-- Whether a whole number keeps a `.0`. -/
  pointZero : Bool
  /-- The mark between the digits and the exponent. -/
  exponentMark : String
  /-- Whether a non-negative exponent gets a `+`. -/
  exponentPlus : Bool
  nanText : String
  infinityText : String

/-- The text of positive decimal digits under a notation. -/
def Notation.digitsText (n : Notation) (d : Digits) : String :=
  let ds := Nat.toDigits 10 d.digits
  let len := ds.length
  let point : Int := Int.ofNat len + d.exponent
  let positional :=
    (match n.lowestPoint with | some lo => lo ≤ point | none => true) &&
    (match n.highestPoint with | some hi => point ≤ hi | none => true)
  if positional then
    if 0 ≤ d.exponent then
      String.ofList (ds ++ List.replicate d.exponent.toNat '0') ++ (if n.pointZero then ".0" else "")
    else if 0 < point then
      String.ofList (ds.take point.toNat ++ '.' :: ds.drop point.toNat)
    else
      String.ofList ('0' :: '.' :: List.replicate (-point).toNat '0' ++ ds)
  else
    let mantissa := match ds with
      | [] => "0"
      | [c] => String.ofList [c]
      | c :: cs => String.ofList (c :: '.' :: cs)
    let power := point - 1
    let sign := if power < 0 then "-" else if n.exponentPlus then "+" else ""
    mantissa ++ n.exponentMark ++ sign ++ natText power.natAbs

/-- The text of a double under a notation. -/
def Notation.text (n : Notation) (x : Float) : String :=
  match Binary.ofBits x.toBits with
  | .nan => n.nanText
  | .infinite neg => (if neg then "-" else "") ++ n.infinityText
  | .finite neg m e narrow =>
    let body :=
      if m = 0 then (if n.pointZero then "0.0" else "0")
      else n.digitsText (Digits.ofFinite m e narrow)
    (if neg then "-" else "") ++ body

end QueryScope.Decimal
