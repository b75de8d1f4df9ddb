/-!
# Reading unsigned numbers

An unsigned number of a given width is written as decimal digits, maybe after one `+`, and
must be below `2 ^ width`. Nothing else is allowed: no sign `-`, no blank, no empty digit
string.
-/

namespace QueryScope

namespace Text

/-- The value of a digit string, most significant digit first. -/
def digitsValue (ds : List Char) : Nat := ds.foldl (fun n c => n * 10 + (c.toNat - 48)) 0

/-- The unsigned number of `width` bits that a text writes. -/
def readUnsigned (width : Nat) (s : String) : Option Nat :=
  let ds := match s.toList with
    | '+' :: rest => rest
    | cs => cs
  if !ds.isEmpty && ds.all Char.isDigit && decide (digitsValue ds < Nat.pow 2 width) then
    some (digitsValue ds)
  else none

end Text

end QueryScope
