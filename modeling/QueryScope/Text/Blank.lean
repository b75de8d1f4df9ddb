/-!
# Blank characters

The blank characters are the code points of the Unicode `White_Space` property: the ASCII
controls tab to carriage return, the space, next line, no-break space, ogham space mark, the
en quad to hair space block, line and paragraph separators, narrow no-break space, medium
mathematical space and the ideographic space.

A name is *blank* when it has no character outside this set; names of databases and
collections must not be blank.
-/

namespace QueryScope

/-- The Unicode `White_Space` property. -/
def Char.isBlank (c : Char) : Bool :=
  let n := c.toNat
  (0x09 ≤ n && n ≤ 0x0D) || n == 0x20 || n == 0x85 || n == 0xA0 || n == 0x1680 ||
    (0x2000 ≤ n && n ≤ 0x200A) || n == 0x2028 || n == 0x2029 || n == 0x202F ||
    n == 0x205F || n == 0x3000

/-- Every character that core calls whitespace is blank. -/
theorem Char.isBlank_of_isWhitespace (c : Char) (h : c.isWhitespace = true) :
    Char.isBlank c = true := by
  simp only [Char.isWhitespace, Bool.or_eq_true, decide_eq_true_eq] at h
  simp only [Char.isBlank, Bool.or_eq_true, Bool.and_eq_true, beq_iff_eq, decide_eq_true_eq]
  rcases h with ((h | h) | h) | h <;> simp [h, Char.toNat]

/-- A text with no character outside the blank set. -/
def String.isBlank (s : String) : Bool :=
  s.toList.all Char.isBlank

/-- The text without its leading and trailing blank characters. -/
def String.trimBlank (s : String) : String :=
  String.ofList ((s.toList.dropWhile Char.isBlank).reverse.dropWhile Char.isBlank).reverse

/-- The text without any blank character. -/
def String.dropBlanks (s : String) : String :=
  String.ofList (s.toList.filter fun c => !Char.isBlank c)

end QueryScope
