/-!
# Quoted text

A text is written as a JSON string literal: between double quotes, with the quote and the
backslash escaped by a backslash, the five controls that have a short escape written as
`\b`, `\t`, `\n`, `\f` and `\r`, every other control below U+0020 written as `\u00XX` with
lowercase hexadecimal digits, and every other character written as itself. The shell
scripts and the messages of this library quote names this way.

The quoted form is the concatenation of the escapes of the characters
(`escape_append`), so a statement about quoting is a statement about one character.
-/

namespace QueryScope.Quoted

/-- A lowercase hexadecimal digit. -/
def hexDigit (n : Nat) : Char :=
  if n < 10 then Char.ofNat (48 + n) else Char.ofNat (87 + n)

/-- How one character is written inside the quotes. -/
def escapeChar (c : Char) : List Char :=
  if c = '"' then ['\\', '"']
  else if c = '\\' then ['\\', '\\']
  else if c = '\n' then ['\\', 'n']
  else if c = '\r' then ['\\', 'r']
  else if c = '\t' then ['\\', 't']
  else if c.toNat = 8 then ['\\', 'b']
  else if c.toNat = 12 then ['\\', 'f']
  else if c.toNat < 32 then ['\\', 'u', '0', '0', hexDigit (c.toNat / 16), hexDigit (c.toNat % 16)]
  else [c]

/-- The characters of a text, each written as inside the quotes. -/
def escape : List Char → List Char
  | [] => []
  | c :: cs => escapeChar c ++ escape cs

@[simp] theorem escape_nil : escape [] = [] := rfl

@[simp] theorem escape_cons (c : Char) (cs : List Char) :
    escape (c :: cs) = escapeChar c ++ escape cs := rfl

theorem escape_append (xs ys : List Char) : escape (xs ++ ys) = escape xs ++ escape ys := by
  induction xs with
  | nil => rfl
  | cons c cs ih => simp [ih]

/-- A character other than a quote, a backslash or a control is written as itself. -/
theorem escapeChar_plain (c : Char) (hq : c ≠ '"') (hb : c ≠ '\\') (hc : 32 ≤ c.toNat) :
    escapeChar c = [c] := by
  have hn : c ≠ '\n' := by rintro rfl; simp at hc
  have hr : c ≠ '\r' := by rintro rfl; simp at hc
  have ht : c ≠ '\t' := by rintro rfl; simp at hc
  unfold escapeChar
  rw [if_neg hq, if_neg hb, if_neg hn, if_neg hr, if_neg ht, if_neg (by omega), if_neg (by omega),
    if_neg (by omega)]

end QueryScope.Quoted

namespace QueryScope

/-- The JSON string literal of a text. -/
def quote (s : String) : String :=
  String.ofList ('"' :: Quoted.escape s.toList ++ ['"'])

end QueryScope
