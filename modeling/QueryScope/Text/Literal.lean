import QueryScope.Text.Quoted
/-!
# Text as a diagnostic literal

Assertion reports show a text as a literal between double quotes. The quote and the backslash
are escaped by a backslash, NUL, tab, line feed and carriage return have the short escapes
`\0`, `\t`, `\n` and `\r`, and a character that a reader cannot see is written `\u{X}` with
its code point in lowercase hexadecimal digits, without leading zeros. Every other character,
the apostrophe included, is written as itself.

A character cannot be seen when it is a control, a separator other than the space, a format
character, a private-use character, a noncharacter, or a mark that combines with the one
before it.
-/

namespace QueryScope.Literal

/-- Code point ranges, inclusive, of characters that a reader cannot see. -/
def invisibleRanges : List (Nat × Nat) :=
  [(0x0, 0x1f), (0x7f, 0xa0), (0xad, 0xad), (0x300, 0x36f), (0x483, 0x489), (0x591, 0x5bd),
    (0x600, 0x605), (0x61c, 0x61c), (0x6dd, 0x6dd), (0x70f, 0x70f), (0x1680, 0x1680),
    (0x180e, 0x180e), (0x1ab0, 0x1aff), (0x1dc0, 0x1dff), (0x2000, 0x200f), (0x2028, 0x202f),
    (0x205f, 0x2064), (0x2066, 0x206f), (0x20d0, 0x20ff), (0x3000, 0x3000), (0xd800, 0xf8ff),
    (0xfe00, 0xfe0f), (0xfe20, 0xfe2f), (0xfeff, 0xfeff), (0xfff9, 0xfffb), (0xfffe, 0xffff),
    (0xe0000, 0xe0fff), (0xf0000, 0x10ffff)]

/-- Whether a reader cannot see a character. -/
def invisible (c : Char) : Bool :=
  invisibleRanges.any fun (lo, hi) => lo ≤ c.toNat && c.toNat ≤ hi

/-- The lowercase hexadecimal digits of a number, without leading zeros. -/
def hex (n : Nat) : List Char := (Nat.toDigits 16 n)

/-- How one character is written inside the quotes. -/
def escapeChar (c : Char) : List Char :=
  if c = '"' then ['\\', '"']
  else if c = '\\' then ['\\', '\\']
  else if c = '\n' then ['\\', 'n']
  else if c = '\r' then ['\\', 'r']
  else if c = '\t' then ['\\', 't']
  else if c.toNat = 0 then ['\\', '0']
  else if invisible c then ['\\', 'u', '\x7b'] ++ hex c.toNat ++ ['\x7d']
  else [c]

/-- A text as a literal. -/
def literal (s : String) : String :=
  String.ofList ('"' :: s.toList.flatMap escapeChar ++ ['"'])

/-- A list of texts as a literal list: the literals between brackets, separated by commas. -/
def list (items : List String) : String :=
  "[" ++ String.intercalate ", " items ++ "]"

end QueryScope.Literal
