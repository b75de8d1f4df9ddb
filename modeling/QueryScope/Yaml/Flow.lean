import QueryScope.Yaml.Basic
/-!
# YAML scalars and flow collections

The parts of YAML that are read character by character: quoted scalars, plain scalars inside
brackets, and the flow collections `[a, b]` and `{k: v}`. A flow collection may span lines;
its text arrives with its line breaks, which count as blanks, and a `#` after a blank starts
a comment that runs to the end of its line.

Every reader returns the node and the characters after it, or nothing when the text is no
YAML of this kind. Readers of nested collections take a fuel that the caller sets to the
length of the text, since every level consumes a character.
-/

namespace QueryScope.Yaml.Flow

/-- The blanks between flow tokens. -/
def isBlank (c : Char) : Bool := c == ' ' || c == '\t' || c == '\n' || c == '\r'

mutual
/-- Drop blanks and comments. -/
def skip : List Char → List Char
  | c :: cs =>
    if isBlank c then skip cs
    else if c == '#' then skipComment cs
    else c :: cs
  | [] => []

/-- Drop the rest of a comment, then blanks and comments. -/
def skipComment : List Char → List Char
  | '\n' :: cs => skip cs
  | _ :: cs => skipComment cs
  | [] => []
end

/-- Drop spaces and tabs. -/
def skipSpaces (cs : List Char) : List Char := cs.dropWhile fun c => c == ' ' || c == '\t'

/-- Whether only blanks and a comment remain on the line. -/
def restOfLineEmpty (cs : List Char) : Bool :=
  match skipSpaces cs with
  | [] => true
  | '#' :: _ => true
  | '\n' :: _ => true
  | _ => false

/-- Fold line breaks inside a scalar: a break and the blanks after it become one space.
`lead` says that the text starts after a break. -/
def foldBreaks (lead : Bool) : List Char → List Char
  | [] => []
  | '\n' :: cs => ' ' :: foldBreaks true cs
  | c :: cs =>
    if lead && (c == ' ' || c == '\t') then foldBreaks true cs else c :: foldBreaks false cs

/-- Drop the blanks at the end of a text. -/
def trimEnd (cs : List Char) : List Char := (cs.reverse.dropWhile isBlank).reverse

/-- The value of hexadecimal digits. -/
def hexValue (cs : List Char) : Option Nat := YamlScalar.digits? 16 cs

/-- The character of a code point, unless it is a surrogate or beyond Unicode. -/
def codePoint? (n : Nat) : Option Char :=
  if n < 0x110000 && !(0xD800 ≤ n && n < 0xE000) then some (Char.ofNat n) else none

/-- The character of an escape in a double-quoted scalar. -/
def escape? : Char → Option Char
  | '0' => some (Char.ofNat 0)
  | 'a' => some (Char.ofNat 7)
  | 'b' => some (Char.ofNat 8)
  | 't' | '\t' => some '\t'
  | 'n' => some '\n'
  | 'v' => some (Char.ofNat 11)
  | 'f' => some (Char.ofNat 12)
  | 'r' => some '\r'
  | 'e' => some (Char.ofNat 27)
  | ' ' => some ' '
  | '"' => some '"'
  | '/' => some '/'
  | '\\' => some '\\'
  | 'N' => some (Char.ofNat 0x85)
  | '_' => some (Char.ofNat 0xA0)
  | 'L' => some (Char.ofNat 0x2028)
  | 'P' => some (Char.ofNat 0x2029)
  | _ => none

/-- The body of a double-quoted scalar after its opening quote: its characters (reversed) and
what follows the closing quote. `lead` says that the text starts after a line break, whose
leading blanks are dropped. -/
def doubleBody (lead : Bool) : List Char → List Char → Option (List Char × List Char)
  | [], _ => none
  | '"' :: rest, acc => some (acc, rest)
  | '\\' :: '\n' :: rest, acc => doubleBody true rest acc
  | '\\' :: 'x' :: a :: b :: rest, acc => do
    doubleBody false rest ((← codePoint? (← hexValue [a, b])) :: acc)
  | '\\' :: 'u' :: a :: b :: c :: d :: rest, acc => do
    doubleBody false rest ((← codePoint? (← hexValue [a, b, c, d])) :: acc)
  | '\\' :: 'U' :: a :: b :: c :: d :: e :: f :: g :: h :: rest, acc => do
    doubleBody false rest ((← codePoint? (← hexValue [a, b, c, d, e, f, g, h])) :: acc)
  | '\\' :: c :: rest, acc => do doubleBody false rest ((← escape? c) :: acc)
  | '\n' :: rest, acc => doubleBody true rest (' ' :: acc.dropWhile isBlank)
  | c :: rest, acc =>
    if lead && (c == ' ' || c == '\t') then doubleBody true rest acc
    else doubleBody false rest (c :: acc)

/-- The body of a single-quoted scalar after its opening quote, where `''` is a quote. -/
def singleBody (lead : Bool) : List Char → List Char → Option (List Char × List Char)
  | [], _ => none
  | '\'' :: '\'' :: rest, acc => singleBody false rest ('\'' :: acc)
  | '\'' :: rest, acc => some (acc, rest)
  | '\n' :: rest, acc => singleBody true rest (' ' :: acc.dropWhile isBlank)
  | c :: rest, acc =>
    if lead && (c == ' ' || c == '\t') then singleBody true rest acc
    else singleBody false rest (c :: acc)

/-- A quoted scalar: its text and what follows it. -/
def quoted? : List Char → Option (String × List Char)
  | '"' :: cs => (doubleBody false cs []).map fun (acc, rest) => (String.ofList acc.reverse, rest)
  | '\'' :: cs => (singleBody false cs []).map fun (acc, rest) => (String.ofList acc.reverse, rest)
  | _ => none

/-- The flow indicators, which end a plain scalar inside brackets. -/
def isIndicator (c : Char) : Bool := c == ',' || c == '[' || c == ']' || c == '{' || c == '}'

/-- Whether a colon at the head of a text marks a key: it is followed by a blank, an
indicator or the end. -/
def isValueMark : List Char → Bool
  | ':' :: c :: _ => isBlank c || isIndicator c
  | [':'] => true
  | _ => false

/-- The characters that cannot start a plain scalar. -/
def cannotStartPlain (c : Char) : Bool :=
  isIndicator c || c == '#' || c == '&' || c == '*' || c == '!' || c == '|' || c == '>' ||
    c == '\'' || c == '"' || c == '%' || c == '@' || c == '`'

/-- The characters of a plain scalar inside brackets, reversed, and what follows it. -/
def plainBody : List Char → List Char → List Char × List Char
  | [], acc => (acc, [])
  | c :: cs, acc =>
    if isIndicator c then (acc, c :: cs)
    else if isValueMark (c :: cs) then (acc, c :: cs)
    else if isBlank c && (match cs with | '#' :: _ => true | _ => false) then (acc, c :: cs)
    else plainBody cs (c :: acc)

/-- A plain scalar inside brackets. -/
def plain? (cs : List Char) : Option (String × List Char) :=
  match cs with
  | c :: rest =>
    if cannotStartPlain c then none
    else if (c == '-' || c == '?' || c == ':') &&
        (match rest with | d :: _ => isBlank d || isIndicator d | [] => true) then none
    else
      let (acc, after) := plainBody cs []
      some (String.ofList (foldBreaks false (trimEnd acc.reverse)), after)
  | [] => none

/-- A scalar inside brackets: quoted or plain. -/
def scalar? (cs : List Char) : Option (Yaml × List Char) :=
  match quoted? cs with
  | some (s, rest) => some (.scalar s false, rest)
  | none => (plain? cs).map fun (s, rest) => (.scalar s true, rest)

/-- The text of a key. -/
def keyText? : Yaml → Option String
  | .scalar s _ => some s
  | _ => none

mutual
/-- A node inside brackets: a flow collection or a scalar. -/
def node? : Nat → List Char → Option (Yaml × List Char)
  | 0, _ => none
  | fuel + 1, cs =>
    match skip cs with
    | '[' :: rest => items? fuel (skip rest) []
    | '{' :: rest => entries? fuel (skip rest) []
    | cs => scalar? cs

/-- The items of a flow sequence after its opening bracket, given those read so far
(reversed). An item `k: v` is a mapping of one entry. -/
def items? : Nat → List Char → List Yaml → Option (Yaml × List Char)
  | 0, _, _ => none
  | fuel + 1, cs, acc =>
    match skip cs with
    | ']' :: rest => some (.seq acc.reverse, rest)
    | cs => do
      let (item, rest) ← node? fuel cs
      let (item, rest) ← match skip rest with
        | ':' :: after =>
          if isValueMark (':' :: after) then do
            let key ← keyText? item
            match skip after with
            | c :: more =>
              if c == ',' || c == ']' then pure (Yaml.map [(key, Yaml.empty)], c :: more)
              else do
                let (v, rest') ← node? fuel (c :: more)
                pure (Yaml.map [(key, v)], rest')
            | [] => none
          else none
        | _ => pure (item, rest)
      match skip rest with
      | ',' :: more => items? fuel more (item :: acc)
      | ']' :: more => some (.seq (item :: acc).reverse, more)
      | _ => none

/-- The entries of a flow mapping after its opening brace, given those read so far
(reversed). A key without a value has an empty one. -/
def entries? : Nat → List Char → List (String × Yaml) → Option (Yaml × List Char)
  | 0, _, _ => none
  | fuel + 1, cs, acc =>
    match skip cs with
    | '}' :: rest => some (.map acc.reverse, rest)
    | cs => do
      let (k, rest) ← scalar? cs
      let key ← keyText? k
      let (v, rest) ← match skip rest with
        | ':' :: after =>
          match skip after with
          | c :: more =>
            if c == ',' || c == '}' then pure (Yaml.empty, c :: more)
            else node? fuel (c :: more)
          | [] => none
        | rest => pure (Yaml.empty, rest)
      match skip rest with
      | ',' :: more => entries? fuel more ((key, v) :: acc)
      | '}' :: more => some (.map ((key, v) :: acc).reverse, more)
      | _ => none
end

/-- Read a flow collection or scalar at the head of a text, with fuel for its length. -/
def read? (cs : List Char) : Option (Yaml × List Char) := node? (cs.length + 1) cs

end QueryScope.Yaml.Flow
