import QueryScope.Yaml.Flow
/-!
# YAML block structure

A YAML document is read line by line. A line is indented by spaces; a line that is empty or
holds only a comment separates nothing and is skipped, except inside a block scalar.

* Lines `- item` at one indentation form a sequence; an item may start on the line of its
  dash (a nested mapping then continues at the column after the dash) or on the lines below.
* Lines `key: value` at one indentation form a mapping; a value may follow the colon, or
  stand on the lines below, indented further, or be a sequence at the key's own indentation.
* A value on its line is a flow collection (which may run over the lines after it), a quoted
  scalar, a block scalar introduced by `|` or `>`, or a plain scalar, which continues on the
  lines after it that are indented further.

A line indented where no node can continue, a second document, an anchor, an alias or a tag
make the text no document of this reader.
-/

namespace QueryScope.Yaml.Block

open QueryScope.Yaml.Flow

/-- A line of a document: its indentation and its text after it. -/
structure Line where
  indent : Nat
  text : List Char

namespace Line

/-- Whether a line holds nothing but blanks and a comment. -/
def isBlank (l : Line) : Bool :=
  match skipSpaces l.text with
  | [] | '#' :: _ => true
  | _ => false

/-- Whether a line starts a sequence item. -/
def isItem (l : Line) : Bool :=
  match l.text with
  | ['-'] => true
  | '-' :: c :: _ => c == ' ' || c == '\t'
  | _ => false

/-- Whether a line starts a document. -/
def isDocumentStart (l : Line) : Bool :=
  l.indent == 0 &&
    match l.text with
    | ['-', '-', '-'] => true
    | '-' :: '-' :: '-' :: c :: _ => c == ' ' || c == '\t'
    | _ => false

end Line

/-- Split a text into lines, without the carriage return that may end each. -/
def lines (s : String) : List Line :=
  (s.splitOn "\n").map fun raw =>
    let cs := raw.toList
    let cs := if cs.getLast? == some '\r' then cs.dropLast else cs
    let body := cs.dropWhile (· == ' ')
    ⟨cs.length - body.length, body⟩

/-- Drop the lines that hold nothing. -/
def skipBlank (ls : List Line) : List Line := ls.dropWhile Line.isBlank

/-- The text of a plain scalar on its line: up to a comment, without blanks at its end; none
when a colon and a blank inside it would make it a key. -/
def plainText? (cs : List Char) : Option (List Char) :=
  let rec go : List Char → List Char → Option (List Char)
    | [], acc => some acc.reverse
    | c :: rest, acc =>
      if (c == ' ' || c == '\t') && (match rest with | '#' :: _ => true | _ => false) then
        some acc.reverse
      else if c == ':' && (match rest with | [] => true | d :: _ => d == ' ' || d == '\t') then none
      else go rest (c :: acc)
  (go cs []).map trimEnd

/-- Whether a plain scalar may start with this text in a block. -/
def startsPlain : List Char → Bool
  | c :: rest =>
    if c == ' ' || c == '\t' || cannotStartPlain c then false
    else if c == '-' || c == '?' || c == ':' then
      match rest with
      | d :: _ => !(d == ' ' || d == '\t')
      | [] => false
    else true
  | [] => false

/-- The key of a mapping line and the text after its colon. -/
def entry? (l : Line) : Option (String × List Char) :=
  match l.text with
  | c :: _ =>
    if c == '"' || c == '\'' then do
      let (k, rest) ← quoted? l.text
      match skipSpaces rest with
      | ':' :: after =>
        match after with
        | [] => some (k, [])
        | d :: _ => if d == ' ' || d == '\t' then some (k, after) else none
      | _ => none
    else if !startsPlain l.text then none
    else
      let rec go : List Char → List Char → Option (List Char × List Char)
        | [], _ => none
        | d :: rest, acc =>
          if (d == ' ' || d == '\t') && (match rest with | '#' :: _ => true | _ => false) then none
          else if d == ':' && (match rest with | [] => true | e :: _ => e == ' ' || e == '\t') then
            some (acc.reverse, rest)
          else go rest (d :: acc)
      (go l.text []).map fun (k, rest) => (String.ofList (trimEnd k), rest)
  | [] => none

/-- The text of the lines after a flow collection's first, joined by line breaks. -/
def joined (ls : List Line) : List Char :=
  ls.foldr (fun l acc => '\n' :: l.text ++ acc) []

/-- A flow collection or quoted scalar that starts a value and may run over the lines after
it: the node and the lines after the one where it ends, which must end blank. -/
def spanning? (cs : List Char) (rest : List Line) : Option (Yaml × List Line) := do
  let (node, after) ← Flow.read? (cs ++ joined rest)
  if !restOfLineEmpty after then none
  else
    let breaks := (after.filter (· == '\n')).length
    pure (node, rest.drop (rest.length - breaks))

/-- A quoted scalar that starts a value. -/
def quotedSpanning? (cs : List Char) (rest : List Line) : Option (Yaml × List Line) := do
  let (s, after) ← quoted? (cs ++ joined rest)
  if !restOfLineEmpty after then none
  else
    let breaks := (after.filter (· == '\n')).length
    pure (.scalar s false, rest.drop (rest.length - breaks))

/-- The lines of a block scalar: those indented at least `indent`, or empty. -/
def blockLines (indent : Nat) : List Line → List (List Char) × List Line
  | [] => ([], [])
  | l :: ls =>
    if l.text.isEmpty || l.indent ≥ indent then
      let (body, rest) := blockLines indent ls
      ((List.replicate (l.indent - indent) ' ' ++ l.text) :: body, rest)
    else ([], l :: ls)

/-- Join the lines of a folded block scalar: a line break between two lines of text becomes
a space, an empty line a break, and lines indented further keep their breaks. -/
def fold : List (List Char) → List Char
  | [] => []
  | [l] => l
  | l :: m :: ls =>
    let keep := l.isEmpty || m.isEmpty || l.head? == some ' ' || m.head? == some ' '
    l ++ (if keep then ['\n'] else [' ']) ++ fold (m :: ls)

/-- A block scalar after its indicator `|` (literal) or `>` (folded), for a node indented more
than `parent`. The header may give the chomping (`-` strips the final breaks, `+` keeps
them all, otherwise one is kept) and the indentation of the content. -/
def blockScalar? (literal : Bool) (header : List Char) (parent : Nat) (rest : List Line) :
    Option (Yaml × List Line) := do
  let (chomp, width) ← match (plainText? header).getD [] with
    | [] => some (' ', 0)
    | [d] => if d == '-' || d == '+' then some (d, 0) else (YamlScalar.digit? 10 d).map fun n => (' ', n)
    | [c, d] =>
      if c == '-' || c == '+' then (YamlScalar.digit? 10 d).map fun n => (c, n)
      else if d == '-' || d == '+' then (YamlScalar.digit? 10 c).map fun n => (d, n)
      else none
    | _ => none
  let indent := if width == 0 then
      match rest.find? fun l => !l.text.isEmpty with
      | some l => max l.indent (parent + 1)
      | none => parent + 1
    else parent + width
  let (body, after) := blockLines indent rest
  let content := body.reverse.dropWhile List.isEmpty |>.reverse
  let trailing := body.length - content.length
  let text := if literal then String.intercalate "\n" (content.map String.ofList)
    else String.ofList (fold content)
  let text := if content.isEmpty then ""
    else if chomp == '-' then text
    else if chomp == '+' then text ++ String.ofList (List.replicate (trailing + 1) '\n')
    else text ++ "\n"
  pure (.scalar text false, after)

/-- The lines that continue a plain scalar: those indented more than `parent`, up to a blank
one; none when one of them would be a key. -/
def continuation (parent : Nat) : List Line → Option (List (List Char) × List Line)
  | [] => some ([], [])
  | l :: ls =>
    if l.isBlank || l.indent ≤ parent then some ([], l :: ls)
    else do
      let t ← plainText? l.text
      let (more, rest) ← continuation parent ls
      pure (t :: more, rest)

/-- A value that starts on its line, for a node indented more than `parent`. -/
def inline? (parent : Nat) (cs : List Char) (rest : List Line) : Option (Yaml × List Line) :=
  match cs with
  | '[' :: _ | '{' :: _ => spanning? cs rest
  | '"' :: _ | '\'' :: _ => quotedSpanning? cs rest
  | '|' :: header => blockScalar? true header parent rest
  | '>' :: header => blockScalar? false header parent rest
  | _ =>
    if !startsPlain cs then none
    else do
      let first ← plainText? cs
      let (more, after) ← continuation parent rest
      let text := String.intercalate " " ((first :: more).map String.ofList)
      pure (.scalar text true, after)

mutual
/-- A node whose lines are indented at least `min`: a sequence, a mapping or a scalar; the
empty scalar when no line is. -/
def node? : Nat → Nat → List Line → Option (Yaml × List Line)
  | 0, _, _ => none
  | fuel + 1, min, ls =>
    match skipBlank ls with
    | [] => some (Yaml.empty, [])
    | l :: rest =>
      if l.indent < min then some (Yaml.empty, l :: rest)
      else if l.isItem then do
        let (items, after) ← sequence? fuel l.indent (l :: rest) []
        pure (.seq items, after)
      else match entry? l with
        | some _ => do
          let (entries, after) ← mapping? fuel l.indent (l :: rest) []
          pure (.map entries, after)
        | none => inline? (min - 1) l.text rest

/-- The items of a sequence at an indentation, given those read so far (reversed). -/
def sequence? : Nat → Nat → List Line → List Yaml → Option (List Yaml × List Line)
  | 0, _, _, _ => none
  | fuel + 1, indent, ls, acc =>
    match skipBlank ls with
    | l :: rest =>
      if l.indent == indent && l.isItem then do
        let after := (l.text.drop 1)
        let body := skipSpaces after
        let column := indent + 1 + (after.length - body.length)
        let (item, rest') ←
          if body.isEmpty || body.head? == some '#' then node? fuel (indent + 1) rest
          else node? fuel column (⟨column, body⟩ :: rest)
        sequence? fuel indent rest' (item :: acc)
      else some (acc.reverse, l :: rest)
    | [] => some (acc.reverse, [])

/-- The entries of a mapping at an indentation, given those read so far (reversed). -/
def mapping? : Nat → Nat → List Line → List (String × Yaml) → Option (List (String × Yaml) × List Line)
  | 0, _, _, _ => none
  | fuel + 1, indent, ls, acc =>
    match skipBlank ls with
    | l :: rest =>
      if l.indent == indent then
        match entry? l with
        | some (key, after) => do
          let body := skipSpaces after
          let (value, rest') ←
            if body.isEmpty || body.head? == some '#' then
              match skipBlank rest with
              | m :: _ =>
                if m.indent > indent then node? fuel (indent + 1) rest
                else if m.indent == indent && m.isItem then do
                  let (items, after) ← sequence? fuel indent rest []
                  pure (Yaml.seq items, after)
                else pure (Yaml.empty, rest)
              | [] => pure (Yaml.empty, rest)
            else
              match entry? ⟨0, body⟩ with
              | some _ => if body.head? == some '"' || body.head? == some '\'' then
                  inline? indent body rest else none
              | none =>
                if (⟨0, body⟩ : Line).isItem then none else inline? indent body rest
          mapping? fuel indent rest' ((key, value) :: acc)
        | none => if l.isItem then some (acc.reverse, l :: rest) else none
      else if l.indent < indent then some (acc.reverse, l :: rest)
      else none
    | [] => some (acc.reverse, [])
end

/-- Read a document: one node, after an optional `---`, with no line left over. -/
def document? (s : String) : Option Yaml := do
  let ls := skipBlank (lines s)
  let ls ← match ls with
    | l :: rest =>
      if l.isDocumentStart then
        let body := skipSpaces (l.text.drop 3)
        if body.isEmpty || body.head? == some '#' then some rest
        else some (⟨4, body⟩ :: rest)
      else some ls
    | [] => some []
  let (node, rest) ← node? (3 * ls.length + 3) 0 ls
  match skipBlank rest with
  | [] => some node
  | _ => none

end QueryScope.Yaml.Block
