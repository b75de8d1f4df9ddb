/-!
# Log filters

A log filter is a comma-separated list of directives; empty directives are skipped. A
directive is a level alone (`trace`, `debug`, `info`, `warn`, `error`, `off` in any case, or a
digit from 0 to 5), or one or two targets and spans followed by an optional `=level`, where a
target is a run of word characters, `:` and `-`, and a span is written in brackets.

Word characters are taken to be ASCII letters, digits and `_`, and every character beyond
ASCII.

This grammar stands in for the filter syntax of the logging library when requests are
answered; validation itself takes the filter check as a parameter, and what is proved about
settings holds for every filter check.
-/

namespace QueryScope

namespace LogFilter

/-- Whether a text names a level. -/
def isLevel (s : List Char) : Bool :=
  let lower := String.ofList (s.map Char.toLower)
  ["trace", "debug", "info", "warn", "error", "off"].contains lower ||
    match s with
    | [c] => '0' ≤ c && c ≤ '5'
    | _ => false

/-- Whether a character may stand in a target. -/
def isTargetChar (c : Char) : Bool :=
  c.isAlphanum || c == '_' || c == ':' || c == '-' || 0x80 ≤ c.toNat

/-- Read one target or span, giving the rest. -/
def item : List Char → Option (List Char)
  | '[' :: cs =>
    match cs.dropWhile (· != ']') with
    | _ :: rest => some rest
    | [] => none
  | cs =>
    let t := cs.takeWhile isTargetChar
    if t.isEmpty then none else some (cs.drop t.length)

/-- Whether what follows the targets and spans is nothing or `=` with an optional level. -/
def levelSuffix : List Char → Bool
  | [] => true
  | '=' :: lv => lv.isEmpty || isLevel lv
  | _ => false

/-- Whether one directive is well formed. -/
def directiveValid (d : List Char) : Bool :=
  isLevel d ||
    match item d with
    | none => false
    | some r => levelSuffix r || (match item r with
      | some r' => levelSuffix r'
      | none => false)

/-- Whether a log filter is well formed. -/
def valid (s : String) : Bool :=
  ((s.splitOn ",").filter (· ≠ "")).all fun d => directiveValid d.toList

end LogFilter

end QueryScope
