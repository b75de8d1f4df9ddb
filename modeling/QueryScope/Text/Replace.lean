/-!
# Replacing a pattern in a text

`replaceAll s p r` replaces the occurrences of `p` in `s` by `r`, scanning from the left and
never inside a replacement: after a match the scan goes on after it. An empty pattern
changes nothing.
-/

namespace QueryScope

namespace Text

/-- Replace every occurrence of a non-empty pattern, left to right. -/
def replaceChars (p r : List Char) : List Char → List Char
  | [] => []
  | c :: cs =>
    if h : p ≠ [] ∧ p.isPrefixOf (c :: cs) then
      r ++ replaceChars p r ((c :: cs).drop p.length)
    else c :: replaceChars p r cs
termination_by cs => cs.length
decreasing_by
  all_goals simp_wf
  · have : 0 < p.length := List.length_pos_iff.mpr h.1
    omega

/-- Replace every occurrence of `p` in `s` by `r`, left to right. -/
def replaceAll (s p r : String) : String :=
  String.ofList (replaceChars p.toList r.toList s.toList)

end Text

end QueryScope
