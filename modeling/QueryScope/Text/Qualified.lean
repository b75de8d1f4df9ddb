/-!
# Qualified names

A qualified name such as `com.example.Book` is read as dot-separated segments; its simple
name is the last segment, the whole text when it has no dot.
-/

namespace QueryScope

/-- The characters after the last dot. -/
def afterLastDot (cs : List Char) : List Char :=
  (cs.reverse.takeWhile (· ≠ '.')).reverse

/-- The last segment of a qualified name. -/
def simpleName (s : String) : String :=
  String.ofList (afterLastDot s.toList)

end QueryScope
