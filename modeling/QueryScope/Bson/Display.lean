import QueryScope.Bson.Basic
/-!
# Writing BSON types

The text of a type, as messages show it: the scalar names (`int`, `long`, `decimal`, ...),
`array<t>`, documents as `{field: t, ...}` in field order, a named enum by its name and an
unnamed one by its first three members, a union as its members joined by ` | `, and a
computed type as its base.
-/

namespace QueryScope

mutual
/-- The text of a type. -/
def Bson.display : Bson → String
  | .null => "null"
  | .boolean => "boolean"
  | .int32 => "int"
  | .int64 => "long"
  | .double => "double"
  | .decimal128 => "decimal"
  | .string => "string"
  | .objectId => "objectId"
  | .uuid => "uuid"
  | .date => "date"
  | .array t => "array<" ++ Bson.display t ++ ">"
  | .object fs => "\x7b" ++ ", ".intercalate (Bson.displayFields fs) ++ "\x7d"
  | .enumeration ms name =>
    match name with
    | some n => n
    | none => "enum(" ++ " | ".intercalate (ms.take 3) ++ ")"
  | .anyOf ms => " | ".intercalate (Bson.displayList ms)
  | .computed b _ => Bson.display b
  | .any => "any"

/-- The texts of a list of types. -/
def Bson.displayList : List Bson → List String
  | [] => []
  | t :: ts => Bson.display t :: Bson.displayList ts

/-- The texts `field: t` of a document's fields. -/
def Bson.displayFields : List (String × Bson) → List String
  | [] => []
  | (k, t) :: fs => (k ++ ": " ++ Bson.display t) :: Bson.displayFields fs
end

end QueryScope
