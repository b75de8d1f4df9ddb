import QueryScope.Bson.Union
/-!
# Java spellings of types

How a Java developer declares a variable of a type: primitives for the plain scalar types,
their boxed names (`Integer`, `Long`, `Double`, `Boolean`) where a reference type is needed
(array elements and optional types), `List<…>` for arrays, `Object` for documents, the
name of a named enum (an unnamed one by its first three members, then `| ...` when there are
more), an optional type as its boxed member, and other unions as their members' spellings,
sorted and joined by ` | `.
-/

namespace QueryScope

namespace Bson

/-- The boxed name of a primitive scalar type. -/
def javaBoxedScalar? : Bson → Option String
  | .boolean => some "Boolean"
  | .int32 => some "Integer"
  | .int64 => some "Long"
  | .double => some "Double"
  | _ => none

/-- How a member shows in a union: whether it is `null`, its spelling and its boxed
spelling. -/
structure JavaMember where
  isNull : Bool
  text : String
  boxed : String

/-- The spelling of a union: an optional type as its boxed member, otherwise the sorted
spellings of the members. -/
def javaUnion (ms : List JavaMember) : String :=
  match ms.any (·.isNull), ms.filter (!·.isNull) with
  | true, [m] => m.boxed
  | _, _ => " | ".intercalate ((ms.map (·.text)).mergeSort fun a b => decide (a ≤ b))

mutual
/-- The Java spelling of a type. -/
def javaText : Bson → String
  | .null => "null"
  | .boolean => "boolean"
  | .int32 => "int"
  | .int64 => "long"
  | .double => "double"
  | .decimal128 => "BigDecimal"
  | .string => "String"
  | .objectId => "ObjectId"
  | .uuid => "UUID"
  | .date => "Date"
  | .array t => "List<" ++ ((javaBoxedScalar? t).getD (javaText t)) ++ ">"
  | .object _ => "Object"
  | .enumeration ms name =>
    match name with
    | some n => n
    | none =>
      let shown := " | ".intercalate (ms.take 3)
      if 3 < ms.length then shown ++ " | ..." else shown
  | .anyOf ms => javaUnion (javaMembers ms)
  | .computed b _ => javaText b
  | .any => "any"

/-- How each member of a union shows. -/
def javaMembers : List Bson → List JavaMember
  | [] => []
  | t :: ts =>
    ⟨t == .null, javaText t, (javaBoxedScalar? t).getD (javaText t)⟩ :: javaMembers ts
end

end Bson

end QueryScope
