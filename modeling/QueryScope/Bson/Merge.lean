import QueryScope.Bson.Assignable
import QueryScope.Text.Qualified
/-!
# Merging observed types

Two types observed for one field merge into one that accepts both: documents merge field by
field (a field only one side has keeps its type), arrays merge their elements, equal types
stay as they are, and any other pair becomes their union.

The type of a constant value is here too: the scalar type of its constructor, a one-member
enum named after the class for an enum constant, and for an array the union of its items'
types (`any` for an empty one).
-/

namespace QueryScope

namespace Bson

/-- Merge two types observed for the same field. -/
def merge (a b : Bson) : Bson :=
  match a, b with
  | .object xs, .object ys =>
    .object (ys.attach.foldl (fun acc ⟨(k, t), _⟩ =>
      match xs.attach.find? (fun e => e.1.1 == k) with
      | some ⟨(_, e), _⟩ => insertField k (merge e t) acc
      | none => insertField k t acc) xs)
  | .array x, .array y => .array (merge x y)
  | a, b => if a == b then a else union [a, b]
termination_by sizeOf a + sizeOf b
decreasing_by
  all_goals simp_wf
  all_goals first
    | omega
    | (rename_i h₁ _ h₂
       have := sizeOf_field_lt h₁
       have := sizeOf_field_lt h₂
       omega)

end Bson

mutual
/-- The type of a constant value. -/
def Constant.bson : Constant → Bson
  | .null => .null
  | .boolean _ => .boolean
  | .int32 _ => .int32
  | .int64 _ => .int64
  | .double _ => .double
  | .decimal _ => .decimal128
  | .string _ => .string
  | .date _ => .date
  | .objectId _ => .objectId
  | .enumConstant cls k => Bson.enumOf [k] (some (simpleName cls))
  | .array [] => .array .any
  | .array (x :: xs) => .array (Bson.union (Constant.bsonList (x :: xs)))

/-- The types of a list of constant values. -/
def Constant.bsonList : List Constant → List Bson
  | [] => []
  | x :: xs => Constant.bson x :: Constant.bsonList xs
end

end QueryScope
