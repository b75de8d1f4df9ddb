import QueryScope.Interchange.Errors
import QueryScope.Catalog.TypeName
import QueryScope.Catalog.Explain
/-!
# Interchange form of snapshot field types

A field type is a JSON string (a type name), an array (the element type) or an object (the
fields); any other JSON value is no field type. The fields of a document are kept sorted by
name.
-/

namespace QueryScope

/-- Insert a field into fields sorted by name. -/
def FieldSpec.insertSorted (k : String) (s : FieldSpec) :
    List (String × FieldSpec) → List (String × FieldSpec)
  | [] => [(k, s)]
  | (k', s') :: fs =>
    if k < k' then (k, s) :: (k', s') :: fs
    else if k = k' then (k, s) :: fs
    else (k', s') :: insertSorted k s fs

mutual
/-- Read a field type. -/
def FieldSpec.ofJson? : Json → Option FieldSpec
  | .str s => some (.name s)
  | .arr xs => .arrayOf <$> FieldSpec.ofJsonList xs
  | .obj ms => (fun fs => .document (fs.foldl (fun acc (k, s) => FieldSpec.insertSorted k s acc) []))
      <$> FieldSpec.ofJsonMembers ms
  | _ => none

/-- Read a list of field types. -/
def FieldSpec.ofJsonList : List Json → Option (List FieldSpec)
  | [] => some []
  | x :: xs => do
    let s ← FieldSpec.ofJson? x
    let rest ← FieldSpec.ofJsonList xs
    pure (s :: rest)

/-- Read the fields of a document. -/
def FieldSpec.ofJsonMembers : List (String × Json) → Option (List (String × FieldSpec))
  | [] => some []
  | (k, x) :: ms => do
    let s ← FieldSpec.ofJson? x
    let rest ← FieldSpec.ofJsonMembers ms
    pure ((k, s) :: rest)
end

/-- The answer for a type, or for the failure to read it. -/
def typeAnswer : Except CatalogError Bson → Json
  | .ok t => .obj [("type", t.toJson), ("display", .str t.display)]
  | .error e => Json.failure e.label e.message

end QueryScope
