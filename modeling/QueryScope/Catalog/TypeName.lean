import QueryScope.Bson.Union
import QueryScope.Catalog.Error
import QueryScope.Text.Blank
/-!
# Field types written in a snapshot

A snapshot writes a field's type as a name, a one-element list for an array, or a map of
fields for a document.

A type name is a scalar name (`int`, `long`, `string`, `objectId`, ...), a name with `?`
after it for an optional type, a name with `[]` after it for an array, or names joined by
`|` for their union. Blanks around each part are ignored. Anything else is refused with
`unknown type name '<name>'`, and a list that does not hold exactly one type with
`array fields must list exactly one element type`.
-/

namespace QueryScope

namespace TypeName

/-- The scalar type a name stands for. -/
def scalar? : String → Option Bson
  | "null" => some .null
  | "boolean" | "bool" => some .boolean
  | "int" | "int32" => some .int32
  | "long" | "int64" => some .int64
  | "double" => some .double
  | "decimal" | "decimal128" => some .decimal128
  | "string" => some .string
  | "objectId" => some .objectId
  | "uuid" => some .uuid
  | "date" => some .date
  | "any" => some .any
  | "object" => some (.object [])
  | _ => none

/-- The failure for a name that is no type. -/
def unknown (name : String) : CatalogError :=
  .serialization ("unknown type name '" ++ name ++ "'")

/-- The type of a name without `|`, given reversed and without leading blanks: trailing
blanks are skipped, a trailing `?` makes it optional and a trailing `[]` an array. -/
def member : List Char → Except CatalogError Bson
  | '?' :: rest => Bson.nullable <$> member rest
  | ']' :: '[' :: rest => Bson.array <$> member rest
  | c :: rest =>
    if Char.isBlank c then member rest
    else
      let name := String.ofList (c :: rest).reverse
      match scalar? name with
      | some t => .ok t
      | none => .error (unknown name)
  | [] =>
    match scalar? "" with
    | some t => .ok t
    | none => .error (unknown "")

/-- The type of a name without `|`. -/
def piece (s : String) : Except CatalogError Bson :=
  member (String.trimBlank s).toList.reverse

end TypeName

/-- The type a type name stands for. -/
def parseTypeName (name : String) : Except CatalogError Bson :=
  let t := String.trimBlank name
  if t.toList.contains '|' then
    Bson.union <$> (t.splitOn "|").mapM TypeName.piece
  else TypeName.piece t

/-- A field type as a snapshot writes it. -/
inductive FieldSpec where
  /-- A type name. -/
  | name (text : String)
  /-- An array, listing its element type. -/
  | arrayOf (elements : List FieldSpec)
  /-- A document, with its fields sorted by name. -/
  | document (fields : List (String × FieldSpec))

mutual
/-- The type a field spec stands for. -/
def FieldSpec.toBson : FieldSpec → Except CatalogError Bson
  | .name s => parseTypeName s
  | .arrayOf [e] => Bson.array <$> FieldSpec.toBson e
  | .arrayOf _ => .error (.serialization "array fields must list exactly one element type")
  | .document fs => (.object ·) <$> FieldSpec.fieldsToBson fs

/-- The types of a document's fields, failing at the first field that fails. -/
def FieldSpec.fieldsToBson : List (String × FieldSpec) → Except CatalogError (List (String × Bson))
  | [] => .ok []
  | (k, s) :: fs => do
    let t ← FieldSpec.toBson s
    let rest ← FieldSpec.fieldsToBson fs
    pure ((k, t) :: rest)
end

end QueryScope
