import QueryScope.Host.Program
import QueryScope.Lowering.Names
import QueryScope.Bson.Union
/-!
# Stored types of host types

The BSON type a value of a host type is stored as. Arrays and the iterable containers are
arrays of their element type (`any` for a container without an argument). Primitives map to
plain types and the reference types that can hold `null` to optional types: `int` is `int`,
`Integer` is `int?`, `String` is `string?`, the date and time classes are `date?`. An enum
declared in the program is an enum of its constants named after it; anything else is `any`.
-/

namespace QueryScope

/-- The stored type of a scalar host type name, unless it names no known scalar. -/
def scalarOfTypeName? (n : String) : Option Bson :=
  if n == DriverName.objectId then some (Bson.nullable .objectId)
  else match n with
  | "boolean" => some .boolean
  | "java.lang.Boolean" => some (Bson.nullable .boolean)
  | "short" | "int" => some .int32
  | "java.lang.Short" | "java.lang.Integer" => some (Bson.nullable .int32)
  | "long" => some .int64
  | "java.lang.Long" => some (Bson.nullable .int64)
  | "float" | "double" => some .double
  | "java.lang.Float" | "java.lang.Double" => some (Bson.nullable .double)
  | "char" => some .string
  | "java.lang.String" | "java.lang.CharSequence" => some (Bson.nullable .string)
  | "java.util.Date" | "java.time.Instant" | "java.time.LocalDate" | "java.time.LocalDateTime" =>
    some (Bson.nullable .date)
  | "java.math.BigInteger" => some (Bson.nullable .int64)
  | "java.math.BigDecimal" => some (Bson.nullable .decimal128)
  | "java.util.UUID" => some (Bson.nullable .uuid)
  | _ => none

/-- The enum type of an enum the program declares. -/
def Program.enumType? (p : Program) (n : String) : Option Bson := do
  let c ← p.classByName? n
  let k := p.cls c
  if k.kind == .enumeration then some (Bson.enumOf (p.enumConstants c) (some k.simpleName))
  else none

/-- The stored type of a host type. -/
def Program.bsonOf (p : Program) : HostType → Bson
  | .mk n as d =>
    -- each dimension wraps the stored type of the element in an array
    Nat.repeat Bson.array d.toNat <|
      if HostType.iterableNames.contains n then
        match as with
        | a :: _ => .array (p.bsonOf a)
        | [] => .array .any
      else
        match scalarOfTypeName? n with
        | some t => t
        | none => (p.enumType? n).getD .any
termination_by t => sizeOf t
decreasing_by all_goals simp_wf <;> omega

end QueryScope
