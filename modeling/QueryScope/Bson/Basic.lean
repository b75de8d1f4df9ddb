import QueryScope.Bson.Constant
import QueryScope.Query.Operator
import QueryScope.Query.Command
import QueryScope.Query.Dialect
import QueryScope.Query.Namespace
/-!
# BSON types and query trees

The type of a BSON value and the query tree are defined together: a *computed* type carries
the expression it was computed from, which is a query tree, and a query tree carries the
types of its values and the schemas of its collections.

* `Bson` is the type of a BSON value: the scalar types, arrays, documents with their field
  types (kept sorted by field name), string enums with their members (sorted, without
  repeats), unions, computed types and `any`.
* `Node` is a query or a part of one: the place it comes from (`Origin`) and its components,
  at most one of each `ComponentKind`.
* A `Component` is a reference to a collection, a field or a value, a list of child nodes
  (`Branch`), a limit, an operator, a command, a dialect, a target cluster version or an
  explain level.

Equality (`Bson.beq` and the functions beside it) is structural, with doubles compared as
numbers.
-/

namespace QueryScope

/-- Where a part of a query tree comes from: an expression of the host program by its id, or
nowhere once sources have been erased. -/
inductive Origin where
  | expr (id : Nat)
  | erased
deriving DecidableEq, Repr, Inhabited

/-- The lists of child nodes a node may carry. -/
inductive Branch where
  | filter
  | projections
  | sorts
  | aggregation
  | accumulatedFields
  | addedFields
  | updates
deriving DecidableEq, Repr, Inhabited

/-- How a field reference was found: named by the query against the schema, introduced by
the query itself, or implied by an operator. -/
inductive FieldKind where
  | fromSchema
  | computed
  | inferred
deriving DecidableEq, Repr, Inhabited

/-- A reference to a field of the documents. -/
inductive FieldRef where
  /-- The field at a dotted path, with the name shown to the user. -/
  | named (kind : FieldKind) (source : Origin) (path : String) (display : String)
  | unknown
deriving DecidableEq, Repr, Inhabited

mutual
/-- The type of a BSON value. -/
inductive Bson where
  | null
  | boolean
  | int32
  | int64
  | double
  | decimal128
  | string
  | objectId
  | uuid
  | date
  | array (element : Bson)
  /-- A document with the types of its fields, sorted by field name. -/
  | object (fields : List (String × Bson))
  /-- A string with a closed set of members (sorted, without repeats), maybe named. -/
  | enumeration (members : List String) (name : Option String)
  /-- A union; `Bson.union` keeps its members canonical. -/
  | anyOf (members : List Bson)
  /-- A type computed from an expression, which behaves as its base type. -/
  | computed (base : Bson) (expression : Node)
  | any

/-- A query or a part of one. -/
inductive Node where
  | mk (source : Origin) (components : List Component)

/-- One facet of a node. -/
inductive Component where
  | collection (reference : CollectionRef)
  | field (reference : FieldRef)
  | value (reference : ValueRef)
  | branch (kind : Branch) (children : List Node)
  | limit (n : Int)
  | named (op : Operator)
  | command (c : Command)
  | dialect (d : Dialect)
  | targetCluster (version : String)
  | explain (level : ExplainLevel)

/-- A reference to a value compared with or assigned to a field. -/
inductive ValueRef where
  /-- A value known from the host program. -/
  | constant (source : Origin) (value : Constant) (type : Bson)
  /-- A value only known when the host program runs. -/
  | runtime (source : Origin) (type : Bson)
  /-- A value computed by the query itself. -/
  | computed (source : Origin) (type : Bson)
  /-- A value implied by an operator. -/
  | inferred (source : Origin) (value : Constant) (type : Bson)
  | unknown

/-- The collection a query runs on. -/
inductive CollectionRef where
  | known (databaseSource : Option Origin) (collectionSource : Origin) (ns : Namespace)
      (schema : Option Schema)
  | onlyCollection (source : Origin) (collection : String)
  | unknown

/-- The type of the documents of a collection. -/
inductive Schema where
  | mk (ns : Namespace) (type : Bson)
end

instance : Inhabited Bson := ⟨.any⟩
instance : Inhabited Node := ⟨.mk .erased []⟩

/-- The kinds of components, in the order a node's components are compared by kind. -/
inductive ComponentKind where
  | collectionReference
  | fieldReference
  | valueReference
  | filter
  | projections
  | sorts
  | aggregation
  | accumulatedFields
  | addedFields
  | updates
  | limit
  | named
  | command
  | sourceDialect
  | targetCluster
  | explain
deriving DecidableEq, Repr, Inhabited

namespace ComponentKind

/-- Every kind, in declaration order. -/
def known : List ComponentKind :=
  [.collectionReference, .fieldReference, .valueReference, .filter, .projections, .sorts,
    .aggregation, .accumulatedFields, .addedFields, .updates, .limit, .named, .command,
    .sourceDialect, .targetCluster, .explain]

/-- The name of the kind as a constructor. -/
def label : ComponentKind → String
  | .collectionReference => "CollectionReference"
  | .fieldReference => "FieldReference"
  | .valueReference => "ValueReference"
  | .filter => "Filter"
  | .projections => "Projections"
  | .sorts => "Sorts"
  | .aggregation => "Aggregation"
  | .accumulatedFields => "AccumulatedFields"
  | .addedFields => "AddedFields"
  | .updates => "Updates"
  | .limit => "Limit"
  | .named => "Named"
  | .command => "Command"
  | .sourceDialect => "SourceDialect"
  | .targetCluster => "TargetCluster"
  | .explain => "Explain"

end ComponentKind

/-- The component kind of a list of children. -/
def Branch.kind : Branch → ComponentKind
  | .filter => .filter
  | .projections => .projections
  | .sorts => .sorts
  | .aggregation => .aggregation
  | .accumulatedFields => .accumulatedFields
  | .addedFields => .addedFields
  | .updates => .updates

/-- Every branch, in declaration order. -/
def Branch.known : List Branch :=
  [.filter, .projections, .sorts, .aggregation, .accumulatedFields, .addedFields, .updates]

/-- The kind of a component. -/
def Component.kind : Component → ComponentKind
  | .collection _ => .collectionReference
  | .field _ => .fieldReference
  | .value _ => .valueReference
  | .branch b _ => b.kind
  | .limit _ => .limit
  | .named _ => .named
  | .command _ => .command
  | .dialect _ => .sourceDialect
  | .targetCluster _ => .targetCluster
  | .explain _ => .explain

/-- The child nodes of a component; only branches have any. -/
def Component.children : Component → List Node
  | .branch _ ns => ns
  | _ => []

namespace Node

/-- Where the node comes from. -/
def source : Node → Origin
  | .mk s _ => s

/-- The components of the node, in order. -/
def components : Node → List Component
  | .mk _ cs => cs

end Node

/-- The namespace of a schema. -/
def Schema.ns : Schema → Namespace
  | .mk ns _ => ns

/-- The type of the documents. -/
def Schema.type : Schema → Bson
  | .mk _ t => t

/-! ### Equality -/

mutual
/-- Structural equality of types, doubles compared as numbers. -/
def Bson.beq : Bson → Bson → Bool
  | .null, .null | .boolean, .boolean | .int32, .int32 | .int64, .int64 => true
  | .double, .double | .decimal128, .decimal128 | .string, .string => true
  | .objectId, .objectId | .uuid, .uuid | .date, .date | .any, .any => true
  | .array a, .array b => Bson.beq a b
  | .object fs, .object gs => Bson.beqFields fs gs
  | .enumeration ms n, .enumeration ms' n' => ms == ms' && n == n'
  | .anyOf ms, .anyOf ms' => Bson.beqList ms ms'
  | .computed b e, .computed b' e' => Bson.beq b b' && Node.beq e e'
  | _, _ => false

/-- Pointwise equality of type lists. -/
def Bson.beqList : List Bson → List Bson → Bool
  | [], [] => true
  | a :: as, b :: bs => Bson.beq a b && Bson.beqList as bs
  | _, _ => false

/-- Pointwise equality of field lists. -/
def Bson.beqFields : List (String × Bson) → List (String × Bson) → Bool
  | [], [] => true
  | (k, a) :: as, (k', b) :: bs => k == k' && Bson.beq a b && Bson.beqFields as bs
  | _, _ => false

/-- Structural equality of nodes. -/
def Node.beq : Node → Node → Bool
  | .mk s cs, .mk s' cs' => s == s' && Node.beqComponents cs cs'

/-- Pointwise equality of node lists. -/
def Node.beqList : List Node → List Node → Bool
  | [], [] => true
  | a :: as, b :: bs => Node.beq a b && Node.beqList as bs
  | _, _ => false

/-- Pointwise equality of component lists. -/
def Node.beqComponents : List Component → List Component → Bool
  | [], [] => true
  | a :: as, b :: bs => Component.beq a b && Node.beqComponents as bs
  | _, _ => false

/-- Structural equality of components. -/
def Component.beq : Component → Component → Bool
  | .collection r, .collection r' => CollectionRef.beq r r'
  | .field r, .field r' => r == r'
  | .value r, .value r' => ValueRef.beq r r'
  | .branch b ns, .branch b' ns' => b == b' && Node.beqList ns ns'
  | .limit n, .limit n' => n == n'
  | .named o, .named o' => o == o'
  | .command c, .command c' => c == c'
  | .dialect d, .dialect d' => d == d'
  | .targetCluster v, .targetCluster v' => v == v'
  | .explain l, .explain l' => l == l'
  | _, _ => false

/-- Structural equality of value references. -/
def ValueRef.beq : ValueRef → ValueRef → Bool
  | .constant s v t, .constant s' v' t' => s == s' && v == v' && Bson.beq t t'
  | .runtime s t, .runtime s' t' => s == s' && Bson.beq t t'
  | .computed s t, .computed s' t' => s == s' && Bson.beq t t'
  | .inferred s v t, .inferred s' v' t' => s == s' && v == v' && Bson.beq t t'
  | .unknown, .unknown => true
  | _, _ => false

/-- Structural equality of collection references. -/
def CollectionRef.beq : CollectionRef → CollectionRef → Bool
  | .known d c ns sc, .known d' c' ns' sc' =>
    d == d' && c == c' && ns == ns' && Schema.beqOption sc sc'
  | .onlyCollection s c, .onlyCollection s' c' => s == s' && c == c'
  | .unknown, .unknown => true
  | _, _ => false

/-- Equality of optional schemas. -/
def Schema.beqOption : Option Schema → Option Schema → Bool
  | none, none => true
  | some a, some b => Schema.beq a b
  | _, _ => false

/-- Structural equality of schemas. -/
def Schema.beq : Schema → Schema → Bool
  | .mk ns t, .mk ns' t' => ns == ns' && Bson.beq t t'
end

instance : BEq Bson := ⟨Bson.beq⟩
instance : BEq Node := ⟨Node.beq⟩
instance : BEq Component := ⟨Component.beq⟩
instance : BEq ValueRef := ⟨ValueRef.beq⟩
instance : BEq CollectionRef := ⟨CollectionRef.beq⟩
instance : BEq Schema := ⟨Schema.beq⟩

end QueryScope
