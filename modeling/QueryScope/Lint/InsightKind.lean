import QueryScope.Text.Replace
/-!
# Kinds of findings

Each kind of finding has a stable code, a message template whose `{i}` stands for the
`i`-th argument, a category and the action an editor offers first. The message fills the
template argument by argument, each replacing every occurrence of its placeholder in the text
so far; a placeholder without an argument stays.
-/

namespace QueryScope

/-- What a finding says about a query. -/
inductive InsightKind where
  /-- A field that the collection does not have; arguments: field, namespace. -/
  | fieldDoesNotExist
  /-- A value whose type does not fit the field; arguments: field, value type, field type. -/
  | fieldValueTypeMismatch
  /-- A field included in a projection that also excludes; argument: the field. -/
  | invalidProjection
  /-- No namespace could be inferred; argument: `database` or `collection`. -/
  | noNamespaceInferred
  /-- The database does not exist; argument: the database. -/
  | databaseDoesNotExist
  /-- The collection does not exist; arguments: collection, database. -/
  | collectionDoesNotExist
  | queryNotCoveredByIndex
  | queryNotUsingEffectiveIndex
  | queryNotUsingFilters
  /-- An inspection could not run; arguments: inspection, reason. -/
  | cannotCheck
deriving DecidableEq, Repr

/-- The group an inspection finding belongs to. -/
inductive InsightCategory where
  | performance
  | correctness
  | environmentMismatch
deriving DecidableEq

/-- The action an editor offers first for a finding. -/
inductive InsightAction where
  | runQuery
  | chooseConnection
  | createIndex
  | none
deriving DecidableEq

namespace InsightKind

/-- Every kind, in declaration order. -/
def known : List InsightKind :=
  [.fieldDoesNotExist, .fieldValueTypeMismatch, .invalidProjection, .noNamespaceInferred,
    .databaseDoesNotExist, .collectionDoesNotExist, .queryNotCoveredByIndex,
    .queryNotUsingEffectiveIndex, .queryNotUsingFilters, .cannotCheck]

/-- The stable code of a kind. -/
def code : InsightKind → String
  | .fieldDoesNotExist => "CORRECTNESS-001"
  | .fieldValueTypeMismatch => "CORRECTNESS-002"
  | .invalidProjection => "CORRECTNESS-003"
  | .noNamespaceInferred => "ENVIRONMENT-001"
  | .databaseDoesNotExist => "ENVIRONMENT-002"
  | .collectionDoesNotExist => "ENVIRONMENT-003"
  | .cannotCheck => "ENVIRONMENT-004"
  | .queryNotCoveredByIndex => "PERFORMANCE-001"
  | .queryNotUsingEffectiveIndex => "PERFORMANCE-002"
  | .queryNotUsingFilters => "PERFORMANCE-003"

/-- The name of a kind in the interchange form. -/
def id : InsightKind → String
  | .fieldDoesNotExist => "fieldDoesNotExist"
  | .fieldValueTypeMismatch => "fieldValueTypeMismatch"
  | .invalidProjection => "invalidProjection"
  | .noNamespaceInferred => "noNamespaceInferred"
  | .databaseDoesNotExist => "databaseDoesNotExist"
  | .collectionDoesNotExist => "collectionDoesNotExist"
  | .queryNotCoveredByIndex => "queryNotCoveredByIndex"
  | .queryNotUsingEffectiveIndex => "queryNotUsingEffectiveIndex"
  | .queryNotUsingFilters => "queryNotUsingFilters"
  | .cannotCheck => "cannotCheck"

/-- The name of a kind as it is written in assertion messages. -/
def label : InsightKind → String
  | .fieldDoesNotExist => "FieldDoesNotExist"
  | .fieldValueTypeMismatch => "FieldValueTypeMismatch"
  | .invalidProjection => "InvalidProjection"
  | .noNamespaceInferred => "NoNamespaceInferred"
  | .databaseDoesNotExist => "DatabaseDoesNotExist"
  | .collectionDoesNotExist => "CollectionDoesNotExist"
  | .queryNotCoveredByIndex => "QueryNotCoveredByIndex"
  | .queryNotUsingEffectiveIndex => "QueryNotUsingEffectiveIndex"
  | .queryNotUsingFilters => "QueryNotUsingFilters"
  | .cannotCheck => "CannotCheck"

/-- The kind of an interchange name. -/
def ofId? (s : String) : Option InsightKind := known.find? (·.id == s)

/-- The message template of a kind. -/
def template : InsightKind → String
  | .fieldDoesNotExist => "Field \"{0}\" does not exist in collection \"{1}\""
  | .fieldValueTypeMismatch =>
    "A value of type \"{1}\" cannot be assigned to field \"{0}\" of type \"{2}\""
  | .invalidProjection =>
    "Field \"{0}\" cannot be included in a projection that excludes other fields"
  | .noNamespaceInferred => "Cannot infer the {0} this query targets"
  | .databaseDoesNotExist => "Database \"{0}\" does not exist"
  | .collectionDoesNotExist => "Collection \"{0}\" does not exist in database \"{1}\""
  | .queryNotCoveredByIndex => "This query is not covered by any index"
  | .queryNotUsingEffectiveIndex => "This query uses an index but still filters or sorts in memory"
  | .queryNotUsingFilters => "This query does not filter and reads the whole collection"
  | .cannotCheck => "Cannot run {0}: {1}"

/-- The placeholder of the `i`-th argument. -/
def placeholder (i : Nat) : String := "\x7b" ++ toString i ++ "\x7d"

/-- Fill a text's placeholders from argument `i` on. -/
def fill (text : String) (i : Nat) : List String → String
  | [] => text
  | a :: as => fill (Text.replaceAll text (placeholder i) a) (i + 1) as

/-- The message of a finding of this kind with these arguments. -/
def message (k : InsightKind) (args : List String) : String := fill k.template 0 args

/-- The category of a kind. -/
def category : InsightKind → InsightCategory
  | .fieldDoesNotExist | .fieldValueTypeMismatch | .invalidProjection => .correctness
  | .noNamespaceInferred | .databaseDoesNotExist | .collectionDoesNotExist | .cannotCheck =>
    .environmentMismatch
  | .queryNotCoveredByIndex | .queryNotUsingEffectiveIndex | .queryNotUsingFilters => .performance

/-- The first action for a kind. -/
def action : InsightKind → InsightAction
  | .fieldDoesNotExist | .fieldValueTypeMismatch => .runQuery
  | .noNamespaceInferred | .databaseDoesNotExist | .collectionDoesNotExist | .cannotCheck =>
    .chooseConnection
  | .queryNotCoveredByIndex | .queryNotUsingEffectiveIndex => .createIndex
  | .invalidProjection | .queryNotUsingFilters => .none

end InsightKind

/-- The interchange name of a category. -/
def InsightCategory.id : InsightCategory → String
  | .performance => "performance"
  | .correctness => "correctness"
  | .environmentMismatch => "environmentMismatch"

/-- The interchange name of an action. -/
def InsightAction.id : InsightAction → String
  | .runQuery => "runQuery"
  | .chooseConnection => "chooseConnection"
  | .createIndex => "createIndex"
  | .none => "none"

end QueryScope
