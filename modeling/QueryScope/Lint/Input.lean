import QueryScope.Lint.Error
import QueryScope.Catalog.Explain
import QueryScope.Query.Schema
/-!
# What a lint pass knows about the database

Each piece of metadata a lint pass may use is available, unavailable because its read failed,
or not applicable to the query. An inspection that requires a piece proceeds with it when it is
available, skips when it is not applicable, and reports that it cannot check when its read
failed.
-/

namespace QueryScope

/-- A piece of metadata: read, failed to read, or not asked for. -/
inductive Metadata (α : Type) where
  | available (value : α)
  | unavailable (e : CatalogError)
  | notApplicable

namespace Metadata

/-- The value when available, none when not applicable, the failure when the read failed. -/
def require {α : Type} : Metadata α → Except LintError (Option α)
  | .available v => .ok (some v)
  | .unavailable e => .error (.metadata e)
  | .notApplicable => .ok none

/-- Whether the value was read. -/
def isAvailable {α : Type} : Metadata α → Bool
  | .available _ => true
  | _ => false

/-- The metadata of a read's result. -/
def ofExcept {α : Type} : Except CatalogError α → Metadata α
  | .ok v => .available v
  | .error e => .unavailable e

end Metadata

/-- The metadata a lint pass runs on. -/
structure LintInput where
  schema : Metadata Schema := .notApplicable
  databases : Metadata (List String) := .notApplicable
  collections : Metadata (List String) := .notApplicable
  explain : Metadata ExplainPlan := .notApplicable

end QueryScope
