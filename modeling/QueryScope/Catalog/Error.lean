import QueryScope.Query.Namespace
import QueryScope.Severity
/-!
# Failures of reading cluster metadata

A metadata read can fail without aborting the analysis: the query is then left
undecorated, or an inspection reports that it cannot check. A failure is recoverable when a
later attempt, or another connection, may succeed.
-/

namespace QueryScope

/-- Why a metadata read failed. -/
inductive CatalogError where
  /-- No data source is attached to the file. -/
  | noConnection
  /-- The cluster could not be reached. -/
  | connectionFailed (detail : String)
  /-- A metadata command failed on the server. -/
  | commandFailed (detail : String)
  /-- A metadata command timed out after some seconds. -/
  | timeout (seconds : Nat)
  /-- The database does not exist. -/
  | databaseNotFound (database : String)
  /-- The collection does not exist. -/
  | collectionNotFound (ns : Namespace)
  /-- The query names no namespace to read. -/
  | unresolvedNamespace
  /-- A metadata snapshot could not be read. -/
  | serialization (detail : String)
  /-- The user may not run the command. -/
  | permissionDenied (detail : String)
  /-- The source does not provide this metadata. -/
  | notSupported (detail : String)
deriving DecidableEq

namespace CatalogError

/-- The name of the kind of failure. -/
def label : CatalogError → String
  | .noConnection => "NoConnection"
  | .connectionFailed _ => "ConnectionFailed"
  | .commandFailed _ => "CommandFailed"
  | .timeout _ => "Timeout"
  | .databaseNotFound _ => "DatabaseNotFound"
  | .collectionNotFound _ => "CollectionNotFound"
  | .unresolvedNamespace => "UnresolvedNamespace"
  | .serialization _ => "SerializationError"
  | .permissionDenied _ => "PermissionDenied"
  | .notSupported _ => "NotSupported"

/-- The message of a failure. -/
def message : CatalogError → String
  | .noConnection => "No connection is available"
  | .connectionFailed d => "Failed to connect to cluster: " ++ d
  | .commandFailed d => "Command failed: " ++ d
  | .timeout n => "Command timed out after " ++ toString n ++ "s"
  | .databaseNotFound d => "Database '" ++ d ++ "' not found"
  | .collectionNotFound ns => "Collection '" ++ ns.text ++ "' not found"
  | .unresolvedNamespace => "Query has no resolvable namespace"
  | .serialization d => "Failed to parse metadata snapshot: " ++ d
  | .permissionDenied d => "Permission denied: " ++ d
  | .notSupported d => "Not supported: " ++ d

/-- Whether a later attempt may succeed. -/
def recoverable : CatalogError → Bool
  | .noConnection | .connectionFailed _ | .timeout _ | .commandFailed _ => true
  | _ => false

/-- How serious the failure is. -/
def severity : CatalogError → Severity
  | .noConnection | .notSupported _ | .unresolvedNamespace => .info
  | .databaseNotFound _ | .collectionNotFound _ | .permissionDenied _ | .timeout _ => .warning
  | .connectionFailed _ | .commandFailed _ | .serialization _ => .error

end CatalogError

end QueryScope
