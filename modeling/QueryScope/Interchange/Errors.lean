import QueryScope.Interchange.Bson
import QueryScope.Lint.Error
import QueryScope.Lowering.Error
/-!
# Interchange form of failures

A failure is written as its kind, alone when it carries nothing, or as an object with one
member named after the kind: the detail text, the seconds of a timeout, the namespace of a
missing collection, or the named fields of a lowering failure. An answer that reports a
failure gives its kind as `error` and its text as `message`.
-/

namespace QueryScope

/-- The form of a metadata read failure. -/
def CatalogError.toJson : CatalogError → Json
  | .noConnection => .str "NoConnection"
  | .unresolvedNamespace => .str "UnresolvedNamespace"
  | .timeout n => .tagged "Timeout" (.ofNat n)
  | .collectionNotFound ns => .tagged "CollectionNotFound" ns.toJson
  | .connectionFailed d => .tagged "ConnectionFailed" (.str d)
  | .commandFailed d => .tagged "CommandFailed" (.str d)
  | .databaseNotFound d => .tagged "DatabaseNotFound" (.str d)
  | .serialization d => .tagged "SerializationError" (.str d)
  | .permissionDenied d => .tagged "PermissionDenied" (.str d)
  | .notSupported d => .tagged "NotSupported" (.str d)

/-- Read a metadata read failure. -/
def CatalogError.ofJson? (j : Json) : Option CatalogError := do
  let (tag, body) ← Json.variant? j
  match tag with
  | "NoConnection" => if body.isNull then pure .noConnection else none
  | "UnresolvedNamespace" => if body.isNull then pure .unresolvedNamespace else none
  | "Timeout" => .timeout <$> Json.uint64? body
  | "CollectionNotFound" => .collectionNotFound <$> Namespace.ofJson? body
  | "ConnectionFailed" => .connectionFailed <$> body.str?
  | "CommandFailed" => .commandFailed <$> body.str?
  | "DatabaseNotFound" => .databaseNotFound <$> body.str?
  | "SerializationError" => .serialization <$> body.str?
  | "PermissionDenied" => .permissionDenied <$> body.str?
  | "NotSupported" => .notSupported <$> body.str?
  | _ => none

/-- The form of a lowering failure. -/
def LoweringError.toJson : LoweringError → Json
  | .notACandidate d e => .tagged "NotACandidate" (.obj [("dialect", .str d.id), ("expr", .str e)])
  | .notTheAnchor e a => .tagged "NotTheAnchor" (.obj [("expr", .str e), ("anchor", .str a)])
  | .unsupportedSyntax d f =>
    .tagged "UnsupportedSyntax" (.obj [("dialect", .str d.id), ("feature", .str f)])
  | .unresolved w e => .tagged "Unresolved" (.obj [("what", .str w), ("expr", .str e)])
  | .recursionLimit c d l => .tagged "RecursionLimitExceeded"
      (.obj [("context", .str c), ("depth", .ofNat d), ("limit", .ofNat l)])
  | .generic m => .tagged "Generic" (.obj [("message", .str m)])

/-- Read a lowering failure. -/
def LoweringError.ofJson? (j : Json) : Option LoweringError := do
  let (tag, body) ← Json.variant? j
  match tag with
  | "NotACandidate" => do
    let d ← Dialect.ofId? (← body.text? "dialect")
    pure (.notACandidate d (← body.text? "expr"))
  | "NotTheAnchor" => pure (.notTheAnchor (← body.text? "expr") (← body.text? "anchor"))
  | "UnsupportedSyntax" => do
    let d ← Dialect.ofId? (← body.text? "dialect")
    pure (.unsupportedSyntax d (← body.text? "feature"))
  | "Unresolved" => pure (.unresolved (← body.text? "what") (← body.text? "expr"))
  | "RecursionLimitExceeded" => do
    let c ← body.text? "context"
    let d ← Json.uint64? (← body.need "depth")
    let l ← Json.uint64? (← body.need "limit")
    pure (.recursionLimit c d l)
  | "Generic" => .generic <$> body.text? "message"
  | _ => none

/-- Read a lint failure. -/
def LintError.ofJson? (j : Json) : Option LintError := do
  let (tag, body) ← Json.variant? j
  match tag with
  | "Metadata" => .metadata <$> CatalogError.ofJson? body
  | "ChannelClosed" => do
    let d ← Json.uint64? (← body.need "delivered")
    let t ← Json.uint64? (← body.need "total")
    pure (.channelClosed d t)
  | "Serialization" => .serialization <$> body.str?
  | _ => none

/-- An answer reporting a failure by kind and message. -/
def Json.failure (kind message : String) : Json :=
  .obj [("error", .str kind), ("message", .str message)]

/-- The answer for input that the request does not accept. -/
def Json.badInput : Json := .obj [("error", .str "BadInput")]

end QueryScope
