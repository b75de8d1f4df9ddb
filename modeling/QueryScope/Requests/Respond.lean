import QueryScope.Requests.Values
import QueryScope.Requests.Nodes
import QueryScope.Requests.Programs
import QueryScope.Requests.Lowering
import QueryScope.Requests.Service
import QueryScope.Requests.Lint
import QueryScope.Requests.Catalog
import QueryScope.Requests.Session
import QueryScope.Json.Reader
import QueryScope.Json.Writer
/-!
# Answering request lines

A request is one JSON object per line naming its operation in `op`. Each line gets one
answer line; a blank line gets none. A line that is no JSON, an unknown operation or a
request whose fields do not read is answered `{"error":"BadInput"}`.
-/

namespace QueryScope

namespace Requests

/-- The answer to a request, `none` for bad input. -/
def dispatch (req : Json) : Option Json := do
  let op ← req.text? "op"
  match op with
  | "error_info" =>
    match req.get? "service" with
    | some s => serviceFailureAnswer s
    | none => failureAnswer req
  | "node" | "node_parts" | "format_node" => nodes op req
  | "syntax" | "type_ref" | "resolve" | "extract" => programs op req
  | "lowering_context" | "lower" | "refs" => lowering op req
  | "config" | "format" => service op req
  | "lint_node" => lintNodeAnswer req
  | "assert" => assertAnswer req
  | "session" => sessionAnswer req
  | "read_model" | "gather" | "decorate" => catalog op req
  | _ => values op req

/-- The answer to a request. -/
def respond (req : Json) : Json := (dispatch req).getD Json.badInput

/-- The answer line to a request line, none for a blank line. -/
def respondLine (line : String) : Option String :=
  if String.isBlank line then none
  else
    match Json.parse? line with
    | some req => some (respond req).render
    | none => some Json.badInput.render

end Requests

end QueryScope
