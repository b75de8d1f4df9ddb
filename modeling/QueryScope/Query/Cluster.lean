import QueryScope.Text.Unsigned
import QueryScope.Text.Blank
/-!
# Cluster versions

A cluster version such as `7.0.2` is read for its major and minor numbers: the parts before
the first and second dot, each trimmed and read as an unsigned 32-bit number. A version
without a minor part has minor `0`; a part that is no number makes the version unreadable.
-/

namespace QueryScope

/-- The major and minor numbers of a cluster version. -/
def majorMinor (version : String) : Option (Nat × Nat) :=
  match version.splitOn "." with
  | [] => none
  | [major] => (Text.readUnsigned 32 (String.trimBlank major)).map (·, 0)
  | major :: minor :: _ => do
    let m ← Text.readUnsigned 32 (String.trimBlank major)
    let n ← Text.readUnsigned 32 (String.trimBlank minor)
    pure (m, n)

end QueryScope
