import QueryScope.Interchange.Document
import QueryScope.Yaml.Block
/-!
# YAML documents as documents

A YAML node read as a `Document`: any scalar reads as text; only a plain scalar reads as a
count, a flag or null, by the core schema; and an empty plain scalar reads as an empty list
or mapping where one is asked for.
-/

namespace QueryScope

/-- A YAML node as a document. -/
instance : Document Yaml where
  text? := fun
    | .scalar s _ => some s
    | _ => none
  untypedText? := fun
    | .scalar s false => some s
    | .scalar s true => if YamlScalar.isText s then some s else none
    | _ => none
  count? := fun
    | .scalar s true => YamlScalar.unsigned? (Nat.pow 2 64) s
    | _ => none
  flag? := fun
    | .scalar s true => YamlScalar.bool? s
    | _ => none
  isNull := fun
    | .scalar s true => YamlScalar.isNull s
    | _ => false
  items? := fun
    | .seq xs => some xs
    | .scalar "" true => some []
    | _ => none
  members? := fun
    | .map ms => some ms
    | .scalar "" true => some []
    | _ => none
  isCollection := fun
    | .seq _ | .map _ => true
    | _ => false
  depth := Yaml.depth

/-- Read YAML text. -/
def Yaml.parse? (s : String) : Option Yaml := Yaml.Block.document? s

end QueryScope
