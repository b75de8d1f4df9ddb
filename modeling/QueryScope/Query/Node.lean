import QueryScope.Bson.Merge
/-!
# Query nodes

A node holds at most one component of each kind. Adding a component (`Node.put`) replaces the
one of the same kind in its place, or appends it; building a node from a list of components
adds them in order, so the first occurrence of a kind fixes its position and the last one its
value.

The views of a node used elsewhere: its components by kind, its namespace, the filter nodes
below it (`Node.allFilters`), the pre-order walk of all nodes (`Node.walk`) and the nodes
naming a schema field. Enrichment overwrites the database of the collection reference, injects
a schema into a known collection reference, and sets the target cluster and explain level.
-/

namespace QueryScope

/-- A collection reference with its database overwritten: a bare collection becomes known. -/
def CollectionRef.withDatabase (db : String) : CollectionRef → CollectionRef
  | .onlyCollection c coll => .known none c ⟨db, coll⟩ none
  | .known d c ns sc => .known d c ⟨db, ns.collection⟩ sc
  | .unknown => .unknown

namespace Node

/-- Add a component to a component list, replacing the one of the same kind. -/
def put (cs : List Component) (c : Component) : List Component :=
  if cs.any (·.kind == c.kind) then cs.map fun d => if d.kind == c.kind then c else d
  else cs ++ [c]

/-- A node from components in any order, later ones of a kind replacing earlier ones. -/
def ofComponents (s : Origin) (cs : List Component) : Node :=
  .mk s (cs.foldl put [])

/-- The node with one more component. -/
def add (n : Node) (c : Component) : Node :=
  .mk n.source (put n.components c)

/-- The component of a kind. -/
def componentOfKind? (n : Node) (k : ComponentKind) : Option Component :=
  n.components.find? (·.kind == k)

/-- Whether the node has a component of a kind. -/
def has (n : Node) (k : ComponentKind) : Bool :=
  n.components.any (·.kind == k)

/-- The collection reference of the node. -/
def collectionRef? (n : Node) : Option CollectionRef :=
  n.components.findSome? fun | .collection r => some r | _ => none

/-- The field reference of the node. -/
def fieldRef? (n : Node) : Option FieldRef :=
  n.components.findSome? fun | .field r => some r | _ => none

/-- The value reference of the node. -/
def valueRef? (n : Node) : Option ValueRef :=
  n.components.findSome? fun | .value r => some r | _ => none

/-- The children of one branch, if the node has that branch. -/
def branch? (n : Node) (b : Branch) : Option (List Node) :=
  n.components.findSome? fun | .branch b' ns => if b' = b then some ns else none | _ => none

/-- The children of one branch, none when the node lacks it. -/
def children (n : Node) (b : Branch) : List Node :=
  (n.branch? b).getD []

/-- The limit of the node. -/
def limit? (n : Node) : Option Int :=
  n.components.findSome? fun | .limit k => some k | _ => none

/-- The operator the node names. -/
def operator? (n : Node) : Option Operator :=
  n.components.findSome? fun | .named o => some o | _ => none

/-- The command of the node. -/
def command? (n : Node) : Option Command :=
  n.components.findSome? fun | .command c => some c | _ => none

/-- The dialect of the node. -/
def dialect? (n : Node) : Option Dialect :=
  n.components.findSome? fun | .dialect d => some d | _ => none

/-- The target cluster version of the node. -/
def targetCluster? (n : Node) : Option String :=
  n.components.findSome? fun | .targetCluster v => some v | _ => none

/-- The explain level of the node. -/
def explain? (n : Node) : Option ExplainLevel :=
  n.components.findSome? fun | .explain l => some l | _ => none

/-- The namespace of a known collection reference. -/
def namespace? (n : Node) : Option Namespace :=
  match n.collectionRef? with
  | some (.known _ _ ns _) => some ns
  | _ => none

/-- The node with a target cluster version. -/
def withTargetCluster (n : Node) (version : String) : Node := n.add (.targetCluster version)

/-- The node with an explain level. -/
def withExplain (n : Node) (level : ExplainLevel) : Node := n.add (.explain level)

/-- Put a schema into the first known collection reference. -/
def injectSchema (s : Schema) : List Component → List Component
  | [] => []
  | .collection (.known d c ns _) :: cs => .collection (.known d c ns (some s)) :: cs
  | c :: cs => c :: injectSchema s cs

/-- The node with a schema injected into its known collection reference. -/
def withSchema (n : Node) (s : Schema) : Node := .mk n.source (injectSchema s n.components)

/-- The node with the database of its collection reference overwritten. -/
def withDatabase (n : Node) (db : String) : Node :=
  .mk n.source (n.components.map fun
    | .collection r => .collection (CollectionRef.withDatabase db r)
    | c => c)

mutual
/-- The filter nodes below a node: its filter's children, then the filter nodes below each. -/
def filterNodes : Node → List Node
  | .mk _ cs => filterNodesOf cs

/-- The filter nodes below the first filter branch of a component list. -/
def filterNodesOf : List Component → List Node
  | [] => []
  | .branch .filter ns :: _ => ns ++ filterNodesList ns
  | _ :: cs => filterNodesOf cs

/-- The filter nodes below each node of a list. -/
def filterNodesList : List Node → List Node
  | [] => []
  | n :: ns => filterNodes n ++ filterNodesList ns
end

/-- Every filter node of a query: those below it, then those below each pipeline stage. -/
def allFilters (n : Node) : List Node :=
  n.filterNodes ++ filterNodesList (n.children .aggregation)

mutual
/-- The nodes of a tree in pre-order, through the children of every component. -/
def walk : Node → List Node
  | n@(.mk _ cs) => n :: walkComponents cs

/-- The nodes below a component list. -/
def walkComponents : List Component → List Node
  | [] => []
  | .branch _ ns :: cs => walkList ns ++ walkComponents cs
  | _ :: cs => walkComponents cs

/-- The nodes of a list of trees. -/
def walkList : List Node → List Node
  | [] => []
  | n :: ns => walk n ++ walkList ns
end

/-- Whether a node references a field by its schema path. -/
def namesSchemaField (n : Node) : Bool :=
  match n.fieldRef? with
  | some (.named .fromSchema _ _ _) => true
  | _ => false

/-- The nodes of a tree that reference a schema field. -/
def fieldReferences (n : Node) : List Node := n.walk.filter namesSchemaField

/-- The children of a branch are smaller than their node, so recursion into them ends. -/
theorem sizeOf_children_lt (n : Node) (b : Branch) : sizeOf (n.children b) < sizeOf n := by
  cases n with
  | mk s cs =>
    unfold Node.children Node.branch?
    simp only [Node.components]
    cases h : cs.findSome? (fun | .branch b' ns => if b' = b then some ns else none | _ => none) with
    | none =>
      simp
      cases cs <;> simp <;> omega
    | some ns =>
      obtain ⟨c, hc, hf⟩ := List.exists_of_findSome?_eq_some h
      have h1 := List.sizeOf_lt_of_mem hc
      cases c <;> simp at hf
      obtain ⟨_, rfl⟩ := hf
      simp at h1 ⊢
      omega

/-- The children found in a branch are smaller than their node. -/
theorem sizeOf_lt_of_branch {n : Node} {b : Branch} {ns : List Node} (h : n.branch? b = some ns) :
    sizeOf ns < sizeOf n := by
  have := sizeOf_children_lt n b
  simp only [children, h, Option.getD_some] at this
  exact this

end Node

/-- A field reference with another display name; an unknown reference stays unknown. -/
def FieldRef.withDisplay (r : FieldRef) (name : String) : FieldRef :=
  match r with
  | .named k s p _ => .named k s p name
  | .unknown => .unknown

/-- The path of a field reference. -/
def FieldRef.path? : FieldRef → Option String
  | .named _ _ p _ => some p
  | .unknown => none

/-- The source of a field reference. -/
def FieldRef.source? : FieldRef → Option Origin
  | .named _ s _ _ => some s
  | .unknown => none

/-- The type of a value reference. -/
def ValueRef.type? : ValueRef → Option Bson
  | .constant _ _ t | .runtime _ t | .computed _ t | .inferred _ _ t => some t
  | .unknown => none

/-- The source of a value reference. -/
def ValueRef.source? : ValueRef → Option Origin
  | .constant s _ _ | .runtime s _ | .computed s _ | .inferred s _ _ => some s
  | .unknown => none

/-- The value of a constant or inferred value reference. -/
def ValueRef.constant? : ValueRef → Option Constant
  | .constant _ v _ | .inferred _ v _ => some v
  | _ => none

/-- A constant value reference, typed by its value. -/
def ValueRef.ofConstant (s : Origin) (v : Constant) : ValueRef := .constant s v v.bson

/-- The namespace of a collection reference. -/
def CollectionRef.namespace? : CollectionRef → Option Namespace
  | .known _ _ ns _ => some ns
  | _ => none

/-- The collection of a collection reference. -/
def CollectionRef.collection? : CollectionRef → Option String
  | .known _ _ ns _ => some ns.collection
  | .onlyCollection _ c => some c
  | .unknown => none

/-- The reference, or the other one when it is unknown. -/
def CollectionRef.orElse (r other : CollectionRef) : CollectionRef :=
  match r with
  | .unknown => other
  | _ => r

/-! ### Changing sources -/

mutual
/-- The tree with every source changed by `f`. -/
def Node.mapSource (f : Origin → Origin) : Node → Node
  | .mk s cs => .mk (f s) (Node.mapSourceComponents f cs)

/-- Change the sources of each component. -/
def Node.mapSourceComponents (f : Origin → Origin) : List Component → List Component
  | [] => []
  | c :: cs => Component.mapSource f c :: Node.mapSourceComponents f cs

/-- Change the sources of each node of a list. -/
def Node.mapSourceList (f : Origin → Origin) : List Node → List Node
  | [] => []
  | n :: ns => Node.mapSource f n :: Node.mapSourceList f ns

/-- The component with every source changed by `f`. -/
def Component.mapSource (f : Origin → Origin) : Component → Component
  | .collection r => .collection (match r with
    | .known d c ns sc => .known (d.map f) (f c) ns sc
    | .onlyCollection c coll => .onlyCollection (f c) coll
    | .unknown => .unknown)
  | .field r => .field (match r with
    | .named k s p d => .named k (f s) p d
    | .unknown => .unknown)
  | .value r => .value (match r with
    | .constant s v t => .constant (f s) v t
    | .runtime s t => .runtime (f s) t
    | .computed s t => .computed (f s) t
    | .inferred s v t => .inferred (f s) v t
    | .unknown => .unknown)
  | .branch b ns => .branch b (Node.mapSourceList f ns)
  | c => c
end

/-- The tree with every source erased. -/
def Node.erase (n : Node) : Node := n.mapSource fun _ => .erased

end QueryScope
