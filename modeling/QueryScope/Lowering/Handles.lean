import QueryScope.Lowering.Constants
import QueryScope.Lowering.Names
/-!
# Where a collection handle comes from

A driver query runs on a collection handle; its namespace is found by following the handle
back to the calls that made it.

* The local pass follows the handle through variables, fields and helper returns to a
  `getCollection` call of a database handle, and that call's receiver to a `getDatabase` call
  of a client. Their first arguments, when known strings, name the collection and the
  database.
* When the local pass names no collection, a breadth-first search over pairs of a goal and an
  expression goes further: a parameter leads to the matching argument of each call site in
  the query's class hierarchy, a field to its initializer and every assignment, a variable to
  its initializer and assignments, a helper call to its `return` values. Each pair is visited
  once and at most `maxHops` pairs are visited.

The first name found for each of the two wins. Both give a known namespace, the collection
alone gives a bare collection reference, and anything else an unknown one.
-/

namespace QueryScope

/-- Whether an expression is the call that opens a collection of a database handle. -/
def Program.isGetCollection (p : Program) (id : Nat) : Bool :=
  match p.call? id with
  | some c => c.name == "getCollection" && c.declaringType.any DriverName.isDatabase
  | none => false

/-- Whether an expression is the call that opens a database of a client. -/
def Program.isGetDatabase (p : Program) (id : Nat) : Bool :=
  match p.call? id with
  | some c => c.name == "getDatabase" && c.declaringType.any DriverName.isClient
  | none => false

/-- Whether a call site is in the class hierarchy of the query: any site when the query is in
no class, none outside a class otherwise. -/
def Program.inQueryHierarchy (p : Program) (queryClass : Option Nat) (site : Nat) : Bool :=
  match queryClass, p.enclosingClass? site with
  | some q, some s => p.inSameHierarchy q s
  | none, _ => true
  | some _, none => false

/-- The expressions that may give an expression its value: for a parameter the matching
arguments of the call sites in the query's hierarchy, for a variable its initializer and
assignments, for a field its initializer and assignments, for a helper call its `return`
values. -/
def Program.definitionsOf (p : Program) (queryClass : Option Nat) (id : Nat) : List Nat :=
  match (p.expr id).kind with
  | .reference (.localVar v) =>
    match p.parameterIndex? v with
    | some i =>
      ((p.callSitesOf (p.var v).method).filter (p.inQueryHierarchy queryClass)).filterMap
        fun site => (p.arguments site)[i]?
    | none => (p.var v).initializer.toList ++ p.localAssignments v
  | .reference (.field f) => (p.field f).initializer.toList ++ (p.fieldAssignments f).map (·.2)
  | .call c =>
    match c.target with
    | some m => if (p.method m).isConstructor then [] else p.returnsOf m
    | none => []
  | _ => []

/-- The two names a namespace is made of. -/
inductive NamePart where
  | database
  | collection
  deriving DecidableEq, BEq

/-- What the search looks for at an expression. -/
inductive HandleGoal where
  /-- An expression giving a collection handle. -/
  | collectionHandle
  /-- An expression giving a database handle. -/
  | databaseHandle
  /-- An expression giving one of the two names. -/
  | name (part : NamePart)
  deriving DecidableEq, BEq

/-- The names found so far, each with the expression that gave it. -/
structure FoundNames where
  database : Option (Nat × String) := none
  collection : Option (Nat × String) := none

namespace FoundNames

/-- Whether both names are found. -/
def complete (f : FoundNames) : Bool := f.database.isSome && f.collection.isSome

/-- Record a name unless one is already found for its part. -/
def offer (f : FoundNames) (part : NamePart) (source : Nat) (name : String) : FoundNames :=
  match part with
  | .database => if f.database.isSome then f else { f with database := some (source, name) }
  | .collection => if f.collection.isSome then f else { f with collection := some (source, name) }

/-- The collection reference the names make. -/
def reference (f : FoundNames) : CollectionRef :=
  match f.collection, f.database with
  | some (c, coll), some (d, db) => .known (some (.expr d)) (.expr c) ⟨db, coll⟩ none
  | some (c, coll), none => .onlyCollection (.expr c) coll
  | _, _ => .unknown

end FoundNames

/-- The search for the namespace of a collection handle, with its bounds. -/
structure HandleSearch where
  resolver : Resolver
  maxHops : Nat := defaultLimit

namespace HandleSearch

/-- The first argument of a call, when it is a known string. -/
def knownFirstArg (s : HandleSearch) (c : Call) : Option (Nat × String) := do
  let arg ← c.args.head?
  let name ← s.resolver.resolveString arg
  pure (arg, name)

/-- The names found by following the handle to the calls that opened it. -/
def localPass (s : HandleSearch) (collection : Nat) : FoundNames :=
  let r := s.resolver
  let p := r.program
  match (r.resolveUntil collection p.isGetCollection).bind p.call? with
  | none => {}
  | some call =>
    let found : FoundNames := match s.knownFirstArg call with
      | some (arg, name) => FoundNames.offer {} .collection arg name
      | none => {}
    let database := do
      let receiver ← call.receiver
      let dbCall ← (r.resolveUntil receiver p.isGetDatabase).bind p.call?
      s.knownFirstArg dbCall
    match database with
    | some (arg, name) => found.offer .database arg name
    | none => found

/-- What visiting one pair gives: the names, and the pairs to visit later. -/
def visit (s : HandleSearch) (queryClass : Option Nat) (found : FoundNames)
    (goal : HandleGoal) (expr : Nat) : FoundNames × List (HandleGoal × Nat) :=
  let p := s.resolver.program
  let id := p.stripParens expr
  let further := (p.definitionsOf queryClass id).map (goal, ·)
  match goal with
  | .name part =>
    match s.resolver.resolveString id with
    | some name => (found.offer part id name, [])
    | none => (found, further)
  | .collectionHandle =>
    if p.isGetCollection id then
      match p.call? id with
      | some c =>
        (found, (c.args.head?.map (HandleGoal.name .collection, ·)).toList ++
          (c.receiver.map (HandleGoal.databaseHandle, ·)).toList)
      | none => (found, [])
    else (found, further)
  | .databaseHandle =>
    if p.isGetDatabase id then
      match (p.call? id).bind (·.args.head?) with
      | some arg => (found, [(.name .database, arg)])
      | none => (found, [])
    else (found, further)

/-- Visit the queue in order until both names are found, the queue is empty or `hops` more
visits are spent; a pair seen before is skipped without spending a visit. -/
def search (s : HandleSearch) (queryClass : Option Nat) :
    Nat → List (HandleGoal × Nat) → List (HandleGoal × Nat) → FoundNames → FoundNames
  | _, [], _, found => found
  | hops, (goal, expr) :: rest, seen, found =>
    if found.complete then found
    else if seen.contains (goal, expr) then s.search queryClass hops rest seen found
    else match hops with
      | 0 => found
      | hops + 1 =>
        let (found, more) := s.visit queryClass found goal expr
        s.search queryClass hops (rest ++ more) ((goal, expr) :: seen) found
termination_by hops queue _ _ => (hops, queue.length)

/-- The names found by searching from the handle through the program. -/
def contextualPass (s : HandleSearch) (collection : Nat) (found : FoundNames) : FoundNames :=
  let queryClass := s.resolver.program.enclosingClass? collection
  s.search queryClass s.maxHops [(.collectionHandle, collection)] [] found

/-- The collection reference of a collection handle: the local pass, then the search when it
named no collection. -/
def extract (s : HandleSearch) (collection : Nat) : CollectionRef :=
  let found := s.localPass collection
  let found := if found.collection.isNone then s.contextualPass collection found else found
  found.reference

end HandleSearch

end QueryScope
