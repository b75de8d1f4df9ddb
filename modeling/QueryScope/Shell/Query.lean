import QueryScope.Shell.Writer
import QueryScope.Query.Node
/-!
# Queries as shell scripts

A query is written as the shell call that runs it:
`db.getSiblingDB(<db>).getCollection(<coll>)`, then `.explain("<verbosity>")` when the
query is to be explained, then the command's method with its arguments, and for a find of
many documents its `.sort(…)` and `.limit(…)`.

* A filter is a document: an equality as `field: value`, another comparison as
  `field: {"$op": value}`, `$and`/`$or`/`$nor` as an array of one document per clause, a
  negation of a single comparison as `field: {"$not": {"$op": value}}` and any other negation
  as `$nor` of its clauses, an element match as `field: {"$elemMatch": filter}`.
* A value known when writing is written as it is; a value known only at run time is a
  variable of its type; a value computed from a field is that field's path.
* Updates are `{"$op": {field: value}}` documents, projections and sorts `field: flag`
  documents, and pipeline stages `{"$stage": body}` documents.

Whatever cannot be written (an unknown operator, a field without a name, an unknown value)
is left out or replaced by a variable, and the script is then incomplete. A script runs as
it is when it is complete and names a valid namespace.
-/

namespace QueryScope

namespace Shell

/-- A written query: none for a dialect that writes no queries, or a script that runs as it
is, or one with placeholders. -/
inductive Rendered where
  | none
  | canBeRun (text : String)
  | incomplete (text : String)

namespace Rendered

/-- The interchange name of the state. -/
def state : Rendered → String
  | .none => "none"
  | .canBeRun _ => "canBeRun"
  | .incomplete _ => "incomplete"

/-- The text, if any. -/
def text? : Rendered → Option String
  | .none => Option.none
  | .canBeRun t | .incomplete t => some t

end Rendered

/-- The key of an operator: `"$name"`. -/
def operatorKey (o : Operator) : String := quote ("$" ++ o.spelling)

/-- The display name of a node's field reference. -/
def displayName? (n : Node) : Option String :=
  match n.fieldRef? with
  | some (.named _ _ _ d) => some d
  | _ => none

/-- The field path a computed type was computed from. -/
def fieldPath? : Bson → Option String
  | .computed _ e => displayName? e
  | _ => none

/-- The key of a node's field: its quoted path, or a `[field]` variable for an unknown
field; none without a field reference. -/
def fieldKey (n : Node) : Writing (Option String) :=
  match n.fieldRef? with
  | none => pure none
  | some .unknown => do
    markIncomplete
    let v ← runtimeVar "field" .string
    pure (some ("[" ++ v.render false ++ "]"))
  | some r => pure (r.path?.map quote)

/-- The value of a node: written as it is, a variable, or the path it is computed from. -/
def valueDoc (n : Node) : Writing Doc :=
  let name := ((n.fieldRef?).bind FieldRef.path?).getD "value"
  match n.valueRef? with
  | some (.constant _ v _) | some (.inferred _ v _) => pure (.raw v.text)
  | some (.runtime _ t) => runtimeVar name t
  | some (.computed _ t) =>
    match fieldPath? t with
    | some p => pure (.string p)
    | none => do
      markIncomplete
      runtimeVar name t.base
  | some .unknown | none => do
    markIncomplete
    runtimeVar name .any

/-- The condition a negation of a single comparison writes: its key and
`{"$op": value}`. -/
def negatedCondition (inner : Node) : Writing (Option (String × Doc)) :=
  match inner.operator? with
  | none => pure none
  | some o =>
    if o.isCombinator || o == .unknown || o == .elemMatch then pure none
    else do
      match ← fieldKey inner with
      | none => pure none
      | some key => do
        let v ← valueDoc inner
        pure (some (key, .object [(operatorKey o, v)]))

mutual
/-- Add one predicate to a filter document. -/
def addPredicate (n : Node) (doc : Doc) : Writing Doc :=
  match n.operator? with
  | some .«and» => do pure (doc.insert (operatorKey .«and») (.array (← clauses (n.children .filter))))
  | some .«or» => do pure (doc.insert (operatorKey .«or») (.array (← clauses (n.children .filter))))
  | some .nor => do pure (doc.insert (operatorKey .nor) (.array (← clauses (n.children .filter))))
  | some .«not» => do
    let negated ← match n.children .filter with
      | [inner] => negatedCondition inner
      | _ => pure none
    match negated with
    | some (key, cond) => pure (doc.insert key (.object [(operatorKey .«not», cond)]))
    | none => do pure (doc.insert (operatorKey .nor) (.array (← clauses (n.children .filter))))
  | some .elemMatch => do
    match ← fieldKey n with
    | some key => do
      let inner ← addPredicates (n.children .filter) .empty
      pure (doc.insert key (.object [(operatorKey .elemMatch, inner)]))
    | none => do
      markIncomplete
      pure doc
  | some .unknown | none => do
    markIncomplete
    pure doc
  | some o => do
    match ← fieldKey n with
    | some key => do
      let v ← valueDoc n
      pure (doc.insert key (if o == .eq then v else .object [(operatorKey o, v)]))
    | none => do
      markIncomplete
      pure doc
termination_by sizeOf n
decreasing_by all_goals (have h := Node.sizeOf_children_lt n .filter; omega)

/-- Add predicates to a filter document, in order. -/
def addPredicates (ns : List Node) (doc : Doc) : Writing Doc :=
  match ns with
  | [] => pure doc
  | n :: rest => do addPredicates rest (← addPredicate n doc)
termination_by sizeOf ns

/-- One filter document per clause. -/
def clauses (ns : List Node) : Writing (List Doc) :=
  match ns with
  | [] => pure []
  | n :: rest => do
    let d ← addPredicate n .empty
    let ds ← clauses rest
    pure (d :: ds)
termination_by sizeOf ns
end

/-- A filter document of predicates. -/
def filterDocument (ns : List Node) : Writing Doc := addPredicates ns .empty

mutual
/-- Add one update to an update document. -/
def addUpdate (n : Node) (doc : Doc) : Writing Doc :=
  match n.operator? with
  | some .combine => addUpdates (n.children .updates) doc
  | some .unknown | none => do
    markIncomplete
    pure doc
  | some o => do
    match ← fieldKey n with
    | none => do
      markIncomplete
      pure doc
    | some key => do
      let v ← if o == .unset then pure (.string "")
        else match n.branch? .filter with
          | some cs => filterDocument cs
          | none => valueDoc n
      pure (doc.insert (operatorKey o) (.object [(key, v)]))
termination_by sizeOf n
decreasing_by all_goals (have h := Node.sizeOf_children_lt n .updates; omega)

/-- Add updates to an update document, in order. -/
def addUpdates (ns : List Node) (doc : Doc) : Writing Doc :=
  match ns with
  | [] => pure doc
  | n :: rest => do addUpdates rest (← addUpdate n doc)
termination_by sizeOf ns
end

/-- An update document of updates. -/
def updateDocument (ns : List Node) : Writing Doc := addUpdates ns .empty

/-- A `field: flag` document of projections or sort keys. -/
def keyDocument (keys : List Node) : Writing Doc :=
  keys.foldlM (fun doc key => do
    let field ← fieldKey key
    match key.operator?, field with
    | some .unknown, _ | none, _ | _, none => do
      markIncomplete
      pure doc
    | some _, some f => do
      let flag ← valueDoc key
      pure (doc.insert f flag)) Doc.empty

/-- The body of one accumulator of a group stage, none when it is left out. -/
def accumulatorBody (o : Operator) (acc : Node) (value : Doc) : Writing (Option Doc) :=
  match o with
  | .top | .bottom | .topN | .bottomN => do
    let sortBy ← keyDocument (acc.children .sorts)
    let spec := [(quote "sortBy", sortBy), (quote "output", value)]
    let spec := match acc.limit? with
      | some n => spec ++ [(quote "n", .raw (toString n))]
      | none => spec
    pure (some (.object spec))
  | .unknown => do
    markIncomplete
    pure none
  | _ => pure (some value)

/-- The body of a group stage: its key as `_id`, then one entry per accumulator. -/
def groupDocument (stage : Node) : Writing Doc := do
  let key ← valueDoc stage
  (stage.children .accumulatedFields).foldlM (fun doc acc => do
      let output ← fieldKey acc
      match acc.operator?, output with
      | some o, some out => do
        let value ← valueDoc acc
        match ← accumulatorBody o acc value with
        | some body => pure (doc.insert out (.object [(operatorKey o, body)]))
        | none => pure doc
      | _, _ => do
        markIncomplete
        pure doc) (Doc.object [(quote "_id", key)])

/-- The body of an `$addFields` stage. -/
def addedFieldsDocument (stage : Node) : Writing Doc :=
  (stage.children .addedFields).foldlM (fun doc added => do
    match ← fieldKey added with
    | some key => do
      let v ← valueDoc added
      pure (doc.insert key v)
    | none => do
      markIncomplete
      pure doc) Doc.empty

/-- The document of a pipeline stage, none for a stage that cannot be written. -/
def stageDocument (stage : Node) : Writing (Option Doc) := do
  match stage.operator? with
  | none => pure none
  | some o =>
    let body ← match o with
      | .«match» => some <$> filterDocument (stage.children .filter)
      | .project => some <$> keyDocument (stage.children .projections)
      | .sort => some <$> keyDocument (stage.children .sorts)
      | .group => some <$> groupDocument stage
      | .addFields => some <$> addedFieldsDocument stage
      | .unwind => pure ((displayName? stage).map Doc.string)
      | .limit => pure (stage.limit?.map fun n => Doc.raw (toString n))
      | _ => pure none
    pure (body.map fun b => .object [(operatorKey o, b)])

/-- The documents of the stages that can be written; the others make the script
incomplete. -/
def pipelineDocuments (stages : List Node) : Writing (List Doc) :=
  stages.foldlM (fun acc stage => do
    match ← stageDocument stage with
    | some d => pure (acc ++ [d])
    | none => do
      markIncomplete
      pure acc) []

/-- The collection a query runs on: `db.getSiblingDB(<db>).getCollection(<coll>)`, with a
variable for a database or collection that is missing or blank. -/
def collectionAccess (r : Option CollectionRef) : Writing String := do
  let database := (r.bind CollectionRef.namespace?).map (·.database) |>.filter
    (fun d => !String.isBlank d)
  let collection := (r.bind CollectionRef.collection?).filter (fun c => !String.isBlank c)
  let db ← match database with
    | some d => pure (Doc.string d)
    | none => runtimeVar "database" .string
  let coll ← match collection with
    | some c => pure (Doc.string c)
    | none => runtimeVar "collection" .string
  pure ("db.getSiblingDB(" ++ db.render false ++ ").getCollection(" ++ coll.render false ++ ")")

/-- The shell method of a command. -/
def Command.method : Command → String
  | .upsert => "updateOne"
  | .runCommand | .unknown => "find"
  | c => c.spelling

/-- The limit of a find written without user interaction. -/
def automaticRunLimit : Int := 50

/-- The arguments of the command's method. -/
def commandArguments (q : Node) (command : Command) (filter : Doc) : Writing (List Doc) :=
  match command with
  | .findMany | .findOne => do
    let projections := q.children .projections
    if projections.isEmpty then pure [filter]
    else do pure [filter, ← keyDocument projections]
  | .countDocuments | .deleteMany | .deleteOne | .findOneAndDelete => pure [filter]
  | .estimatedDocumentCount => pure []
  | .distinct => do
    let field ← match ← fieldKey q with
      | some key => pure (Doc.raw key)
      | none => do
        markIncomplete
        runtimeVar "field" .string
    pure [field, filter]
  | .updateOne | .updateMany | .findOneAndUpdate => do
    pure [filter, ← updateDocument (q.children .updates)]
  | .upsert => do
    let updates ← updateDocument (q.children .updates)
    pure [filter, updates, .object [(quote "upsert", .raw "true")]]
  | .insertOne => pure [.empty]
  | .insertMany => pure [.array []]
  | .replaceOne | .findOneAndReplace => pure [filter, .empty]
  | .aggregate => do pure [.array (← pipelineDocuments (q.children .aggregation))]
  | .runCommand | .unknown => do
    markIncomplete
    pure [filter]

/-- The body of the script of a query. -/
def queryBody (ctx : Context) (q : Node) : Writing String := do
  let command := q.command?.getD .unknown
  let explain := q.explain?.bind ExplainLevel.verbosity
  let access ← collectionAccess q.collectionRef?
  let access := match explain with
    | some v => access ++ ".explain(" ++ quote v ++ ")"
    | none => access
  let filter ← filterDocument (q.children .filter)
  let args ← commandArguments q command filter
  let call := access ++ "." ++ Command.method command ++ "(" ++
    ", ".intercalate (args.map (·.render ctx.pretty)) ++ ")"
  if command == .findMany then do
    let sorts := q.children .sorts
    let call ← if sorts.isEmpty then pure call
      else do pure (call ++ ".sort(" ++ (← keyDocument sorts).render ctx.pretty ++ ")")
    let automatic := ctx.autoRun && explain.isNone
    let limit := match q.limit? with
      | some n => some n
      | none => if automatic then some automaticRunLimit else none
    pure (match limit with
      | some n => call ++ ".limit(" ++ toString n ++ ")"
      | none => call)
  else pure call

/-- The script of a query. -/
def formatQuery (ctx : Context) (q : Node) : Rendered :=
  let runnable := match q.namespace? with
    | some ns => ns.isValid
    | none => false
  let (body, script) := (queryBody ctx q).run {}
  let text := script.finish ctx body
  if runnable && !script.incomplete then .canBeRun text else .incomplete text

end Shell

end QueryScope
