import QueryScope.Proofs.Shell.Writable
/-!
# When a written query runs as it is

A query written as a shell script is marked runnable when its namespace is valid and the
writer noted no part it could not write. Building on the conditions of
`QueryScope.Proofs.Shell.Writable`, this module says which parts that is, command by command:

* a pipeline stage is written as it is when its operator is one the shell writes (`$match`,
  `$project`, `$sort`, `$group`, `$addFields`, `$unwind`, `$limit`) and its body is: a
  writable filter, writable keys, a group key and accumulators, added fields with their
  values, the field to unwind, or the limit;
* the arguments of a command are its projections for a find, the field of `distinct`, the
  updates of an update or upsert, and the stages of an aggregation; `runCommand` and an
  unknown command are never written as they are;
* the sort keys count for a find of many documents only, the only command that prints them.

Main statement (`formatQuery_runnable_iff`): the script is runnable exactly when the query is
`Runnable`, and incomplete otherwise. The filter counts for every command: it is written
before the command is looked at, so a filter that cannot be written makes the script
incomplete even for commands that never print it (`aggregate_incomplete_by_unprinted_filter`).
-/

namespace QueryScope

namespace Shell

variable {β : Type}

/-! ### Pipeline stages -/

/-- The operator of an accumulator is known, and one that picks documents by an order writes
its sort keys as they are. -/
def AccumulatorOperator (acc : Node) (o : Operator) : Prop :=
  o ≠ .unknown ∧ (o ∈ [.top, .bottom, .topN, .bottomN] → ∀ k ∈ acc.children .sorts, KeyWritable k)

theorem marks_accumulatorBody (o : Operator) (acc : Node) (value : Doc) :
    Marks (accumulatorBody o acc value) (¬ AccumulatorOperator acc o) := by
  unfold accumulatorBody
  split
  -- `$top`, `$bottom`, `$topN` and `$bottomN` write their sort keys
  case h_1 | h_2 | h_3 | h_4 =>
    exact ((marks_keyDocument _).bind fun _ => marks_pure _).congr (by simp [AccumulatorOperator])
  case h_5 => exact (marks_giveUp none).congr (by simp [AccumulatorOperator])
  case h_6 => exact (marks_pure _).congr (by simp_all [AccumulatorOperator])

/-- An accumulator of a group stage that the shell writes as it is. -/
@[mk_iff]
structure AccumulatorWritable (acc : Node) : Prop where
  operator : ∃ o, acc.operator? = some o ∧ AccumulatorOperator acc o
  field : NamesField acc
  value : WritesValue acc

/-- A group stage is written as it is when its key and its accumulators are. -/
def GroupWritable (stage : Node) : Prop :=
  WritesValue stage ∧ ∀ acc ∈ stage.children .accumulatedFields, AccumulatorWritable acc

theorem marks_groupDocument (stage : Node) :
    Marks (groupDocument stage) (¬ GroupWritable stage) := by
  unfold groupDocument
  refine ((marks_valueDoc stage).bind fun _ => marks_foldlM _ fun doc acc _ => ?_).congr
    (by rw [GroupWritable, not_and_or])
  apply Marks.congr
  · apply marks_fieldKey_bind acc
    · intro out
      show Marks _ ((¬ ∃ o, acc.operator? = some o ∧ AccumulatorOperator acc o) ∨
        ¬ WritesValue acc)
      split
      next o _ h _ =>
        apply Marks.congr
        · exact (marks_valueDoc acc).bind fun v => (marks_accumulatorBody o acc v).bind fun r => by
            cases r <;> exact marks_pure _
        · simp only [h, Option.some.injEq, exists_eq_left', or_false]
          exact or_comm
      next hnone =>
        have h : acc.operator? = none := by
          cases hop : acc.operator? with
          | none => rfl
          | some o => exact absurd rfl (hnone o out hop)
        exact (marks_giveUp doc).congr (by simp [h])
    · intro _
      show Marks _ True
      split
      next h => cases h
      next => exact marks_giveUp doc
  · rw [accumulatorWritable_iff, not_and_or, not_and_or, or_left_comm]

theorem marks_addedFieldsDocument (stage : Node) :
    Marks (addedFieldsDocument stage)
      (¬ ∀ a ∈ stage.children .addedFields, NamesField a ∧ WritesValue a) := by
  unfold addedFieldsDocument
  refine marks_foldlM _ fun doc added _ => ?_
  apply Marks.congr
  · apply marks_fieldKey_bind added
    · intro key
      exact (marks_valueDoc added).bind fun _ => marks_pure _
    · intro _
      exact marks_giveUp doc
  · rw [or_false, not_and_or]

theorem displayName?_eq_none_iff {n : Node} : displayName? n = none ↔ ¬ NamesField n := by
  unfold displayName? NamesField
  cases n.fieldRef? with
  | none => simp
  | some r => cases r <;> simp

/-- A pipeline stage that the shell writes as it is. -/
def StageWritable (stage : Node) : Prop :=
  match stage.operator? with
  | some .«match» => ∀ c ∈ stage.children .filter, Writable c
  | some .project => ∀ k ∈ stage.children .projections, KeyWritable k
  | some .sort => ∀ k ∈ stage.children .sorts, KeyWritable k
  | some .group => GroupWritable stage
  | some .addFields => ∀ a ∈ stage.children .addedFields, NamesField a ∧ WritesValue a
  | some .unwind => NamesField stage
  | some .limit => stage.limit?.isSome
  | _ => False

/-- A stage whose body is always written marks the script as its body does. -/
theorem marks_someBody_bind {m : Writing Doc} {p : Prop} (g : Doc → Doc)
    {f : Option Doc → Writing β} (hm : Marks m p) (hsome : ∀ d, Marks (f (some d)) False) :
    Marks ((some <$> m >>= fun body => pure (Option.map g body)) >>= f) (p ∨ False) := by
  simp only [map_eq_pure_bind, bind_assoc, pure_bind, Option.map_some]
  exact hm.bind fun _ => hsome _

/-- A step that goes on from the document of a stage marks the script when the stage is not
writable, provided it gives up exactly when the stage gives no document. A stage gives no
document when its operator is missing or not one the shell writes, or when it unwinds no
named field or limits by no number. -/
theorem marks_stageDocument_bind {f : Option Doc → Writing β} (stage : Node)
    (hsome : ∀ d, Marks (f (some d)) False) (hnone : Marks (f none) True) :
    Marks (stageDocument stage >>= f) (¬ StageWritable stage) := by
  unfold stageDocument
  split
  next h =>
    rw [pure_bind]
    exact hnone.congr (by simp [StageWritable, h])
  next o h =>
    dsimp only
    -- `$match`, `$project`, `$sort`, `$group` and `$addFields` always have a body
    split
    next =>
      exact (marks_someBody_bind _ (marks_filterDocument _) hsome).congr
        (by simp [StageWritable, h])
    next =>
      exact (marks_someBody_bind _ (marks_keyDocument _) hsome).congr (by simp [StageWritable, h])
    next =>
      exact (marks_someBody_bind _ (marks_keyDocument _) hsome).congr (by simp [StageWritable, h])
    next =>
      exact (marks_someBody_bind _ (marks_groupDocument _) hsome).congr
        (by simp [StageWritable, h])
    next =>
      exact (marks_someBody_bind _ (marks_addedFieldsDocument _) hsome).congr
        (by simp [StageWritable, h])
    next =>
      simp only [pure_bind]
      cases hd : displayName? stage with
      | none =>
        exact hnone.congr (by simp [StageWritable, h, ← displayName?_eq_none_iff, hd])
      | some d =>
        exact (hsome _).congr (by simp [StageWritable, h, ← displayName?_eq_none_iff, hd])
    next =>
      simp only [pure_bind]
      cases hl : stage.limit? with
      | none => exact hnone.congr (by simp [StageWritable, h, hl])
      | some k => exact (hsome _).congr (by simp [StageWritable, h, hl])
    next =>
      -- an operator that is no stage the shell writes gives no document
      have hw : ¬ StageWritable stage := by
        unfold StageWritable
        rw [h]
        split <;> simp_all
      simp only [pure_bind, Option.map_none]
      exact hnone.congr (by simp [hw])

theorem marks_pipelineDocuments (stages : List Node) :
    Marks (pipelineDocuments stages) (¬ ∀ stage ∈ stages, StageWritable stage) := by
  unfold pipelineDocuments
  refine marks_foldlM _ fun docs stage _ => ?_
  exact marks_stageDocument_bind stage (fun _ => marks_pure _) (marks_giveUp docs)

/-! ### Commands -/

/-- The arguments a command prints besides its filter are written as they are. -/
def ArgumentsWritable (q : Node) : Command → Prop
  | .findMany | .findOne => ∀ k ∈ q.children .projections, KeyWritable k
  | .distinct => NamesField q
  | .updateOne | .updateMany | .findOneAndUpdate | .upsert =>
    ∀ u ∈ q.children .updates, UpdateWritable u
  | .aggregate => ∀ stage ∈ q.children .aggregation, StageWritable stage
  | .runCommand | .unknown => False
  | .countDocuments | .deleteMany | .deleteOne | .findOneAndDelete | .estimatedDocumentCount
  | .insertOne | .insertMany | .replaceOne | .findOneAndReplace => True

theorem marks_commandArguments (q : Node) (command : Command) (filter : Doc) :
    Marks (commandArguments q command filter) (¬ ArgumentsWritable q command) := by
  cases command with
  | findMany | findOne =>
    simp only [commandArguments]
    split
    next h => exact (marks_pure _).congr (by simp [ArgumentsWritable, List.isEmpty_iff.1 h])
    next =>
      exact ((marks_keyDocument _).bind fun _ => marks_pure _).congr (by simp [ArgumentsWritable])
  | distinct =>
    simp only [commandArguments]
    apply Marks.congr
    · apply marks_fieldKey_bind q
      · intro key
        exact (marks_pure _).bind fun _ => marks_pure _
      · intro _
        exact (marks_markIncomplete.bind fun _ => (marks_runtimeVar _ _).bind fun _ =>
          marks_pure _).congr (by simp)
    · simp [ArgumentsWritable]
  | updateOne | updateMany | findOneAndUpdate | upsert =>
    exact ((marks_updateDocument _).bind fun _ => marks_pure _).congr (by simp [ArgumentsWritable])
  | aggregate =>
    exact ((marks_pipelineDocuments _).bind fun _ => marks_pure _).congr
      (by simp [ArgumentsWritable])
  | runCommand | unknown => exact (marks_giveUp _).congr (by simp [ArgumentsWritable])
  | countDocuments | deleteMany | deleteOne | findOneAndDelete | estimatedDocumentCount
  | insertOne | insertMany | replaceOne | findOneAndReplace =>
    exact (marks_pure _).congr (by simp [ArgumentsWritable])

/-- Naming the collection only declares variables for what is missing. -/
theorem marks_collectionAccess (r : Option CollectionRef) : Marks (collectionAccess r) False := by
  unfold collectionAccess
  dsimp only
  split
  · refine (marks_pure _).bind_false fun _ => ?_
    split
    · exact (marks_pure _).bind_false fun _ => marks_pure _
    · exact (marks_runtimeVar _ _).bind_false fun _ => marks_pure _
  · refine (marks_runtimeVar _ _).bind_false fun _ => ?_
    split
    · exact (marks_pure _).bind_false fun _ => marks_pure _
    · exact (marks_runtimeVar _ _).bind_false fun _ => marks_pure _

theorem command_getD_eq_findMany (q : Node) :
    q.command?.getD .unknown = .findMany ↔ q.command? = some .findMany := by
  cases q.command? <;> simp

/-- Writing the body of a query marks the script exactly when its filter, its command's
arguments or, for a find of many documents, its sort keys are not writable. -/
theorem marks_queryBody (ctx : Context) (q : Node) :
    Marks (queryBody ctx q) (¬ ((∀ c ∈ q.children .filter, Writable c) ∧
      ArgumentsWritable q (q.command?.getD .unknown) ∧
      (q.command? = some .findMany → ∀ k ∈ q.children .sorts, KeyWritable k))) := by
  unfold queryBody
  refine ((marks_collectionAccess _).bind fun access => (marks_filterDocument _).bind fun filter =>
    (marks_commandArguments _ _ _).bind fun args =>
      show Marks _ (q.command?.getD .unknown = .findMany ∧
        ¬ ∀ k ∈ q.children .sorts, KeyWritable k) from ?_).congr ?_
  · by_cases hfind : q.command?.getD .unknown = .findMany
    · rw [if_pos (beq_iff_eq.2 hfind)]
      by_cases hsorts : (q.children .sorts).isEmpty = true
      · rw [if_pos hsorts]
        exact ((marks_pure _).bind fun _ => marks_pure _).congr
          (by simp [List.isEmpty_iff.1 hsorts])
      · rw [if_neg hsorts]
        exact ((marks_keyDocument _).bind fun _ => (marks_pure _).bind fun _ =>
          marks_pure _).congr (by simp [hfind])
    · rw [if_neg (by simpa using hfind)]
      exact (marks_pure _).congr (by simp [hfind])
  · rw [command_getD_eq_findMany, false_or, not_and_or, not_and_or, Classical.not_imp]

/-! ### Runnable queries -/

/-- A query whose script runs as it is: it names a valid namespace, its filter is writable,
and so are the arguments its command prints and, for a find of many documents, its sort
keys. -/
@[mk_iff]
structure Runnable (q : Node) : Prop where
  target : ∃ ns, q.namespace? = some ns ∧ ns.isValid = true
  filter : ∀ c ∈ q.children .filter, Writable c
  arguments : ArgumentsWritable q (q.command?.getD .unknown)
  sorts : q.command? = some .findMany → ∀ k ∈ q.children .sorts, KeyWritable k

/-- The script of a query is runnable when the query is `Runnable` and incomplete otherwise,
with the same text either way. -/
theorem formatQuery_cases (ctx : Context) (q : Node) : ∃ t,
    (formatQuery ctx q = .canBeRun t ∧ Runnable q) ∨
    (formatQuery ctx q = .incomplete t ∧ ¬ Runnable q) := by
  have hbody := marks_queryBody ctx q {}
  rcases hrun : (queryBody ctx q).run {} with ⟨body, script⟩
  rw [hrun] at hbody
  refine ⟨script.finish ctx body, ?_⟩
  unfold formatQuery
  rw [hrun]
  dsimp only
  rw [runnable_iff]
  -- writing starts from a script not yet marked
  have hb : script.incomplete = true ↔ ¬ ((∀ c ∈ q.children .filter, Writable c) ∧
      ArgumentsWritable q (q.command?.getD .unknown) ∧
      (q.command? = some .findMany → ∀ k ∈ q.children .sorts, KeyWritable k)) := by
    simpa [Id.run] using hbody
  cases hq : q.namespace? with
  | none => exact .inr ⟨rfl, by simp⟩
  | some ns =>
    dsimp only
    by_cases hc : (ns.isValid && !script.incomplete) = true
    · rw [if_pos hc]
      simp only [Bool.and_eq_true, Bool.not_eq_true'] at hc
      exact .inl ⟨rfl, ⟨ns, rfl, hc.1⟩, not_not.1 (mt hb.2 (by simp [hc.2]))⟩
    · rw [if_neg hc]
      refine .inr ⟨rfl, fun ⟨⟨ns', hns', hv⟩, hx⟩ => hc ?_⟩
      cases hns'
      have hs : script.incomplete = false := by simpa using mt hb.1 (not_not.2 hx)
      simp [hv, hs]

/-- A written query runs as it is exactly when it is `Runnable`; otherwise it is incomplete.
The filter counts whatever the command, and the sort keys for a find of many documents
only. -/
theorem formatQuery_runnable_iff (ctx : Context) (q : Node) :
    ((∃ t, formatQuery ctx q = .canBeRun t) ↔ Runnable q) ∧
    ((∃ t, formatQuery ctx q = .incomplete t) ↔ ¬ Runnable q) := by
  obtain ⟨t, ⟨h, hr⟩ | ⟨h, hr⟩⟩ := formatQuery_cases ctx q
  · simp [h, hr]
  · simp [h, hr]

/-- An aggregation prints no filter, yet a filter it cannot write makes its script incomplete:
the namespace here is valid and the one stage, `{"$match": {"age": 1}}`, is written as it is,
while the query's own filter holds a predicate with an unknown operator. -/
theorem aggregate_incomplete_by_unprinted_filter :
    let age : Node := .mk (.expr 4) [.named .eq,
      .field (.named .fromSchema (.expr 4) "age" "age"),
      .value (.constant (.expr 4) (.int32 1) .int32)]
    let q : Node := .mk (.expr 1) [.command .aggregate,
      .collection (.known none (.expr 1) ⟨"shop", "users"⟩ none),
      .branch .filter [.mk (.expr 2) [.named .unknown]],
      .branch .aggregation [.mk (.expr 3) [.named .«match», .branch .filter [age]]]]
    q.namespace? = some ⟨"shop", "users"⟩ ∧
      (∀ stage ∈ q.children .aggregation, StageWritable stage) ∧
      ∃ t, formatQuery {} q = .incomplete t := by
  intro age q
  have hage : Writable age :=
    Writable.comparison rfl rfl (by decide) (by decide) ⟨_, rfl, by decide⟩ trivial
  have hfilter : ¬ ∀ c ∈ q.children .filter, Writable c :=
    fun h => not_writable_of_unknown rfl (h _ (List.mem_singleton_self _))
  refine ⟨rfl, ?_, ?_⟩
  · intro stage hstage
    rw [show q.children .aggregation = [.mk (.expr 3) [.named .«match», .branch .filter [age]]]
      from rfl, List.mem_singleton] at hstage
    subst hstage
    intro c hc
    rw [show c = age from List.mem_singleton.1 hc]
    exact hage
  · obtain ⟨t, ⟨_, hr⟩ | ⟨h, _⟩⟩ := formatQuery_cases {} q
    · exact absurd hr.filter hfilter
    · exact ⟨t, h⟩

end Shell

end QueryScope
