import Mathlib.Logic.Basic
import Mathlib.Tactic.MkIffOfInductiveProp
import QueryScope.Shell.Query
/-!
# What the shell writes as it is

Writing a query as a shell script notes, in the script's `incomplete` flag, every part that it
could not write faithfully. This module says, one part at a time, exactly when that happens.

`Marks m p` says that the writing step `m` sets the flag exactly when `p` holds and otherwise
leaves it as it found it. The flag is never cleared, so a step's condition is the disjunction
of its parts' conditions (`Marks.bind`), and a loop's is "some item fails"
(`marks_foldlM`).

The conditions are said without the writer:

* a node *names its field* when its field reference is there and not unknown, and *has a
  written value* when its value is known when writing, comes from the program at run time, or
  is computed from a named field;
* a filter predicate is `Writable` when every clause of a combinator is, an element match
  names its field and its clauses are writable, and any other known operator names its field
  and has a written value;
* an update is `UpdateWritable` when each update of a combination is, and any other known
  update names its field and, unless it unsets the field, has a writable filter or a written
  value;
* a projection or sort key is `KeyWritable` when it has a known operator, names its field and
  has a written value.

Main statements: `marks_addPredicate`, `marks_addUpdate` and `marks_keyDocument`.
-/

namespace QueryScope

namespace Shell

variable {α β : Type}

/-! ### Steps that mark the script incomplete -/

/-- The step `m` marks the script incomplete exactly when `p` holds, whatever the state it
starts from, and never clears the mark. -/
def Marks (m : Writing α) (p : Prop) : Prop :=
  ∀ s, (Id.run (m.run s)).2.incomplete = true ↔ s.incomplete = true ∨ p

theorem Marks.congr {m : Writing α} {p q : Prop} (h : Marks m p) (hpq : p ↔ q) : Marks m q := by
  intro s
  rw [h s, hpq]

/-- Two steps in a row mark the script when either does. -/
theorem Marks.bind {m : Writing α} {f : α → Writing β} {p q : Prop}
    (hm : Marks m p) (hf : ∀ a, Marks (f a) q) : Marks (m >>= f) (p ∨ q) := by
  intro s
  rw [StateT.run_bind, Id.run_bind, hf, hm, or_assoc]

theorem Marks.bind_false {m : Writing α} {f : α → Writing β} (hm : Marks m False)
    (hf : ∀ a, Marks (f a) False) : Marks (m >>= f) False :=
  (hm.bind hf).congr or_self_iff

theorem marks_pure (a : α) : Marks (pure a : Writing α) False := by
  intro s
  simp

theorem marks_markIncomplete : Marks markIncomplete True := by
  intro s
  simp [markIncomplete]

/-- Declaring a variable leaves the mark alone. -/
theorem marks_runtimeVar (name : String) (t : Bson) : Marks (runtimeVar name t) False := by
  intro s
  simp [runtimeVar]

/-- Giving up on a part: mark the script and go on with what was written so far. -/
theorem marks_giveUp (a : α) : Marks (markIncomplete >>= fun _ => pure a) True :=
  (marks_markIncomplete.bind fun _ => marks_pure a).congr (by simp)

/-- A loop marks the script exactly when the step for some item does. -/
theorem marks_foldlM {f : β → α → Writing β} {ok : α → Prop} :
    ∀ {l : List α} (init : β), (∀ b, ∀ a ∈ l, Marks (f b a) (¬ ok a)) →
      Marks (l.foldlM f init) (¬ ∀ a ∈ l, ok a)
  | [], init, _ => (marks_pure init).congr (by simp)
  | a :: l, init, hf => by
    rw [List.foldlM_cons]
    refine ((hf init a (by simp)).bind fun b =>
      marks_foldlM b fun b' a' ha' => hf b' a' (by simp [ha'])).congr ?_
    rw [List.forall_mem_cons, not_and_or]

/-! ### Fields and values -/

/-- The node names its field: its field reference is there and not unknown. -/
def NamesField (n : Node) : Prop := ∃ r, n.fieldRef? = some r ∧ r ≠ .unknown

/-- The node's value is written as it is: known when writing, a variable of the program, or
the path of the field it is computed from. -/
def WritesValue (n : Node) : Prop :=
  match n.valueRef? with
  | some (.constant ..) | some (.inferred ..) | some (.runtime ..) => True
  | some (.computed _ t) => (fieldPath? t).isSome
  | some .unknown | none => False

/-- A step that goes on from the key of a node's field marks the script when the field is
unknown, or when the step after it does. A field reference that is missing gives no key, and
every caller then gives up. -/
theorem marks_fieldKey_bind {f : Option String → Writing β} {q : Prop} (n : Node)
    (hsome : ∀ key, Marks (f (some key)) q) (hnone : n.fieldRef? = none → Marks (f none) True) :
    Marks (fieldKey n >>= f) (¬ NamesField n ∨ q) := by
  have hnamed : NamesField n ↔ n.fieldRef? ≠ none ∧ n.fieldRef? ≠ some .unknown := by
    unfold NamesField
    cases n.fieldRef? <;> simp
  unfold fieldKey
  split
  next h =>
    rw [pure_bind]
    exact (hnone h).congr (by simp [hnamed, h])
  next h =>
    simp only [bind_assoc, pure_bind]
    refine (marks_markIncomplete.bind fun _ => (marks_runtimeVar _ _).bind fun _ =>
      hsome _).congr ?_
    simp [hnamed, h]
  next r hr h =>
    cases r with
    | unknown => exact absurd rfl hr
    | named k s p d =>
      rw [pure_bind]
      exact (hsome _).congr (by simp [hnamed, h])

theorem marks_valueDoc (n : Node) : Marks (valueDoc n) (¬ WritesValue n) := by
  unfold valueDoc
  dsimp only
  split
  case h_1 h | h_2 h => exact (marks_pure _).congr (by simp [WritesValue, h])
  case h_3 h => exact (marks_runtimeVar _ _).congr (by simp [WritesValue, h])
  case h_4 t h =>
    split
    next hp => exact (marks_pure _).congr (by simp [WritesValue, h, hp])
    next hp =>
      exact (marks_markIncomplete.bind fun _ => marks_runtimeVar _ _).congr
        (by simp [WritesValue, h, hp])
  case h_5 h | h_6 h =>
    exact (marks_markIncomplete.bind fun _ => marks_runtimeVar _ _).congr
      (by simp [WritesValue, h])

/-! ### Filters -/

/-- A filter predicate that the shell writes as it is. -/
inductive Writable : Node → Prop
  /-- `and`, `or`, `nor` and `not` are written through their clauses. -/
  | combinator {n : Node} {o : Operator} : n.operator? = some o → o.isCombinator = true →
      (∀ c ∈ n.children .filter, Writable c) → Writable n
  /-- An element match is written as its field and the filter of its clauses. -/
  | elemMatch {n : Node} : n.operator? = some .elemMatch → NamesField n →
      (∀ c ∈ n.children .filter, Writable c) → Writable n
  /-- Any other known operator compares its field with its value. -/
  | comparison {n : Node} {o : Operator} : n.operator? = some o → o.isCombinator = false →
      o ≠ .elemMatch → o ≠ .unknown → NamesField n → WritesValue n → Writable n

section FilterShapes

variable {n : Node} {o : Operator}

theorem writable_combinator_iff (h : n.operator? = some o) (hc : o.isCombinator = true) :
    Writable n ↔ ∀ c ∈ n.children .filter, Writable c := by
  constructor
  · rintro (⟨_, _, hall⟩ | ⟨h', _, _⟩ | ⟨h', hc', _, _, _, _⟩)
    · exact hall
    · cases h.symm.trans h'
      simp [Operator.isCombinator] at hc
    · cases h.symm.trans h'
      simp [hc] at hc'
  · exact Writable.combinator h hc

theorem writable_elemMatch_iff (h : n.operator? = some .elemMatch) :
    Writable n ↔ NamesField n ∧ ∀ c ∈ n.children .filter, Writable c := by
  constructor
  · rintro (⟨h', hc', _⟩ | ⟨_, hf, hall⟩ | ⟨h', _, he, _, _, _⟩)
    · cases h.symm.trans h'
      simp [Operator.isCombinator] at hc'
    · exact ⟨hf, hall⟩
    · cases h.symm.trans h'
      exact absurd rfl he
  · exact fun ⟨hf, hall⟩ => Writable.elemMatch h hf hall

theorem writable_comparison_iff (h : n.operator? = some o) (hc : o.isCombinator = false)
    (he : o ≠ .elemMatch) (hu : o ≠ .unknown) : Writable n ↔ NamesField n ∧ WritesValue n := by
  constructor
  · rintro (⟨h', hc', _⟩ | ⟨h', _, _⟩ | ⟨_, _, _, _, hf, hv⟩)
    · cases h.symm.trans h'
      simp [hc] at hc'
    · cases h.symm.trans h'
      exact absurd rfl he
    · exact ⟨hf, hv⟩
  · exact fun ⟨hf, hv⟩ => Writable.comparison h hc he hu hf hv

theorem not_writable_of_unknown (h : n.operator? = some .unknown) : ¬ Writable n := by
  rintro (⟨h', hc', _⟩ | ⟨h', _, _⟩ | ⟨h', _, _, hu, _, _⟩)
  · cases h.symm.trans h'
    simp [Operator.isCombinator] at hc'
  · cases h.symm.trans h'
  · cases h.symm.trans h'
    exact hu rfl

theorem not_writable_of_none (h : n.operator? = none) : ¬ Writable n := by
  rintro (⟨h', _, _⟩ | ⟨h', _, _⟩ | ⟨h', _, _, _, _, _⟩) <;> simp [h] at h'

end FilterShapes

theorem isCombinator_eq_false {o : Operator} (ha : o ≠ .«and») (ho : o ≠ .«or») (hn : o ≠ .nor)
    (hnot : o ≠ .«not») : o.isCombinator = false := by
  unfold Operator.isCombinator
  split <;> simp_all

/-- The negation of one clause goes on from the clause's `{"$op": value}` condition, or from
nothing when the clause is not a comparison or has no field; a condition is there only for a
comparison, and then the clause is writable exactly when its field and value are. -/
theorem marks_negatedCondition_bind {f : Option (String × Doc) → Writing β} (inner : Node)
    (hsome : ∀ x, Marks (f (some x)) False) (hnone : Marks (f none) (¬ Writable inner)) :
    Marks (negatedCondition inner >>= f) (¬ Writable inner) := by
  unfold negatedCondition
  split
  next => rw [pure_bind]; exact hnone
  next o h =>
    split
    next => rw [pure_bind]; exact hnone
    next hop =>
      simp only [Bool.or_eq_true, beq_iff_eq, not_or, Bool.not_eq_true] at hop
      obtain ⟨⟨hc, hu⟩, he⟩ := hop
      have hw := writable_comparison_iff h hc he hu
      rw [bind_assoc]
      apply Marks.congr
      · apply marks_fieldKey_bind inner
        · intro key
          rw [bind_assoc]
          exact (marks_valueDoc inner).bind fun _ => by rw [pure_bind]; exact hsome _
        · intro hnil
          rw [pure_bind]
          exact hnone.congr (by simp [hw, NamesField, hnil])
      · rw [hw, not_and_or, or_false]

theorem marks_addPredicates {ns : List Node}
    (ih : ∀ n ∈ ns, ∀ doc, Marks (addPredicate n doc) (¬ Writable n)) (doc : Doc) :
    Marks (addPredicates ns doc) (¬ ∀ n ∈ ns, Writable n) := by
  induction ns generalizing doc with
  | nil =>
    rw [addPredicates]
    exact (marks_pure doc).congr (by simp)
  | cons n rest hrest =>
    rw [addPredicates]
    refine ((ih n (by simp) doc).bind fun d => hrest (fun m hm => ih m (by simp [hm])) d).congr ?_
    rw [List.forall_mem_cons, not_and_or]

theorem marks_clauses {ns : List Node}
    (ih : ∀ n ∈ ns, ∀ doc, Marks (addPredicate n doc) (¬ Writable n)) :
    Marks (clauses ns) (¬ ∀ n ∈ ns, Writable n) := by
  induction ns with
  | nil =>
    rw [clauses]
    exact (marks_pure _).congr (by simp)
  | cons n rest hrest =>
    rw [clauses]
    refine ((ih n (by simp) _).bind fun _ =>
      (hrest fun m hm => ih m (by simp [hm])).bind fun _ => marks_pure _).congr ?_
    rw [or_false, List.forall_mem_cons, not_and_or]

/-- Adding a predicate to a filter marks the script exactly when the predicate is not
writable. -/
theorem marks_addPredicate (n : Node) (doc : Doc) :
    Marks (addPredicate n doc) (¬ Writable n) := by
  -- the clauses are smaller than their node, so the statement holds of them first
  have ih : ∀ c ∈ n.children .filter, ∀ doc, Marks (addPredicate c doc) (¬ Writable c) :=
    fun c hc doc => marks_addPredicate c doc
  have hclauses : ∀ k, Marks (do pure (doc.insert k (.array (← clauses (n.children .filter)))))
      (¬ ∀ c ∈ n.children .filter, Writable c) :=
    fun _ => ((marks_clauses ih).bind fun _ => marks_pure _).congr (by rw [or_false])
  rw [addPredicate]
  split
  case h_1 h | h_2 h | h_3 h => exact (hclauses _).congr (by rw [writable_combinator_iff h rfl])
  case h_4 h =>
    -- a negated comparison is written in place and any other negation as `$nor` of its
    -- clauses; both mark the script exactly when a clause is not writable
    rw [writable_combinator_iff h rfl]
    split
    next inner hinner =>
      rw [hinner] at hclauses ⊢
      refine (marks_negatedCondition_bind inner (fun x => ?_) ((hclauses _).congr ?_)).congr ?_
      · obtain ⟨key, cond⟩ := x
        exact marks_pure _
      all_goals simp
    next =>
      rw [pure_bind]
      exact hclauses _
  case h_5 h =>
    apply Marks.congr
    · apply marks_fieldKey_bind n
      · intro key
        exact (marks_addPredicates ih _).bind fun _ => marks_pure _
      · intro _
        exact marks_giveUp doc
    · rw [writable_elemMatch_iff h, or_false, not_and_or]
  case h_6 h => exact (marks_giveUp doc).congr (by simp [not_writable_of_unknown h])
  case h_7 h => exact (marks_giveUp doc).congr (by simp [not_writable_of_none h])
  case h_8 o ha ho hn hnot he hu h =>
    have hw := writable_comparison_iff h (isCombinator_eq_false ha ho hn hnot) he hu
    apply Marks.congr
    · apply marks_fieldKey_bind n
      · intro key
        exact (marks_valueDoc n).bind fun _ => marks_pure _
      · intro _
        exact marks_giveUp doc
    · rw [hw, or_false, not_and_or]
termination_by sizeOf n
decreasing_by
  have := List.sizeOf_lt_of_mem hc
  have := Node.sizeOf_children_lt n .filter
  omega

theorem marks_filterDocument (ns : List Node) :
    Marks (filterDocument ns) (¬ ∀ n ∈ ns, Writable n) :=
  marks_addPredicates (fun n _ doc => marks_addPredicate n doc) .empty

/-! ### Updates -/

/-- What an update writes after its field is written as it is: nothing when it unsets the
field, its filter when it has one, and its value otherwise. -/
def OperandWritable (n : Node) (o : Operator) : Prop :=
  o = .unset ∨ match n.branch? .filter with
    | some cs => ∀ c ∈ cs, Writable c
    | none => WritesValue n

/-- An update that the shell writes as it is. -/
inductive UpdateWritable : Node → Prop
  /-- A combination is written as each of its updates. -/
  | combine {n : Node} : n.operator? = some .combine →
      (∀ u ∈ n.children .updates, UpdateWritable u) → UpdateWritable n
  /-- Any other known update sets its field from its operand. -/
  | assign {n : Node} {o : Operator} : n.operator? = some o → o ≠ .combine → o ≠ .unknown →
      NamesField n → OperandWritable n o → UpdateWritable n

section UpdateShapes

variable {n : Node} {o : Operator}

theorem updateWritable_combine_iff (h : n.operator? = some .combine) :
    UpdateWritable n ↔ ∀ u ∈ n.children .updates, UpdateWritable u := by
  constructor
  · rintro (⟨_, hall⟩ | ⟨h', hc, _, _, _⟩)
    · exact hall
    · cases h.symm.trans h'
      exact absurd rfl hc
  · exact UpdateWritable.combine h

theorem updateWritable_assign_iff (h : n.operator? = some o) (hc : o ≠ .combine)
    (hu : o ≠ .unknown) : UpdateWritable n ↔ NamesField n ∧ OperandWritable n o := by
  constructor
  · rintro (⟨h', _⟩ | ⟨h', _, _, hf, hop⟩)
    · cases h.symm.trans h'
      exact absurd rfl hc
    · cases h.symm.trans h'
      exact ⟨hf, hop⟩
  · exact fun ⟨hf, hop⟩ => UpdateWritable.assign h hc hu hf hop

theorem not_updateWritable_of_unknown (h : n.operator? = some .unknown) :
    ¬ UpdateWritable n := by
  rintro (⟨h', _⟩ | ⟨h', _, hu, _, _⟩)
  · cases h.symm.trans h'
  · cases h.symm.trans h'
    exact hu rfl

theorem not_updateWritable_of_none (h : n.operator? = none) : ¬ UpdateWritable n := by
  rintro (⟨h', _⟩ | ⟨h', _, _, _, _⟩) <;> simp [h] at h'

end UpdateShapes

theorem marks_addUpdates {ns : List Node}
    (ih : ∀ u ∈ ns, ∀ doc, Marks (addUpdate u doc) (¬ UpdateWritable u)) (doc : Doc) :
    Marks (addUpdates ns doc) (¬ ∀ u ∈ ns, UpdateWritable u) := by
  induction ns generalizing doc with
  | nil =>
    rw [addUpdates]
    exact (marks_pure doc).congr (by simp)
  | cons u rest hrest =>
    rw [addUpdates]
    refine ((ih u (by simp) doc).bind fun d => hrest (fun m hm => ih m (by simp [hm])) d).congr ?_
    rw [List.forall_mem_cons, not_and_or]

/-- Adding an update marks the script exactly when the update is not writable. -/
theorem marks_addUpdate (n : Node) (doc : Doc) :
    Marks (addUpdate n doc) (¬ UpdateWritable n) := by
  have ih : ∀ u ∈ n.children .updates, ∀ doc, Marks (addUpdate u doc) (¬ UpdateWritable u) :=
    fun u hu doc => marks_addUpdate u doc
  rw [addUpdate]
  split
  next h => exact (marks_addUpdates ih doc).congr (by rw [updateWritable_combine_iff h])
  next h => exact (marks_giveUp doc).congr (by simp [not_updateWritable_of_unknown h])
  next h => exact (marks_giveUp doc).congr (by simp [not_updateWritable_of_none h])
  next o hc hu h =>
    apply Marks.congr
    · apply marks_fieldKey_bind n
      · intro key
        show Marks _ (¬ OperandWritable n o)
        dsimp only
        split
        next hunset =>
          exact ((marks_pure _).bind fun _ => marks_pure _).congr
            (by simp [OperandWritable, eq_of_beq hunset])
        next hunset =>
          have ho : o ≠ .unset := by simpa using hunset
          split
          next cs hcs =>
            exact ((marks_filterDocument cs).bind fun _ => marks_pure _).congr
              (by simp [OperandWritable, ho, hcs])
          next hcs =>
            exact ((marks_valueDoc n).bind fun _ => marks_pure _).congr
              (by simp [OperandWritable, ho, hcs])
      · intro _
        exact marks_giveUp doc
    · rw [updateWritable_assign_iff h hc hu, not_and_or]
termination_by sizeOf n
decreasing_by
  have := List.sizeOf_lt_of_mem hu
  have := Node.sizeOf_children_lt n .updates
  omega

theorem marks_updateDocument (ns : List Node) :
    Marks (updateDocument ns) (¬ ∀ u ∈ ns, UpdateWritable u) :=
  marks_addUpdates (fun u _ doc => marks_addUpdate u doc) .empty

/-! ### Projections and sort keys -/

/-- A projection or sort key that the shell writes as it is. -/
@[mk_iff]
structure KeyWritable (n : Node) : Prop where
  operator : ∃ o, n.operator? = some o ∧ o ≠ .unknown
  field : NamesField n
  value : WritesValue n

/-- A document of keys marks the script exactly when some key is not writable. -/
theorem marks_keyDocument (keys : List Node) :
    Marks (keyDocument keys) (¬ ∀ k ∈ keys, KeyWritable k) := by
  unfold keyDocument
  refine marks_foldlM _ fun doc key _ => ?_
  apply Marks.congr
  · apply marks_fieldKey_bind key
    · intro f
      show Marks _ (¬ (∃ o, key.operator? = some o ∧ o ≠ .unknown) ∨ ¬ WritesValue key)
      split
      case h_1 h | h_2 h => exact (marks_giveUp doc).congr (by simp [h])
      case h_3 h _ _ => cases h
      case h_4 o _ hu h _ =>
        have hu : o ≠ .unknown := hu
        exact ((marks_valueDoc key).bind fun _ => marks_pure _).congr (by simp [h, hu])
    · intro _
      show Marks _ True
      split
      case h_1 | h_2 | h_3 => exact marks_giveUp doc
      case h_4 h => cases h
  · rw [keyWritable_iff, not_and_or, not_and_or, or_left_comm]

end Shell

end QueryScope
