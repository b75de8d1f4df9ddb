import QueryScope.Shell.Query
/-!
# What a filter document keeps

A filter document is written predicate by predicate, and each predicate adds at most one
entry, the same whatever the script it is written into (`gives_addPredicate`):

* a comparison adds its field with its value for an equality, and with `{"$op": value}`
  otherwise;
* a negation of one comparison adds the comparison's field with `{"$not": {"$op": value}}`;
* an element match adds its field with `{"$elemMatch": filter}`;
* `and`, `or`, `nor` and any other negation (as `$nor`) add an array of one document per
  clause.

`entryOf` says which, without the writer. An entry whose key the document already holds is
merged with the value there. A value under a key stands for the entries of an operator object,
or for an equality with any other value; merging keeps the conditions of both values when both
are operator objects, and only those of the new value otherwise (`conditions_merge`).

Main statement: `filterDocument_keeps_conditions_iff`. A filter document keeps every condition
of its predicates exactly when the entries that share a key are all operator objects. An
equality after another comparison of the same field, or two `$and` combinators, keep only the
last (`equality_replaces_comparison`).
-/

namespace QueryScope

namespace Shell

namespace Doc

/-- Whether a document is an object. -/
def isObject : Doc → Bool
  | .object _ => true
  | _ => false

/-- The conditions a value stands for under a key: the entries of an object of operators, or
an equality with any other value. -/
def conditions : Doc → List (String × Doc)
  | .object es => es
  | v => [(quote "$eq", v)]

/-- The conditions an object holds under a key, none for a key it lacks. -/
def conditionsAt (d : Doc) (k : String) : List (String × Doc) :=
  match d with
  | .object es => ((es.lookup k).map conditions).getD []
  | _ => []

/-- The document with an entry added, when there is one. -/
def add? (d : Doc) : Option (String × Doc) → Doc
  | none => d
  | some e => d.insert e.1 e.2

@[simp] theorem add?_none (d : Doc) : d.add? none = d := rfl

@[simp] theorem add?_some (d : Doc) (e : String × Doc) : d.add? (some e) = d.insert e.1 e.2 :=
  rfl

end Doc

/-! ### What a predicate writes -/

/-- The key a node's field is written under. -/
def fieldKeyOf (n : Node) : Option String :=
  match n.fieldRef? with
  | none => none
  | some .unknown => some ("[" ++ identifier "field" ++ "]")
  | some r => r.path?.map quote

/-- The value a node is written with. -/
def valueOf (n : Node) : Doc :=
  let name := ((n.fieldRef?).bind FieldRef.path?).getD "value"
  match n.valueRef? with
  | some (.constant _ v _) | some (.inferred _ v _) => .raw v.text
  | some (.computed _ t) => ((fieldPath? t).map Doc.string).getD (.raw (identifier name))
  | _ => .raw (identifier name)

/-- The condition a negation of a single comparison writes. -/
def negatedEntry (inner : Node) : Option (String × Doc) :=
  match inner.operator? with
  | none => none
  | some o =>
    if o.isCombinator || o == .unknown || o == .elemMatch then none
    else (fieldKeyOf inner).map fun key => (key, .object [(operatorKey o, valueOf inner)])

mutual
/-- The entry a predicate adds to a filter document, none when it adds nothing. -/
def entryOf (n : Node) : Option (String × Doc) :=
  match n.operator? with
  | some .«and» => some (operatorKey .«and», .array (clauseDocs (n.children .filter)))
  | some .«or» => some (operatorKey .«or», .array (clauseDocs (n.children .filter)))
  | some .nor => some (operatorKey .nor, .array (clauseDocs (n.children .filter)))
  | some .«not» =>
    let negated := match n.children .filter with
      | [inner] => negatedEntry inner
      | _ => none
    match negated with
    | some (key, cond) => some (key, .object [(operatorKey .«not», cond)])
    | none => some (operatorKey .nor, .array (clauseDocs (n.children .filter)))
  | some .elemMatch => (fieldKeyOf n).map fun key =>
    (key, .object [(operatorKey .elemMatch, entriesDoc (n.children .filter) .empty)])
  | some .unknown | none => none
  | some o => (fieldKeyOf n).map fun key =>
    (key, if o == .eq then valueOf n else .object [(operatorKey o, valueOf n)])
termination_by sizeOf n
decreasing_by all_goals (have h := Node.sizeOf_children_lt n .filter; omega)

/-- The document of predicates added in order. -/
def entriesDoc (ns : List Node) (doc : Doc) : Doc :=
  match ns with
  | [] => doc
  | n :: rest => entriesDoc rest (doc.add? (entryOf n))
termination_by sizeOf ns

/-- One document per clause. -/
def clauseDocs (ns : List Node) : List Doc :=
  match ns with
  | [] => []
  | n :: rest => Doc.empty.add? (entryOf n) :: clauseDocs rest
termination_by sizeOf ns
end

/-! ### Steps with a known result -/

variable {α β : Type}

/-- The step `m` gives `a`, whatever the script it starts from. -/
def Gives (m : Writing α) (a : α) : Prop := ∀ s, (Id.run (m.run s)).1 = a

theorem gives_pure (a : α) : Gives (pure a : Writing α) a := fun _ => rfl

theorem Gives.bind {m : Writing α} {f : α → Writing β} {a : α} {b : β} (hm : Gives m a)
    (hf : Gives (f a) b) : Gives (m >>= f) b := by
  intro s
  rw [StateT.run_bind, Id.run_bind, hm s]
  exact hf _

theorem gives_unit (m : Writing Unit) : Gives m () := fun _ => rfl

theorem gives_runtimeVar (name : String) (t : Bson) :
    Gives (runtimeVar name t) (.raw (identifier name)) := fun _ => rfl

/-- Giving up on a part leaves what was written so far. -/
theorem gives_giveUp (a : α) : Gives (markIncomplete >>= fun _ => pure a) a :=
  (gives_unit _).bind (gives_pure a)

theorem gives_fieldKey (n : Node) : Gives (fieldKey n) (fieldKeyOf n) := by
  unfold fieldKey
  split
  next h =>
    rw [fieldKeyOf, h]
    exact gives_pure _
  next h =>
    rw [fieldKeyOf, h]
    exact (gives_unit _).bind ((gives_runtimeVar _ _).bind (gives_pure _))
  next r hr h =>
    cases r with
    | unknown => exact absurd rfl hr
    | named k s p d =>
      rw [fieldKeyOf, h]
      exact gives_pure _

theorem gives_valueDoc (n : Node) : Gives (valueDoc n) (valueOf n) := by
  unfold valueDoc
  dsimp only
  split
  case h_1 h | h_2 h =>
    rw [valueOf, h]
    exact gives_pure _
  case h_3 h =>
    rw [valueOf, h]
    exact gives_runtimeVar _ _
  case h_4 t h =>
    rw [valueOf, h]
    split
    next p hp =>
      simp only [hp, Option.map_some, Option.getD_some]
      exact gives_pure _
    next hp =>
      simp only [hp, Option.map_none, Option.getD_none]
      exact (gives_unit _).bind (gives_runtimeVar _ _)
  case h_5 h | h_6 h =>
    rw [valueOf, h]
    exact (gives_unit _).bind (gives_runtimeVar _ _)

theorem gives_negatedCondition (inner : Node) :
    Gives (negatedCondition inner) (negatedEntry inner) := by
  unfold negatedCondition
  split
  next h =>
    rw [negatedEntry, h]
    exact gives_pure _
  next o h =>
    rw [negatedEntry, h]
    by_cases hc : (o.isCombinator || o == .unknown || o == .elemMatch) = true
    · simp only [if_pos hc]
      exact gives_pure _
    · simp only [if_neg hc]
      refine (gives_fieldKey inner).bind ?_
      cases fieldKeyOf inner with
      | none => exact gives_pure _
      | some key => exact (gives_valueDoc inner).bind (gives_pure _)

/-! ### Filters -/

theorem gives_addPredicates {ns : List Node}
    (ih : ∀ n ∈ ns, ∀ doc, Gives (addPredicate n doc) (doc.add? (entryOf n))) (doc : Doc) :
    Gives (addPredicates ns doc) (entriesDoc ns doc) := by
  induction ns generalizing doc with
  | nil =>
    rw [addPredicates, entriesDoc]
    exact gives_pure doc
  | cons n rest hrest =>
    rw [addPredicates, entriesDoc]
    exact (ih n (by simp) doc).bind (hrest (fun m hm => ih m (by simp [hm])) _)

theorem gives_clauses {ns : List Node}
    (ih : ∀ n ∈ ns, ∀ doc, Gives (addPredicate n doc) (doc.add? (entryOf n))) :
    Gives (clauses ns) (clauseDocs ns) := by
  induction ns with
  | nil =>
    rw [clauses, clauseDocs]
    exact gives_pure _
  | cons n rest hrest =>
    rw [clauses, clauseDocs]
    exact (ih n (by simp) _).bind ((hrest fun m hm => ih m (by simp [hm])).bind (gives_pure _))

/-- Adding a predicate to a filter document adds the predicate's entry, whatever the script. -/
theorem gives_addPredicate (n : Node) (doc : Doc) :
    Gives (addPredicate n doc) (doc.add? (entryOf n)) := by
  -- the clauses are smaller than their node, so the statement holds of them first
  have ih : ∀ c ∈ n.children .filter, ∀ doc, Gives (addPredicate c doc) (doc.add? (entryOf c)) :=
    fun c hc doc => gives_addPredicate c doc
  have hclauses : ∀ k, Gives (do pure (doc.insert k (.array (← clauses (n.children .filter)))))
      (doc.insert k (.array (clauseDocs (n.children .filter)))) :=
    fun _ => (gives_clauses ih).bind (gives_pure _)
  -- the spec stays folded while the writer is split, and is opened arm by arm
  rw [addPredicate]
  split
  case h_1 h | h_2 h | h_3 h =>
    rw [entryOf, h]
    exact hclauses _
  case h_4 h =>
    rw [entryOf, h]
    -- a single clause may be negated in place; otherwise the clauses go under `$nor`
    generalize n.children .filter = cs at hclauses ⊢
    rcases cs with _ | ⟨inner, _ | ⟨c, cs⟩⟩
    case cons.nil =>
      simp only
      refine (gives_negatedCondition inner).bind ?_
      cases negatedEntry inner with
      | none => exact hclauses _
      | some e => exact gives_pure _
    all_goals
      simp only [pure_bind, Doc.add?_some]
      exact hclauses _
  case h_5 h =>
    rw [entryOf, h]
    refine (gives_fieldKey n).bind ?_
    cases fieldKeyOf n with
    | none => exact gives_giveUp doc
    | some key => exact (gives_addPredicates ih _).bind (gives_pure _)
  case h_6 h | h_7 h =>
    rw [entryOf, h]
    exact gives_giveUp doc
  case h_8 o ha ho hn hnot he hu h =>
    rw [entryOf, h]
    -- the other operators are ruled out by the arm's hypotheses
    simp only
    refine (gives_fieldKey n).bind ?_
    cases fieldKeyOf n with
    | none => exact gives_giveUp doc
    | some key => exact (gives_valueDoc n).bind (gives_pure _)
termination_by sizeOf n
decreasing_by
  have := List.sizeOf_lt_of_mem hc
  have := Node.sizeOf_children_lt n .filter
  omega

theorem entriesDoc_eq_foldl (ns : List Node) (doc : Doc) :
    entriesDoc ns doc = (ns.filterMap entryOf).foldl (fun d e => d.insert e.1 e.2) doc := by
  induction ns generalizing doc with
  | nil => rw [entriesDoc]; rfl
  | cons n rest ih =>
    rw [entriesDoc, ih, List.filterMap_cons]
    cases entryOf n <;> rfl

/-- A filter document is its predicates' entries added in order, whatever the script. -/
theorem gives_filterDocument (ns : List Node) :
    Gives (filterDocument ns) ((ns.filterMap entryOf).foldl (fun d e => d.insert e.1 e.2) .empty) := by
  rw [← entriesDoc_eq_foldl]
  exact gives_addPredicates (fun n _ doc => gives_addPredicate n doc) .empty

/-! ### Entries under one key -/

namespace Doc

/-- The value a key holds after another value is added under it. -/
def mergeInto (o : Option Doc) (v : Doc) : Option Doc := some ((o.map (merge · v)).getD v)

theorem lookup_insertEntry_self (k : String) (v : Doc) (es : List (String × Doc)) :
    (insertEntry k v es).lookup k = mergeInto (es.lookup k) v := by
  induction es with
  | nil => simp [insertEntry, mergeInto]
  | cons e es ih =>
    obtain ⟨k', d⟩ := e
    rw [insertEntry]
    by_cases hk : k' = k
    · subst hk
      simp [mergeInto]
    · have hne : (k == k') = false := beq_eq_false_iff_ne.2 (Ne.symm hk)
      simp [List.lookup_cons, hk, hne, ih]

theorem lookup_insertEntry_of_ne {k k' : String} (h : k' ≠ k) (v : Doc)
    (es : List (String × Doc)) : (insertEntry k v es).lookup k' = es.lookup k' := by
  induction es with
  | nil =>
    have hne : (k' == k) = false := beq_eq_false_iff_ne.2 h
    simp [insertEntry, List.lookup_cons, hne]
  | cons e es ih =>
    obtain ⟨k'', d⟩ := e
    rw [insertEntry]
    by_cases hk : k'' = k
    · subst hk
      have hne : (k' == k'') = false := beq_eq_false_iff_ne.2 h
      simp [List.lookup_cons, hne]
    · simp [List.lookup_cons, hk, ih]

/-- What a key holds after entries are added in order: the values added under it, merged in
turn into what it held before. -/
theorem lookup_foldl_insertEntry (k : String) (es acc : List (String × Doc)) :
    (es.foldl (fun acc e => insertEntry e.1 e.2 acc) acc).lookup k =
      ((es.filter (·.1 == k)).map (·.2)).foldl mergeInto (acc.lookup k) := by
  induction es generalizing acc with
  | nil => rfl
  | cons e es ih =>
    obtain ⟨k', v⟩ := e
    rw [List.foldl_cons, ih]
    by_cases hk : k' = k
    · subst hk
      simp [lookup_insertEntry_self]
    · have hne : (k' == k) = false := beq_eq_false_iff_ne.2 hk
      simp [hne, lookup_insertEntry_of_ne (Ne.symm hk)]

theorem foldl_insert_object (es acc : List (String × Doc)) :
    es.foldl (fun d e => d.insert e.1 e.2) (object acc) =
      object (es.foldl (fun acc e => insertEntry e.1 e.2 acc) acc) := by
  induction es generalizing acc with
  | nil => rfl
  | cons e es ih => exact ih _

/-- The conditions a document built from entries holds under a key: those of the values added
under it, merged in turn. -/
theorem conditionsAt_foldl_insert (es : List (String × Doc)) (k : String) :
    (es.foldl (fun d e => d.insert e.1 e.2) empty).conditionsAt k =
      ((((es.filter (·.1 == k)).map (·.2)).foldl mergeInto none).map conditions).getD [] := by
  rw [empty, foldl_insert_object, conditionsAt, lookup_foldl_insertEntry]
  rfl

theorem foldl_mergeInto_some (vs : List Doc) (d : Doc) :
    vs.foldl mergeInto (some d) = some (vs.foldl merge d) := by
  induction vs generalizing d with
  | nil => rfl
  | cons v vs ih => exact ih (merge d v)

/-! ### Conditions kept by merging -/

/-- Merging keeps the conditions of both values when both are operator objects, and only those
of the new value otherwise. -/
theorem conditions_merge (d v : Doc) :
    (merge d v).conditions =
      if d.isObject ∧ v.isObject then d.conditions ++ v.conditions else v.conditions := by
  cases d <;> cases v <;> simp [merge, conditions, isObject]

theorem isObject_merge (d v : Doc) : (merge d v).isObject = (d.isObject || v.isObject) := by
  cases d <;> cases v <;> rfl

theorem conditions_of_isObject_eq_false {d : Doc} (h : d.isObject = false) :
    d.conditions = [(quote "$eq", d)] := by
  cases d with
  | object es => simp [isObject] at h
  | raw t | array xs => rfl

section OneCondition

variable {vs : List Doc}

theorem length_flatMap_conditions (hvs : ∀ v ∈ vs, v.conditions.length = 1) :
    (vs.flatMap conditions).length = vs.length := by
  induction vs with
  | nil => rfl
  | cons v vs ih =>
    rw [List.flatMap_cons, List.length_append, hvs v (by simp),
      ih fun w hw => hvs w (by simp [hw]), List.length_cons, Nat.add_comm]

/-- Merging values of one condition each never gives more conditions than they have
together. -/
theorem length_conditions_foldl_merge_le (hvs : ∀ v ∈ vs, v.conditions.length = 1) (d : Doc) :
    (vs.foldl merge d).conditions.length ≤ d.conditions.length + vs.length := by
  induction vs generalizing d with
  | nil => simp
  | cons v vs ih =>
    have hv := hvs v (by simp)
    have hstep : (merge d v).conditions.length ≤ d.conditions.length + 1 := by
      rw [conditions_merge]
      split <;> simp [hv]
    have hrest := ih (fun w hw => hvs w (by simp [hw])) (merge d v)
    rw [List.foldl_cons, List.length_cons]
    omega

/-- Values of one condition each, merged in turn into `d`, keep all the conditions exactly when
there are none, or when they and `d` are all operator objects. -/
theorem conditions_foldl_merge_iff (hvs : ∀ v ∈ vs, v.conditions.length = 1) {d : Doc}
    (hd : d.conditions ≠ []) :
    (vs.foldl merge d).conditions = d.conditions ++ vs.flatMap conditions ↔
      vs = [] ∨ d.isObject ∧ ∀ v ∈ vs, v.isObject := by
  induction vs generalizing d with
  | nil => simp
  | cons v vs ih =>
    have hv := hvs v (by simp)
    have hrest : ∀ w ∈ vs, w.conditions.length = 1 := fun w hw => hvs w (by simp [hw])
    rw [List.foldl_cons, List.flatMap_cons]
    by_cases hobj : d.isObject ∧ v.isObject
    · -- two operator objects are joined, and the rest decides
      have hm : (merge d v).conditions = d.conditions ++ v.conditions := by
        rw [conditions_merge, if_pos hobj]
      have hd' : (merge d v).conditions ≠ [] := by simp [hm, hd]
      rw [← List.append_assoc, ← hm, ih hrest hd', isObject_merge]
      simp only [hobj.1, hobj.2, Bool.true_or, true_and, List.cons_ne_nil, false_or,
        List.forall_mem_cons]
      exact or_iff_right_of_imp fun h => by simp [h]
    · -- otherwise only the new value's one condition is left, fewer than the values have
      have hm : (merge d v).conditions = v.conditions := by
        rw [conditions_merge, if_neg hobj]
      have hle := length_conditions_foldl_merge_le hrest (merge d v)
      have hpos : 0 < d.conditions.length := List.length_pos_iff.2 hd
      have hlen := length_flatMap_conditions hrest
      constructor
      · intro h
        have := congrArg List.length h
        rw [hm, hv] at hle
        simp only [List.length_append, hv, hlen] at this
        omega
      · rintro (h | ⟨hd', hall⟩)
        · exact absurd h (List.cons_ne_nil v vs)
        · exact absurd ⟨hd', hall v (by simp)⟩ hobj

/-- The conditions a key holds after values of one condition each are added under it: all of
them exactly when there is at most one, or all are operator objects. -/
theorem conditions_foldl_mergeInto_iff (hvs : ∀ v ∈ vs, v.conditions.length = 1) :
    ((vs.foldl mergeInto none).map conditions).getD [] = vs.flatMap conditions ↔
      vs.length ≤ 1 ∨ ∀ v ∈ vs, v.isObject := by
  cases vs with
  | nil => simp
  | cons v vs =>
    have hv := hvs v (by simp)
    have hd : v.conditions ≠ [] := fun h => by simp [h] at hv
    rw [List.foldl_cons, show mergeInto none v = some v from rfl, foldl_mergeInto_some,
      Option.map_some, Option.getD_some, List.flatMap_cons,
      conditions_foldl_merge_iff (fun w hw => hvs w (by simp [hw])) hd]
    simp

/-- A document built from entries of one condition each keeps all the conditions written under
a key exactly when at most one entry has that key, or all those entries are operator
objects. -/
theorem conditionsAt_foldl_insert_iff {es : List (String × Doc)}
    (hone : ∀ e ∈ es, e.2.conditions.length = 1) (k : String) :
    (es.foldl (fun d e => d.insert e.1 e.2) empty).conditionsAt k =
        (es.filter (·.1 == k)).flatMap (·.2.conditions) ↔
      (2 ≤ (es.filter (·.1 == k)).length → ∀ e ∈ es, e.1 = k → e.2.isObject) := by
  -- the values written under `k`, each of one condition
  have hvals : ∀ v ∈ (es.filter (·.1 == k)).map (·.2), v.conditions.length = 1 := by
    simp only [List.mem_map, List.mem_filter]
    rintro v ⟨e, ⟨he, -⟩, rfl⟩
    exact hone e he
  have hflat : (es.filter (·.1 == k)).flatMap (·.2.conditions) =
      ((es.filter (·.1 == k)).map (·.2)).flatMap conditions := by
    simp [List.flatMap_map]
  have hobjects : (∀ v ∈ (es.filter (·.1 == k)).map (·.2), v.isObject) ↔
      ∀ e ∈ es, e.1 = k → e.2.isObject := by
    simp only [List.mem_map, List.mem_filter, beq_iff_eq]
    constructor
    · intro h e he hk
      exact h e.2 ⟨e, ⟨he, hk⟩, rfl⟩
    · rintro h v ⟨e, ⟨he, hk⟩, rfl⟩
      exact h e he hk
  rw [conditionsAt_foldl_insert, hflat, conditions_foldl_mergeInto_iff hvals, List.length_map,
    hobjects]
  constructor
  · rintro (h | h) h2
    · omega
    · exact h
  · intro h
    by_cases h2 : 2 ≤ (es.filter (·.1 == k)).length
    · exact .inr (h h2)
    · exact .inl (by omega)

end OneCondition

end Doc

/-! ### Each predicate writes one condition -/

theorem isObject_valueOf (n : Node) : (valueOf n).isObject = false := by
  unfold valueOf
  split
  case h_3 t _ => cases fieldPath? t <;> rfl
  all_goals rfl

/-- A predicate's entry stands for exactly one condition. -/
theorem length_conditions_entryOf {n : Node} {e : String × Doc} (h : entryOf n = some e) :
    e.2.conditions.length = 1 := by
  rw [entryOf] at h
  split at h
  case h_1 | h_2 | h_3 => cases h; rfl
  case h_4 =>
    -- `{"$not": condition}` under the clause's key, or a `$nor` array of the clauses
    split at h
    · dsimp only at h
      split at h <;> (cases h; rfl)
    · dsimp only at h
      cases h
      rfl
  case h_5 =>
    obtain ⟨key, -, rfl⟩ := Option.map_eq_some_iff.1 h
    rfl
  case h_6 | h_7 => cases h
  case h_8 o _ _ _ _ _ _ _ =>
    obtain ⟨key, -, rfl⟩ := Option.map_eq_some_iff.1 h
    split
    · rw [Doc.conditions_of_isObject_eq_false (isObject_valueOf n)]
      rfl
    · rfl

/-- Each clause of a combinator is a document of its own, holding that clause's entry. -/
theorem clauseDocs_eq_map (ns : List Node) :
    clauseDocs ns = ns.map fun n => .object (entryOf n).toList := by
  induction ns with
  | nil => rw [clauseDocs]; rfl
  | cons n rest ih =>
    rw [clauseDocs, ih, List.map_cons]
    cases entryOf n <;> rfl

/-! ### What a filter document keeps -/

/-- A filter document is its predicates' entries added in order, whatever the script it is
written into: one entry per predicate that writes one, standing for one condition, with a
document of its own for each clause of a combinator. Entries under one key are merged, which
keeps the conditions of both values only between operator objects; so the document keeps every
condition of its predicates exactly when the entries that share a key are all operator
objects. -/
theorem filterDocument_keeps_conditions_iff (ns : List Node) (s : Script) :
    let d := (Id.run ((filterDocument ns).run s)).1
    let es := ns.filterMap entryOf
    d = es.foldl (fun d e => d.insert e.1 e.2) Doc.empty ∧
    (∀ e ∈ es, e.2.conditions.length = 1) ∧
    (∀ cs, clauseDocs cs = cs.map fun c => .object (entryOf c).toList) ∧
    (∀ old new : Doc, (old.merge new).conditions =
      if old.isObject ∧ new.isObject then old.conditions ++ new.conditions
      else new.conditions) ∧
    ((∀ k, d.conditionsAt k = (es.filter (·.1 == k)).flatMap (·.2.conditions)) ↔
      ∀ k, 2 ≤ (es.filter (·.1 == k)).length → ∀ e ∈ es, e.1 = k → e.2.isObject) := by
  intro d es
  have hd : d = es.foldl (fun d e => d.insert e.1 e.2) Doc.empty := gives_filterDocument ns s
  have hone : ∀ e ∈ es, e.2.conditions.length = 1 := by
    intro e he
    obtain ⟨n, -, hn⟩ := List.mem_filterMap.1 he
    exact length_conditions_entryOf hn
  refine ⟨hd, hone, clauseDocs_eq_map, Doc.conditions_merge, ?_⟩
  rw [hd]
  exact forall_congr' (Doc.conditionsAt_foldl_insert_iff hone)

/-- `age > 1`, as a filter predicate. -/
def ageAboveOne : Node :=
  .mk (.expr 2) [.named .gt, .field (.named .fromSchema (.expr 2) "age" "age"),
    .value (.constant (.expr 2) (.int32 1) .int32)]

/-- `age = 5`, as a filter predicate. -/
def ageIsFive : Node :=
  .mk (.expr 3) [.named .eq, .field (.named .fromSchema (.expr 3) "age" "age"),
    .value (.constant (.expr 3) (.int32 5) .int32)]

/-- An equality after another comparison of the same field keeps only the equality: the filter
of `age > 1` then `age = 5` is `{"age": {"$eq": 5}}`. -/
theorem equality_replaces_comparison :
    (Id.run ((filterDocument [ageAboveOne, ageIsFive]).run {})).1 =
      .object [(quote "age", .object [(quote "$eq", .raw "5")])] := by
  have habove : entryOf ageAboveOne = some (quote "age", .object [(operatorKey .gt, .raw "1")]) := by
    rw [entryOf]
    rfl
  have his : entryOf ageIsFive = some (quote "age", .raw "5") := by
    rw [entryOf]
    rfl
  rw [gives_filterDocument _ {}, List.filterMap_cons, habove, List.filterMap_cons, his]
  rfl

end Shell

end QueryScope
