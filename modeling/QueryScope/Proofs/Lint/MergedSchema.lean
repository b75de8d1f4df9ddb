import QueryScope.Proofs.Bson.Covering
import QueryScope.Lint.Engine
/-!
# The field check against a merged schema

Two observed schemas of one namespace merge into one that covers both (`Bson.covers_merge`),
so the field check run against the merge reports no more than it reports against them
(`fieldCheck_merged_schema`):

* a field the merged schema lacks, it reports missing against both schemas, with the same
  finding;
* a constant that does not fit its field in the merged schema, it reports again against each
  schema that has the field, at the same source, provided null appears nowhere in the
  constant's type.

Null is the exception: it fits `any`, and not the union `string | any` that merging `any` and
`string` gives, so comparing a field with null is reported against the merged schema and not
against the schema where the field is `any`. A schema with a union of nothing but null is not
observed either: merged with null it becomes null, and its field goes missing
(`fieldCheck_merged_schema_fails`).
-/

namespace QueryScope

namespace Lint

/-- What the field check reports at one node: that the schema lacks the field the node names,
or, when it has the field and the node is not a sort, that the constant the node compares with
it does not fit the field's type. -/
theorem mem_checkField {s : Schema} {n : Node} {i : Insight} :
    i ∈ checkField s n ↔ ∃ source path display,
      n.fieldRef? = some (.named .fromSchema source path display) ∧
      ((s.hasField path = false ∧ i = ⟨source, .fieldDoesNotExist, [display, s.ns.text]⟩) ∨
        (s.hasField path = true ∧ n.operator?.map Operator.role ≠ some .sort ∧
          ∃ valueSource c t, n.valueRef? = some (.constant valueSource c t) ∧
            Bson.assignable t (s.typeOf path) = false ∧
            i = ⟨valueSource, .fieldValueTypeMismatch,
              [display, t.renderNullable, (s.typeOf path).renderNullable]⟩)) := by
  constructor
  · intro h
    unfold checkField at h
    split at h
    next source path display hf =>
      refine ⟨source, path, display, hf, ?_⟩
      split at h
      next hh => exact .inl ⟨by simpa using hh, List.mem_singleton.1 h⟩
      next hh =>
        split at h
        next => simp at h
        next hs =>
          split at h
          next valueSource c t hv =>
            dsimp only at h
            split at h
            next => simp at h
            next ht =>
              exact .inr ⟨by simpa using hh, by simpa using hs, valueSource, c, t, hv,
                by simpa using ht, List.mem_singleton.1 h⟩
          next => simp at h
    next => simp at h
  · rintro ⟨source, path, display, hf, ⟨hh, rfl⟩ | ⟨hh, hs, valueSource, c, t, hv, ht, rfl⟩⟩
    · simp [checkField, hf, hh]
    · have hs' : ((n.operator?.map Operator.role) == some .sort) = false := by simpa using hs
      simp [checkField, hf, hh, hs', hv, ht]

theorem fieldCheck_available (q : Node) (input : LintInput) (s : Schema) :
    fieldCheck q { input with schema := .available s } =
      (schemaReferences q).flatMap (checkField s) := by
  simp [fieldCheck, Metadata.require]

theorem hasField_iff {s : Schema} {path : String} :
    s.hasField path = true ↔ s.typeOf path ≠ .null := by
  unfold Schema.hasField
  constructor
  · intro h hnull
    rw [hnull, Bson.beq_null_self] at h
    cases h
  · intro h
    cases hb : (s.typeOf path == .null)
    · rfl
    · exact absurd (Bson.eq_null_of_beq_null hb) h

/-! ### A covering schema reports less -/

section Covering

variable {ns : Namespace} {f g : Bson} (hc : Bson.Covers f g) (hw : g.wellFormed = true)
  (ho : g.observed = true)
include hc hw ho

/-- A schema whose type covers an observed schema's type has every field the latter has. -/
theorem hasField_of_covers {path : String} (h : (Schema.mk ns g).hasField path = true) :
    (Schema.mk ns f).hasField path = true := by
  rw [hasField_iff] at h ⊢
  rcases Schema.covers_typeOf ns path hc hw ho with hcp | hnull
  · exact Bson.ne_null_of_covers hcp (Schema.typeOf_invariant ns path hw ho).2 h
  · exact absurd hnull h

/-- A constant type free of null that fits a field of an observed schema fits the field in a
schema whose type covers it. -/
theorem assignable_typeOf_of_covers {path : String} {t : Bson}
    (hf : (Schema.mk ns g).hasField path = true) (hv : t.nullFree = true)
    (h : Bson.assignable t ((Schema.mk ns g).typeOf path) = true) :
    Bson.assignable t ((Schema.mk ns f).typeOf path) = true := by
  rcases Schema.covers_typeOf ns path hc hw ho with hcp | hnull
  · obtain ⟨hw', ho'⟩ := Schema.typeOf_invariant ns path hw ho
    exact Bson.assignable_of_covers t hv hcp hw' ho' h
  · exact absurd hnull (hasField_iff.1 hf)

/-- A field missing from a schema whose type covers an observed schema's type is reported
missing against the observed schema too, with the same finding. -/
theorem missing_of_covers {n : Node} {i : Insight} (hi : i ∈ checkField (.mk ns f) n)
    (hk : i.kind = .fieldDoesNotExist) : i ∈ checkField (.mk ns g) n := by
  obtain ⟨source, path, display, hf, ⟨hh, rfl⟩ | ⟨-, -, _, _, _, -, -, rfl⟩⟩ := mem_checkField.1 hi
  · refine mem_checkField.2 ⟨source, path, display, hf, .inl ⟨?_, rfl⟩⟩
    cases hg : (Schema.mk ns g).hasField path
    · rfl
    · rw [hasField_of_covers hc hw ho hg] at hh
      cases hh
  · cases hk

/-- A constant free of null that does not fit its field in a schema whose type covers an
observed schema's type does not fit it in the observed schema either, when that schema has
the field: the mismatch is reported there at the same source. -/
theorem mismatch_of_covers {n : Node} {i : Insight} (hi : i ∈ checkField (.mk ns f) n)
    (hk : i.kind = .fieldValueTypeMismatch)
    (hv : ∀ source c t, n.valueRef? = some (.constant source c t) → t.nullFree = true)
    (hfield : ∀ j ∈ checkField (.mk ns g) n, j.kind ≠ .fieldDoesNotExist) :
    ∃ j ∈ checkField (.mk ns g) n, j.kind = .fieldValueTypeMismatch ∧ j.source = i.source := by
  obtain ⟨source, path, display, hf, ⟨-, rfl⟩ | ⟨-, hs, vs, c, t, hval, ht, rfl⟩⟩ :=
    mem_checkField.1 hi
  · cases hk
  · -- the observed schema has the field, or the check would report it missing
    have hg : (Schema.mk ns g).hasField path = true := by
      cases hg : (Schema.mk ns g).hasField path
      · exact absurd rfl (hfield _ (mem_checkField.2 ⟨source, path, display, hf, .inl ⟨hg, rfl⟩⟩))
      · rfl
    have ht' : Bson.assignable t ((Schema.mk ns g).typeOf path) = false := by
      cases hfit : Bson.assignable t ((Schema.mk ns g).typeOf path)
      · rfl
      · rw [assignable_typeOf_of_covers hc hw ho hg (hv vs c t hval) hfit] at ht
        cases ht
    exact ⟨_, mem_checkField.2 ⟨source, path, display, hf, .inr ⟨hg, hs, vs, c, t, hval, ht', rfl⟩⟩,
      rfl, rfl⟩

end Covering

/-! ### Merged schemas -/

/-- The field check against the merge of two well-formed observed schemas of one namespace
reports a field missing only where it reports it missing against both schemas; and where it
reports that a constant free of null does not fit a field, it reports that at the same source
against each schema that has the field. -/
theorem fieldCheck_merged_schema (q : Node) (input : LintInput) (ns : Namespace) (a b : Bson)
    (hwa : a.wellFormed = true) (hwb : b.wellFormed = true) (hoa : a.observed = true)
    (hob : b.observed = true) :
    (∀ i ∈ fieldCheck q { input with schema := .available (.mk ns (a.merge b)) },
      i.kind = .fieldDoesNotExist →
        i ∈ fieldCheck q { input with schema := .available (.mk ns a) } ∧
        i ∈ fieldCheck q { input with schema := .available (.mk ns b) }) ∧
    (∀ n ∈ schemaReferences q, ∀ i ∈ checkField (.mk ns (a.merge b)) n,
      i.kind = .fieldValueTypeMismatch →
      (∀ source c t, n.valueRef? = some (.constant source c t) → t.nullFree = true) →
      ∀ s ∈ [a, b], (∀ j ∈ checkField (.mk ns s) n, j.kind ≠ .fieldDoesNotExist) →
        ∃ j ∈ fieldCheck q { input with schema := .available (.mk ns s) },
          j.kind = .fieldValueTypeMismatch ∧ j.source = i.source) := by
  obtain ⟨hca, hcb⟩ := Bson.covers_merge a b hwa hwb hoa hob
  simp only [fieldCheck_available]
  refine ⟨fun i hi hk => ?_, fun n hn i hi hk hv s hs hfield => ?_⟩
  · obtain ⟨n, hn, hin⟩ := List.mem_flatMap.1 hi
    exact ⟨List.mem_flatMap.2 ⟨n, hn, missing_of_covers hca hwa hoa hin hk⟩,
      List.mem_flatMap.2 ⟨n, hn, missing_of_covers hcb hwb hob hin hk⟩⟩
  · have hcs : Bson.Covers (a.merge b) s ∧ s.wellFormed = true ∧ s.observed = true := by
      rcases List.mem_pair.1 hs with rfl | rfl
      exacts [⟨hca, hwa, hoa⟩, ⟨hcb, hwb, hob⟩]
    obtain ⟨j, hj, hjk, hjs⟩ := mismatch_of_covers hcs.1 hcs.2.1 hcs.2.2 hi hk hv hfield
    exact ⟨j, List.mem_flatMap.2 ⟨n, hn, hj⟩, hjk, hjs⟩

theorem fieldCheck_merged_schema_documents :
    Bson.wellFormed (.object [("n", .int32)]) = true ∧
    Bson.wellFormed (.object [("n", .string)]) = true ∧
    Bson.observed (.object [("n", .int32)]) = true ∧
    Bson.observed (.object [("n", .string)]) = true ∧
    ((∀ i ∈ fieldCheck (.mk (.expr 10) [.named .eq, .field (.named .fromSchema (.expr 11) "n" "n"),
          .value (.constant (.expr 12) (.int32 1) .int32)])
        { schema := .available (.mk ⟨"shop", "orders"⟩
          (Bson.merge (.object [("n", .int32)]) (.object [("n", .string)]))) },
      i.kind = .fieldDoesNotExist →
        i ∈ fieldCheck (.mk (.expr 10) [.named .eq, .field (.named .fromSchema (.expr 11) "n" "n"),
            .value (.constant (.expr 12) (.int32 1) .int32)])
          { schema := .available (.mk ⟨"shop", "orders"⟩ (.object [("n", .int32)])) } ∧
        i ∈ fieldCheck (.mk (.expr 10) [.named .eq, .field (.named .fromSchema (.expr 11) "n" "n"),
            .value (.constant (.expr 12) (.int32 1) .int32)])
          { schema := .available (.mk ⟨"shop", "orders"⟩ (.object [("n", .string)])) }) ∧
    (∀ n ∈ schemaReferences (.mk (.expr 10) [.named .eq,
          .field (.named .fromSchema (.expr 11) "n" "n"),
          .value (.constant (.expr 12) (.int32 1) .int32)]),
      ∀ i ∈ checkField (.mk ⟨"shop", "orders"⟩
          (Bson.merge (.object [("n", .int32)]) (.object [("n", .string)]))) n,
      i.kind = .fieldValueTypeMismatch →
      (∀ source c t, n.valueRef? = some (.constant source c t) → t.nullFree = true) →
      ∀ s ∈ [Bson.object [("n", .int32)], .object [("n", .string)]],
        (∀ j ∈ checkField (.mk ⟨"shop", "orders"⟩ s) n, j.kind ≠ .fieldDoesNotExist) →
        ∃ j ∈ fieldCheck (.mk (.expr 10) [.named .eq,
            .field (.named .fromSchema (.expr 11) "n" "n"),
            .value (.constant (.expr 12) (.int32 1) .int32)])
          { schema := .available (.mk ⟨"shop", "orders"⟩ s) },
          j.kind = .fieldValueTypeMismatch ∧ j.source = i.source)) := by
  have hwa : Bson.wellFormed (.object [("n", .int32)]) = true := by decide
  have hwb : Bson.wellFormed (.object [("n", .string)]) = true := by decide
  have hoa : Bson.observed (.object [("n", .int32)]) = true := by decide
  have hob : Bson.observed (.object [("n", .string)]) = true := by decide
  exact ⟨hwa, hwb, hoa, hob, fieldCheck_merged_schema _ {} _ _ _ hwa hwb hoa hob⟩

/-! ### Where the hypotheses matter -/

theorem typeOf_f (ns : Namespace) (t : Bson) : (Schema.mk ns t).typeOf "f" = Bson.step "f" t := by
  have hsplit : "f".splitOn "." = ["f"] := by
    rw [String.splitOn, if_neg (by decide), String.splitOnAux, if_neg (by decide),
      if_neg (by decide), String.splitOnAux, if_pos (by decide)]
    decide
  rw [Schema.typeOf_mk, hsplit, List.foldl_cons, List.foldl_nil]

/-- Merging a document field of type `string` with one of type `any` gives the union
`string | any`, against which comparing the field with null is reported, while the schema
where the field is `any` reports nothing; and a field whose type is a union of nothing but null,
merged with null, becomes null, so the merged schema reports the field missing while the first
schema does not. -/
theorem fieldCheck_merged_schema_fails :
    (∃ i ∈ checkField
        (.mk ⟨"shop", "orders"⟩ (Bson.merge (.object [("f", .string)]) (.object [("f", .any)])))
        (.mk (.expr 10) [.named .eq, .field (.named .fromSchema (.expr 11) "f" "f"),
          .value (.constant (.expr 12) .null .null)]),
      i.kind = .fieldValueTypeMismatch) ∧
    checkField (.mk ⟨"shop", "orders"⟩ (.object [("f", .any)]))
        (.mk (.expr 10) [.named .eq, .field (.named .fromSchema (.expr 11) "f" "f"),
          .value (.constant (.expr 12) .null .null)]) = [] ∧
    (∃ i ∈ checkField (.mk ⟨"shop", "orders"⟩
        (Bson.merge (.object [("f", .anyOf [.null])]) (.object [("f", .null)])))
        (.mk (.expr 10) [.named .eq, .field (.named .fromSchema (.expr 11) "f" "f"),
          .value (.constant (.expr 12) .null .null)]),
      i.kind = .fieldDoesNotExist) ∧
    checkField (.mk ⟨"shop", "orders"⟩ (.object [("f", .anyOf [.null])]))
        (.mk (.expr 10) [.named .eq, .field (.named .fromSchema (.expr 11) "f" "f"),
          .value (.constant (.expr 12) .null .null)]) = [] := by
  -- `string` merged with `any` is their union, already in canonical order
  have hsa : Bson.merge .string .any = .anyOf [.string, .any] := by
    rw [Bson.merge]
    · rw [if_neg (by simp [BEq.beq, Bson.beq]), Bson.union, Bson.unionMembers_of_canonical
        ⟨List.pairwise_pair.2 (by decide +kernel), by decide, by decide⟩]
    all_goals simp
  -- a union of nothing but null merged with null is null
  have hnn : Bson.merge (.anyOf [.null]) .null = .null := by
    have hsame : ∀ t, t ∈ Bson.alternatives [.anyOf [.null], .null] ↔
        t ∈ Bson.alternatives [.null] := fun t => by simp [Bson.alternatives]
    rw [Bson.merge]
    · rw [if_neg (by simp [BEq.beq, Bson.beq]), Bson.union,
        Bson.unionMembers_eq_of_alternatives hsame
          (by simp [Bson.alternatives, BEq.beq, Bson.beq])
          (by simp [Bson.alternatives]),
        Bson.unionMembers_of_canonical ⟨by simp [Bson.Distinct], by decide, by simp⟩]
    all_goals simp
  have hnullAny : Bson.assignable .null .any = true := Bson.assignable_any_right _
  refine ⟨?_, ?_, ?_, ?_⟩
  · refine ⟨_, mem_checkField.2 ⟨_, "f", "f", rfl, .inr ⟨?_, by decide, _, _, _, rfl, ?_, rfl⟩⟩,
      rfl⟩
    · rw [hasField_iff, typeOf_f, Bson.merge_object]
      simp [Bson.mergeField, hsa, Bson.insertField, Bson.step]
    · rw [typeOf_f, Bson.merge_object]
      simp [Bson.mergeField, hsa, Bson.insertField, Bson.step, Bson.assignable_null,
        Bson.isNullable, Bson.hasNull, BEq.beq, Bson.beq]
  · refine List.eq_nil_iff_forall_not_mem.2 fun i hi => ?_
    obtain ⟨_, _, _, hf, ⟨hh, -⟩ | ⟨-, -, _, _, _, hv, ht, -⟩⟩ := mem_checkField.1 hi
    · cases hf
      rw [hasField_iff.2 (by simp [typeOf_f, Bson.step])] at hh
      cases hh
    · cases hf
      cases hv
      rw [typeOf_f] at ht
      simp [Bson.step, hnullAny] at ht
  · refine ⟨_, mem_checkField.2 ⟨_, "f", "f", rfl, .inl ⟨?_, rfl⟩⟩, rfl⟩
    rw [Schema.hasField, typeOf_f, Bson.merge_object]
    simp [Bson.mergeField, hnn, Bson.insertField, Bson.step, BEq.beq, Bson.beq]
  · refine List.eq_nil_iff_forall_not_mem.2 fun i hi => ?_
    obtain ⟨_, _, _, hf, ⟨hh, -⟩ | ⟨-, -, _, _, _, hv, ht, -⟩⟩ := mem_checkField.1 hi
    · cases hf
      rw [hasField_iff.2 (by simp [typeOf_f, Bson.step])] at hh
      cases hh
    · cases hf
      cases hv
      rw [typeOf_f] at ht
      simp [Bson.step, Bson.assignable_null, Bson.isNullable, Bson.hasNull, BEq.beq,
        Bson.beq] at ht

end Lint

end QueryScope
