import QueryScope.Bson.Union
/-!
# Assignability

Whether a value of one type may be stored in a field of another:

* a computed type behaves as its base, on either side;
* `any` on either side fits;
* `null` fits `null` and unions containing `null`, and nothing else;
* a union value fits when each of its non-`null` members does (a union of `null` alone fits
  where `null` does), and fits `null` only when all its members are `null`;
* a union field takes a value one of its members takes;
* a document fits a document that has each of its fields with a type the field fits;
* an array fits an array of a type its element fits, and otherwise fits where its element
  fits;
* an enum fits a superset enum and `string`; `int` widens to `long`, `double` to `decimal`;
* any value fits an array of a type it fits;
* otherwise the two types must be equal.

The recursion always shrinks one of the two types, so it ends on all inputs.
-/

namespace QueryScope

namespace Bson

/-- A list has a positive size. -/
theorem sizeOf_list_pos (ms : List Bson) : 0 < sizeOf ms := by
  cases ms <;> simp <;> omega

/-- A member without `null` is smaller than the union's list. -/
theorem sizeOf_lt_of_mem_nonNull {m : Bson} {ms : List Bson} (h : m ∈ nonNull ms) :
    sizeOf m < sizeOf ms :=
  List.sizeOf_lt_of_mem (List.mem_filter.mp h).1

/-- A field type is smaller than the field list. -/
theorem sizeOf_field_lt {k : String} {t : Bson} {fs : List (String × Bson)} (h : (k, t) ∈ fs) :
    sizeOf t < sizeOf fs := by
  have := List.sizeOf_lt_of_mem h
  simp at this
  omega

/-- Whether a value of type `v` may be stored in a field of type `f`. -/
def assignable (v f : Bson) : Bool :=
  match v, f with
  | .computed b _, f => assignable b f
  | v, .computed b _ => assignable v b
  | .any, _ => true
  | _, .any => true
  | .null, .null => true
  | .null, .anyOf ms => hasNull ms
  | .null, _ => false
  | .anyOf ms, .null => ms.all (· == .null)
  | .anyOf ms, f =>
    match nonNull ms with
    | [] => assignable .null f
    | _ => (nonNull ms).attach.all fun ⟨m, _⟩ => assignable m f
  | v, .anyOf ms => ms.attach.any fun ⟨m, _⟩ => assignable v m
  | .object vs, .object es =>
    vs.attach.all fun ⟨(k, t), _⟩ =>
      match es.attach.find? (fun e => e.1.1 == k) with
      | some ⟨(_, e), _⟩ => assignable t e
      | none => false
  | .object _, _ => false
  | .array a, .array b => assignable a b
  | .array a, f => assignable a f
  | .enumeration ms _, .enumeration es _ => ms.all (es.contains ·)
  | .enumeration _ _, .string => true
  | .int32, .int64 => true
  | .double, .decimal128 => true
  | v, .array e => assignable v e
  | v, f => v == f
termination_by sizeOf v + sizeOf f
decreasing_by
  all_goals simp_wf
  all_goals first
    | omega
    | exact sizeOf_list_pos _
    | (have h := sizeOf_lt_of_mem_nonNull ‹_›; omega)
    | (have h := List.sizeOf_lt_of_mem ‹_›; omega)
    | (rename_i h₁ _ h₂
       have := sizeOf_field_lt h₁
       have := sizeOf_field_lt h₂
       omega)

end Bson

end QueryScope
