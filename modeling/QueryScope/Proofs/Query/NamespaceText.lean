import QueryScope.Query.Namespace
/-!
# Namespaces read back from their text

A namespace is written `database.collection` and read by splitting the text at its first dot.
The split is characterised once: it fails exactly on a text without a dot
(`splitAtDot_eq_none_iff`), and otherwise cuts the text into a part without a dot, the dot,
and the rest (`splitAtDot_eq_some_iff`). Reading then has one equation for each case
(`parse_of_not_mem`, `parse_of_split`), and the statements below go through these two.

The main statement (`parse_text_iff`) says what reading does on every text. It gives back
exactly the namespaces whose text it was given, when they are valid and their database has no
dot; a dot in the database would be taken for the separator, so such a namespace does not
read back. A text without a dot has no separator. A text whose first dot has a blank part
on either side has an empty part, and these are the only failures.
-/

namespace QueryScope

namespace Namespace

/-! ### The split at the first dot -/

theorem splitAtDot_eq_none_iff {cs : List Char} : splitAtDot cs = none ↔ '.' ∉ cs := by
  induction cs with
  | nil => simp [splitAtDot]
  | cons c cs ih =>
    by_cases hc : c = '.'
    · simp [splitAtDot, hc]
    · simp [splitAtDot, hc, ih, Ne.symm hc]

theorem splitAtDot_eq_some_iff {cs db coll : List Char} :
    splitAtDot cs = some (db, coll) ↔ cs = db ++ '.' :: coll ∧ '.' ∉ db := by
  induction cs generalizing db with
  | nil => simp [splitAtDot]
  | cons c cs ih =>
    by_cases hc : c = '.'
    · -- the first character is the dot: the database part is empty
      subst hc
      cases db with
      | nil => simp [splitAtDot, eq_comm]
      | cons d ds => simp [splitAtDot]; grind
    · cases db with
      | nil => simp [splitAtDot, hc]
      | cons d ds =>
        simp only [splitAtDot, hc, if_false, Option.map_eq_some_iff, Prod.exists, Prod.mk.injEq,
          List.cons_append, List.cons.injEq, List.mem_cons, not_or]
        constructor
        · rintro ⟨a, b, hab, ⟨rfl, rfl⟩, rfl⟩
          obtain ⟨rfl, hdot⟩ := ih.1 hab
          exact ⟨⟨rfl, rfl⟩, Ne.symm hc, hdot⟩
        · rintro ⟨⟨rfl, rfl⟩, -, hdot⟩
          exact ⟨ds, coll, ih.2 ⟨rfl, hdot⟩, ⟨rfl, rfl⟩, rfl⟩

/-- The characters of a namespace's text. -/
theorem toList_text (ns : Namespace) :
    ns.text.toList = ns.database.toList ++ '.' :: ns.collection.toList := by
  simp [text]

/-! ### Reading, case by case -/

/-- A text without a dot has no separator. -/
theorem parse_of_not_mem {s : String} (h : '.' ∉ s.toList) :
    parse s = .error (.missingSeparator s) := by
  rw [parse, splitAtDot_eq_none_iff.2 h]

/-- A text cut at its first dot reads as the namespace of the two parts, when it is valid. -/
theorem parse_of_split {s : String} {db coll : List Char} (h : s.toList = db ++ '.' :: coll)
    (hdb : '.' ∉ db) :
    parse s = if (⟨String.ofList db, String.ofList coll⟩ : Namespace).isValid then
      .ok ⟨String.ofList db, String.ofList coll⟩ else .error (.emptyPart s) := by
  rw [parse, splitAtDot_eq_some_iff.2 ⟨h, hdb⟩]

/-- A text with a dot is cut at its first one. -/
theorem exists_split {s : String} (h : '.' ∈ s.toList) :
    ∃ db coll, s.toList = db ++ '.' :: coll ∧ '.' ∉ db := by
  cases hsplit : splitAtDot s.toList with
  | none => exact absurd h (splitAtDot_eq_none_iff.1 hsplit)
  | some cut => exact ⟨cut.1, cut.2, splitAtDot_eq_some_iff.1 hsplit⟩

/-- A text has one cut at a first dot: two cuts whose first parts have no dot agree. -/
theorem cut_unique {s : String} {db coll : List Char} (h : s.toList = db ++ '.' :: coll)
    (hdb : '.' ∉ db) {db' coll' : String} (hs : s = db' ++ "." ++ coll')
    (hdb' : '.' ∉ db'.toList) : db'.toList = db ∧ coll'.toList = coll := by
  have hs' : s.toList = db'.toList ++ '.' :: coll'.toList := by simp [hs]
  have hsplit := splitAtDot_eq_some_iff.2 ⟨h, hdb⟩
  rw [splitAtDot_eq_some_iff.2 ⟨hs', hdb'⟩, Option.some.injEq, Prod.mk.injEq] at hsplit
  exact hsplit

/-- The namespace of a text's two parts around its first dot is the namespace whose text it
is, once the database has no dot. -/
theorem eq_of_split {s : String} {ns : Namespace} {db coll : List Char}
    (h : s.toList = db ++ '.' :: coll) (hdb : '.' ∉ db) (hs : ns.text = s)
    (hns : '.' ∉ ns.database.toList) :
    (⟨String.ofList db, String.ofList coll⟩ : Namespace) = ns := by
  obtain ⟨hd, hc⟩ := cut_unique h hdb hs.symm hns
  rw [← hd, ← hc, String.ofList_toList, String.ofList_toList]

/-! ### What reading gives -/

/-- Reading gives a namespace exactly when the text is that namespace's text, the namespace
is valid and its database has no dot. -/
theorem parse_eq_ok_iff {s : String} {ns : Namespace} :
    parse s = .ok ns ↔ ns.text = s ∧ '.' ∉ ns.database.toList ∧ ns.isValid = true := by
  by_cases hdot : '.' ∈ s.toList
  · obtain ⟨db, coll, h, hdb⟩ := exists_split hdot
    rw [parse_of_split h hdb]
    constructor
    · intro hok
      split at hok
      · next hvalid =>
        cases hok
        refine ⟨String.ext ?_, by simpa using hdb, hvalid⟩
        simp [toList_text, h]
      · cases hok
    · rintro ⟨hs, hns, hvalid⟩
      rw [eq_of_split h hdb hs hns, if_pos hvalid]
  · rw [parse_of_not_mem hdot]
    constructor
    · intro hok
      cases hok
    · -- the text of a namespace has a dot
      rintro ⟨hs, -, -⟩
      exact absurd (by simp [← hs, toList_text]) hdot

/-- Reading fails for want of a dot exactly when the text has none, and with an empty part
exactly when a part around its first dot is blank. -/
theorem parse_eq_error_iff {s : String} {e : NamespaceError} :
    parse s = .error e ↔
      ('.' ∉ s.toList ∧ e = .missingSeparator s) ∨
      (e = .emptyPart s ∧ ∃ db coll : String, s = db ++ "." ++ coll ∧ '.' ∉ db.toList ∧
        (String.isBlank db = true ∨ String.isBlank coll = true)) := by
  by_cases hdot : '.' ∈ s.toList
  · obtain ⟨db, coll, h, hdb⟩ := exists_split hdot
    rw [parse_of_split h hdb]
    split
    · next hvalid =>
      constructor
      · intro herr
        cases herr
      · rintro (⟨hnd, -⟩ | ⟨-, db', coll', hs, hdb', hblank⟩)
        · exact absurd hdot hnd
        · -- the cut is the valid one, so neither part is blank
          obtain ⟨rfl, rfl⟩ := cut_unique h hdb hs hdb'
          rcases hblank with hb | hb <;> simp [isValid, hb] at hvalid
    · next hvalid =>
      constructor
      · intro herr
        cases herr
        refine .inr ⟨rfl, String.ofList db, String.ofList coll, String.ext (by simp [h]),
          by simpa using hdb, ?_⟩
        cases hb : String.isBlank (String.ofList db) <;> simp_all [isValid]
      · rintro (⟨hnd, -⟩ | ⟨rfl, -⟩)
        · exact absurd hdot hnd
        · rfl
  · rw [parse_of_not_mem hdot]
    simp only [Except.error.injEq, hdot, not_false_eq_true, true_and]
    constructor
    · exact fun he => .inl he.symm
    · rintro (he | ⟨-, db, coll, hs, -⟩)
      · exact he.symm
      · exact absurd (by simp [hs]) hdot

/-- Reading a namespace from a text: it gives back the namespaces whose text it reads, valid
and with no dot in their database, and fails only for want of a dot or for a blank part
around the first one. -/
theorem parse_text_iff (s : String) :
    (∀ ns : Namespace, parse s = .ok ns ↔
      ns.text = s ∧ '.' ∉ ns.database.toList ∧ ns.isValid = true) ∧
    (∀ e : NamespaceError, parse s = .error e ↔
      ('.' ∉ s.toList ∧ e = .missingSeparator s) ∨
      (e = .emptyPart s ∧ ∃ db coll : String, s = db ++ "." ++ coll ∧ '.' ∉ db.toList ∧
        (String.isBlank db = true ∨ String.isBlank coll = true))) :=
  ⟨fun _ => parse_eq_ok_iff, fun _ => parse_eq_error_iff⟩

/-- A collection may hold dots; the database ends at the first one. -/
example : parse "db.coll.sub" = .ok ⟨"db", "coll.sub"⟩ := by rfl

end Namespace

end QueryScope
