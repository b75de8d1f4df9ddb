import QueryScope.Proofs.Query.NamespaceText
import QueryScope.Query.Node
import QueryScope.Service.Config
import QueryScope.Service.LogFilter
/-!
# The default database of the settings

Settings name a database to assume for every query. Validation accepts it when it is not empty
and has none of `/`, `\`, `.`, space, `"` and `$` (`validate_eq_ok_iff`), while a namespace is
valid when neither part is blank, blank meaning made only of Unicode `White_Space` characters.
The two rules differ: a name of tabs, line breaks or other spaces than the plain one passes
validation and is blank.

Main statement (`AnalyzerConfig.defaultDatabase_namespace_iff`): for settings accepted under
any check of log filters, with default database `d`, and any collection name that is not blank, the namespace of `d` and that
collection is valid, and its text reads back as it, exactly when `d` is not blank; a query
whose database is overwritten with `d` gets the namespace of `d` and its own collection, valid
under the same condition. Validation keeps dots out of `d`, so the text is cut at the dot
that follows `d`. A tab is accepted and gives an empty part (`tabDatabase_accepted_but_blank`).
-/

namespace QueryScope

namespace AnalyzerConfig

/-- Settings are accepted when the three counts are positive, the log filter is accepted and a
default database, if any, is a valid name. -/
theorem validate_eq_ok_iff (acceptsFilter : String → Bool) (c : AnalyzerConfig) :
    c.validate acceptsFilter = .ok () ↔
      0 < c.sampleSize ∧ 0 < c.maxNamespaceHops ∧ 0 < c.maxResolutionDepth ∧
      acceptsFilter c.logFilter = true ∧
      ∀ d, c.defaultDatabase = some d → validDatabase d = true := by
  rcases c with ⟨s, h, r, ins, ex, lf, db⟩
  simp only [validate, List.forIn_cons, List.forIn_nil]
  -- the three counts first, each refused on its own
  by_cases hs : s = 0 <;> by_cases hh : h = 0 <;> by_cases hr : r = 0 <;>
    simp [hs, hh, hr, bind, Except.bind, pure, Except.pure, throw, throwThe, MonadExceptOf.throw]
  -- then the log filter and the database
  cases hv : acceptsFilter lf <;> cases db <;> simp [Nat.pos_iff_ne_zero, hs, hh, hr]

/-- A valid database name is not empty and has no forbidden character. -/
theorem validDatabase_iff {d : String} :
    validDatabase d = true ↔ d ≠ "" ∧ ∀ ch ∈ d.toList, ch ∉ forbiddenInDatabase := by
  simp [validDatabase]

theorem dot_not_mem_of_validDatabase {d : String} (h : validDatabase d = true) : '.' ∉ d.toList :=
  fun hdot => (validDatabase_iff.1 h).2 '.' hdot (by decide)

end AnalyzerConfig

/-! ### Namespaces of a database -/

namespace Namespace

/-- The namespace of a database and a collection is valid when neither is blank. -/
theorem isValid_mk (d coll : String) :
    (⟨d, coll⟩ : Namespace).isValid = (!String.isBlank d && !String.isBlank coll) := rfl

/-- With no dot in the database, a namespace's text reads back as it exactly when it is
valid. -/
theorem parse_text_eq_ok_iff {ns : Namespace} (hdot : '.' ∉ ns.database.toList) :
    parse ns.text = .ok ns ↔ ns.isValid = true := by
  rw [parse_eq_ok_iff]
  exact ⟨fun h => h.2.2, fun h => ⟨rfl, hdot, h⟩⟩

end Namespace

namespace Node

/-- Overwriting the database acts on the collection reference alone. -/
theorem collectionRef?_withDatabase (q : Node) (d : String) :
    (q.withDatabase d).collectionRef? = q.collectionRef?.map (CollectionRef.withDatabase d) := by
  rcases q with ⟨src, cs⟩
  simp only [withDatabase, collectionRef?, Node.components]
  induction cs with
  | nil => rfl
  | cons c cs ih =>
    cases c <;> simp only [List.map_cons, List.findSome?_cons, ih] <;> rfl

/-- A query whose database is overwritten has the namespace of that database and its own
collection. -/
theorem database_of_namespace?_withDatabase {q : Node} {d : String} {ns : Namespace}
    (h : (q.withDatabase d).namespace? = some ns) : ns.database = d := by
  simp only [namespace?, collectionRef?_withDatabase] at h
  cases hr : q.collectionRef? with
  | none => simp [hr] at h
  | some r =>
    -- a bare collection and a known one both take the database
    cases r with
    | known _ _ known _ =>
      simp only [hr, Option.map_some, CollectionRef.withDatabase, Option.some.injEq] at h
      exact h ▸ rfl
    | onlyCollection _ coll =>
      simp only [hr, Option.map_some, CollectionRef.withDatabase, Option.some.injEq] at h
      exact h ▸ rfl
    | unknown => simp [hr, CollectionRef.withDatabase] at h

end Node

/-! ### The default database -/

/-- For settings accepted under any check of log filters, with default database `d`, and any
collection that is not blank, the namespace of `d` and the collection is valid, and its text
reads back as it, exactly when `d` is not blank; so is the namespace a query gets when its
database is overwritten with `d`. -/
theorem AnalyzerConfig.defaultDatabase_namespace_iff {acceptsFilter : String → Bool}
    {c : AnalyzerConfig} {d : String}
    (hc : c.validate acceptsFilter = .ok ()) (hd : c.defaultDatabase = some d) :
    (∀ coll : String, String.isBlank coll = false →
      ((⟨d, coll⟩ : Namespace).isValid = true ↔ String.isBlank d = false) ∧
      (Namespace.parse (⟨d, coll⟩ : Namespace).text = .ok ⟨d, coll⟩ ↔ String.isBlank d = false)) ∧
    (∀ (q : Node) (ns : Namespace), (q.withDatabase d).namespace? = some ns →
      String.isBlank ns.collection = false →
      ns.database = d ∧ (ns.isValid = true ↔ String.isBlank d = false)) := by
  have hdot : '.' ∉ d.toList :=
    dot_not_mem_of_validDatabase (((validate_eq_ok_iff acceptsFilter c).1 hc).2.2.2.2 d hd)
  have hvalid : ∀ coll : String, String.isBlank coll = false →
      ((⟨d, coll⟩ : Namespace).isValid = true ↔ String.isBlank d = false) := by
    intro coll hcoll
    simp [Namespace.isValid_mk, hcoll]
  refine ⟨fun coll hcoll => ⟨hvalid coll hcoll, ?_⟩, fun q ns hns hcoll => ?_⟩
  · rw [Namespace.parse_text_eq_ok_iff hdot]
    exact hvalid coll hcoll
  · have hdb := Node.database_of_namespace?_withDatabase hns
    obtain ⟨db, coll⟩ := ns
    subst hdb
    exact ⟨rfl, hvalid coll hcoll⟩

/-- The log filter of the default settings is well formed. -/
theorem LogFilter.valid_info : LogFilter.valid "info" = true := by
  have hsplit : "info".splitOn "," = ["info"] := by
    rw [String.splitOn, if_neg (by decide), String.splitOnAux, if_neg (by decide),
      if_neg (by decide), String.splitOnAux, if_neg (by decide), if_neg (by decide),
      String.splitOnAux, if_neg (by decide), if_neg (by decide), String.splitOnAux,
      if_neg (by decide), if_neg (by decide), String.splitOnAux, if_pos (by decide)]
    decide
  rw [LogFilter.valid, hsplit]
  decide

/-- The default settings with `shop` as the default database. -/
def AnalyzerConfig.shop : AnalyzerConfig := { defaultDatabase := some "shop" }

theorem AnalyzerConfig.defaultDatabase_namespace_iff_shop :
    AnalyzerConfig.shop.validate LogFilter.valid = .ok () ∧ AnalyzerConfig.shop.defaultDatabase = some "shop" ∧
    ((∀ coll : String, String.isBlank coll = false →
      ((⟨"shop", coll⟩ : Namespace).isValid = true ↔ String.isBlank "shop" = false) ∧
      (Namespace.parse (⟨"shop", coll⟩ : Namespace).text = .ok ⟨"shop", coll⟩ ↔
        String.isBlank "shop" = false)) ∧
    (∀ (q : Node) (ns : Namespace), (q.withDatabase "shop").namespace? = some ns →
      String.isBlank ns.collection = false →
      ns.database = "shop" ∧ (ns.isValid = true ↔ String.isBlank "shop" = false))) := by
  have hc : AnalyzerConfig.shop.validate LogFilter.valid = .ok () :=
    (AnalyzerConfig.validate_eq_ok_iff _ _).2
      ⟨by decide, by decide, by decide, LogFilter.valid_info, fun d hd => by
        cases hd
        decide⟩
  have h := AnalyzerConfig.defaultDatabase_namespace_iff hc rfl
  exact ⟨hc, rfl, h⟩

/-- A tab passes validation as a default database, yet it is blank: the namespace it gives is
not valid, and its text reads as having an empty part. -/
theorem AnalyzerConfig.tabDatabase_accepted_but_blank :
    ({ defaultDatabase := some "\t" } : AnalyzerConfig).validate LogFilter.valid = .ok () ∧
    (⟨"\t", "orders"⟩ : Namespace).isValid = false ∧
    Namespace.parse (⟨"\t", "orders"⟩ : Namespace).text = .error (.emptyPart "\t.orders") := by
  refine ⟨(AnalyzerConfig.validate_eq_ok_iff _ _).2
    ⟨by decide, by decide, by decide, LogFilter.valid_info, fun d hd => ?_⟩, by decide, by rfl⟩
  cases hd
  decide

end QueryScope
