import QueryScope.Lint.Engine
import QueryScope.Lint.Gather
/-!
# What gathering reads and what the namespace check reports

Gathering always lists the databases, and reads the collections of a known valid namespace only
when a successful database listing does not leave its database out; the schema and the explain
plan are read only when, further, a successful collection listing does not leave the
collection out (`Gathered`). A failed collection listing therefore does not stop the schema
and the plan from being read. The namespace check reads the same failed listing as "the
collection does not exist".

So the two agree on a missing database: a run that reports one never reports a finding that
needs the collection's schema or plan (`collectionFindings`). They disagree on a missing
collection exactly when the collection listing failed after a successful database listing:
then the collection is reported missing while its fields and index use are checked.

Main statement: `gathered_namespace_findings`; `listingFailure_findings` is a run that reports
a missing collection together with a collection scan on it.
-/

namespace QueryScope

namespace Reads

variable {α β : Type}

/-- Reads whose result, from any call counts, has a property. -/
def Yields (m : Reads α) (p : α → Prop) : Prop := ∀ counts, p (Id.run (m.run counts)).1

theorem yields_true (m : Reads α) : Yields m fun _ => True := fun _ => trivial

theorem yields_pure {a : α} {p : α → Prop} (h : p a) : Yields (pure a) p := fun _ => h

theorem yields_bind {m : Reads α} {f : α → Reads β} {p : α → Prop} {q : β → Prop}
    (hm : Yields m p) (hf : ∀ a, p a → Yields (f a) q) : Yields (m >>= f) q :=
  fun counts => hf _ (hm counts) _

end Reads

theorem Metadata.require_eq_ok_some {α : Type} {m : Metadata α} {v : α} :
    m.require = .ok (some v) ↔ m = .available v := by
  cases m <;> simp [Metadata.require]

theorem Gatherer.excludes_available {names : List String} {name : String} :
    Gatherer.excludes (.available names) name = false ↔ name ∈ names := by
  simp [Gatherer.excludes]

/-! ### What gathering reads -/

/-- What gathering gives for a query: collections only for a known valid namespace whose
database a successful listing does not leave out, and a schema or a plan only when the
collections were listed and a successful listing does not leave the collection out. -/
structure Gathered (q : Node) (input : LintInput) : Prop where
  collections : input.collections ≠ .notApplicable → ∃ d c ns sc,
    q.collectionRef? = some (.known d c ns sc) ∧ ns.isValid = true ∧
      Gatherer.excludes input.databases ns.database = false
  reads : input.schema ≠ .notApplicable ∨ input.explain ≠ .notApplicable →
    input.collections ≠ .notApplicable ∧ ∃ d c ns sc, q.collectionRef? = some (.known d c ns sc) ∧
      Gatherer.excludes input.collections ns.collection = false

theorem gathered_gather (g : Gatherer) (q : Node) : Reads.Yields (g.gather q) (Gathered q) := by
  unfold Gatherer.gather
  refine Reads.yields_bind (Reads.yields_true _) fun dbs _ => ?_
  dsimp only
  split
  next d c ns injected href =>
    split
    next => exact Reads.yields_pure ⟨by simp, by simp⟩
    next hdb =>
      simp only [Bool.or_eq_true, Bool.not_eq_true', not_or, Bool.not_eq_false] at hdb
      refine Reads.yields_bind (Reads.yields_true _) fun colls _ => ?_
      split
      next =>
        refine Reads.yields_pure ⟨fun _ => ⟨d, c, ns, injected, href, hdb.1, ?_⟩, by simp⟩
        simpa using hdb.2
      next hcoll =>
        -- whatever schema and plan are read, the collections were listed and keep the collection
        have hdone : ∀ sc ex,
            Gathered q ⟨sc, Metadata.ofExcept dbs, Metadata.ofExcept colls, ex⟩ := fun _ _ =>
          ⟨fun _ => ⟨d, c, ns, injected, href, hdb.1, by simpa using hdb.2⟩,
            fun _ => ⟨by cases colls <;> simp [Metadata.ofExcept], d, c, ns, injected, href,
              by simpa using hcoll⟩⟩
        split <;> exact Reads.yields_bind (Reads.yields_true _) fun sc _ =>
          Reads.yields_bind (Reads.yields_true _) fun ex _ => Reads.yields_pure (hdone sc ex)
  next => exact Reads.yields_pure ⟨by simp, by simp⟩

/-! ### Which check reports what -/

/-- The findings that need the collection's schema or its explain plan. -/
def collectionFindings : List InsightKind :=
  [.fieldDoesNotExist, .fieldValueTypeMismatch, .queryNotCoveredByIndex, .queryNotUsingEffectiveIndex]

namespace Lint

variable {q : Node} {input : LintInput} {k : InsightKind}

/-- The default engine runs the five checks in order. -/
theorem kind_mem_run_all : k ∈ (run Inspection.all q input).map Insight.kind ↔
    k ∈ (namespaceCheck q input).map Insight.kind ∨ k ∈ (fieldCheck q input).map Insight.kind ∨
      k ∈ (projectionCheck q).map Insight.kind ∨ k ∈ (filtersCheck q).map Insight.kind ∨
        k ∈ (indexCheck q input).map Insight.kind := by
  have hall : Inspection.engine Inspection.all = Inspection.all := by decide
  rw [run, hall]
  simp only [Inspection.all, List.flatMap_cons, List.flatMap_nil, List.append_nil,
    List.map_append, List.mem_append, inspect]

theorem kind_of_mem_checkField {schema : Schema} {n : Node} {i : Insight}
    (h : i ∈ checkField schema n) : i.kind = .fieldDoesNotExist ∨ i.kind = .fieldValueTypeMismatch := by
  unfold checkField at h
  -- a missing field, or a constant that does not fit it; nothing else
  split at h
  next =>
    split at h
    next => simp only [List.mem_singleton] at h; exact .inl (h ▸ rfl)
    next =>
      split at h
      next => simp at h
      next =>
        split at h
        next =>
          dsimp only at h
          split at h
          next => simp at h
          next => simp only [List.mem_singleton] at h; exact .inr (h ▸ rfl)
        next => simp at h
  next => simp at h

theorem kind_of_mem_fieldCheck (h : k ∈ (fieldCheck q input).map Insight.kind) :
    k = .cannotCheck ∨ (k = .fieldDoesNotExist ∨ k = .fieldValueTypeMismatch) ∧
      ∃ schema, input.schema = .available schema := by
  unfold fieldCheck at h
  split at h
  next => simp [cannotCheck] at h; exact .inl h
  next => simp at h
  next schema hschema =>
    obtain ⟨i, hi, rfl⟩ := List.mem_map.1 h
    obtain ⟨n, -, hi⟩ := List.mem_flatMap.1 hi
    exact .inr ⟨kind_of_mem_checkField hi, schema, Metadata.require_eq_ok_some.1 hschema⟩

theorem kind_of_mem_indexCheck (h : k ∈ (indexCheck q input).map Insight.kind) :
    k = .cannotCheck ∨ (k = .queryNotCoveredByIndex ∨ k = .queryNotUsingEffectiveIndex) ∧
      ∃ plan, input.explain = .available plan := by
  unfold indexCheck at h
  split at h
  next => simp [cannotCheck] at h; exact .inl h
  next => simp at h
  next hplan => simp at h; exact .inr ⟨.inl h, _, Metadata.require_eq_ok_some.1 hplan⟩
  next hplan => simp at h; exact .inr ⟨.inr h, _, Metadata.require_eq_ok_some.1 hplan⟩
  next => simp at h

theorem kind_of_mem_projectionCheck (h : k ∈ (projectionCheck q).map Insight.kind) :
    k = .invalidProjection := by
  simp only [projectionCheck, checkProjection, List.map_flatMap, List.mem_flatMap] at h
  obtain ⟨_, -, h⟩ := h
  split at h
  next => simp at h
  next => simp at h; obtain ⟨_, _, _, rfl⟩ := h; rfl

theorem kind_of_mem_filtersCheck (h : k ∈ (filtersCheck q).map Insight.kind) :
    k = .queryNotUsingFilters := by
  unfold filtersCheck at h
  split at h
  next =>
    split at h
    next => simp at h
    next => split at h <;> simp at h; exact h
  next => simp at h

/-- The namespace check reports a missing database only against a successful listing that
leaves it out, and a missing collection only when the database is listed and no successful
listing of its collections holds the collection. -/
theorem kind_of_mem_namespaceCheck (h : k ∈ (namespaceCheck q input).map Insight.kind) :
    k = .noNamespaceInferred ∨ k = .cannotCheck ∨
      ∃ d c ns sc dbs, q.collectionRef? = some (.known d c ns sc) ∧
        input.databases = .available dbs ∧
        (k = .databaseDoesNotExist ∧ ns.database ∉ dbs ∨
          k = .collectionDoesNotExist ∧ ns.database ∈ dbs ∧
            ∀ colls, input.collections = .available colls → ns.collection ∉ colls) := by
  unfold namespaceCheck at h
  split at h
  next => simp at h
  next => simp at h; exact .inl h
  next => split at h <;> simp at h; exact .inl h
  next d c ns sc href =>
    split at h
    next => simp [cannotCheck] at h; exact .inr (.inl h)
    next => simp at h
    next dbs hdbs =>
      refine .inr (.inr ⟨d, c, ns, sc, dbs, href, Metadata.require_eq_ok_some.1 hdbs, ?_⟩)
      split at h
      next hout => simp at h hout; exact .inl ⟨h, hout⟩
      next hin =>
        simp only [Bool.not_eq_true', Bool.not_eq_false, List.contains_iff_mem] at hin
        -- the only finding left is a missing collection, unless a listing holds it
        have hk : k = .collectionDoesNotExist := by
          split at h
          next => dsimp only at h; split at h <;> simp at h; exact h
          next => simp at h; exact h
        refine .inr ⟨hk, hin, fun colls hcolls hmem => ?_⟩
        simp [hcolls, Metadata.require, hmem] at h

/-- A failed collection listing in a listed database reads as a missing collection. -/
theorem collectionDoesNotExist_of_unavailable {d : Option Origin} {c : Origin} {ns : Namespace}
    {sc : Option Schema} {dbs : List String} {e : CatalogError}
    (href : q.collectionRef? = some (.known d c ns sc)) (hdbs : input.databases = .available dbs)
    (hin : ns.database ∈ dbs) (hcolls : input.collections = .unavailable e) :
    InsightKind.collectionDoesNotExist ∈ (namespaceCheck q input).map Insight.kind := by
  simp [namespaceCheck, href, hdbs, hcolls, Metadata.require, hin]

/-- A finding about the collection's fields or index use needs a schema or a plan that was
read. -/
theorem read_of_mem_collectionFindings (hk : k ∈ collectionFindings)
    (h : k ∈ (run Inspection.all q input).map Insight.kind) :
    input.schema ≠ .notApplicable ∨ input.explain ≠ .notApplicable := by
  simp only [collectionFindings, List.mem_cons, List.not_mem_nil, or_false] at hk
  rcases kind_mem_run_all.1 h with h | h | h | h | h
  · rcases kind_of_mem_namespaceCheck h with rfl | rfl | ⟨_, _, _, _, _, _, _, ⟨rfl, _⟩ | ⟨rfl, _⟩⟩ <;>
      simp at hk
  · rcases kind_of_mem_fieldCheck h with rfl | ⟨-, schema, hschema⟩
    · simp at hk
    · exact .inl (by simp [hschema])
  · rw [kind_of_mem_projectionCheck h] at hk
    simp at hk
  · rw [kind_of_mem_filtersCheck h] at hk
    simp at hk
  · rcases kind_of_mem_indexCheck h with rfl | ⟨-, plan, hplan⟩
    · simp at hk
    · exact .inr (by simp [hplan])

/-- Only the namespace check reports a missing database or collection. -/
theorem mem_namespaceCheck_of_mem_run
    (hk : k = .databaseDoesNotExist ∨ k = .collectionDoesNotExist)
    (h : k ∈ (run Inspection.all q input).map Insight.kind) :
    k ∈ (namespaceCheck q input).map Insight.kind := by
  rcases kind_mem_run_all.1 h with h | h | h | h | h
  · exact h
  · rcases kind_of_mem_fieldCheck h with rfl | ⟨rfl | rfl, -⟩ <;> simp at hk
  · rw [kind_of_mem_projectionCheck h] at hk
    simp at hk
  · rw [kind_of_mem_filtersCheck h] at hk
    simp at hk
  · rcases kind_of_mem_indexCheck h with rfl | ⟨rfl | rfl, -⟩ <;> simp at hk

/-- A missing database is one a successful listing leaves out. -/
theorem missing_database_of_mem
    (h : InsightKind.databaseDoesNotExist ∈ (run Inspection.all q input).map Insight.kind) :
    ∃ d c ns sc dbs, q.collectionRef? = some (.known d c ns sc) ∧
      input.databases = .available dbs ∧ ns.database ∉ dbs := by
  rcases kind_of_mem_namespaceCheck (mem_namespaceCheck_of_mem_run (.inl rfl) h) with
    h | h | ⟨d, c, ns, sc, dbs, href, hdbs, ⟨-, hout⟩ | ⟨h, -⟩⟩
  · cases h
  · cases h
  · exact ⟨d, c, ns, sc, dbs, href, hdbs, hout⟩
  · cases h

/-- A missing collection is one of a listed database that no successful listing holds. -/
theorem missing_collection_of_mem
    (h : InsightKind.collectionDoesNotExist ∈ (run Inspection.all q input).map Insight.kind) :
    ∃ d c ns sc dbs, q.collectionRef? = some (.known d c ns sc) ∧
      input.databases = .available dbs ∧ ns.database ∈ dbs ∧
        ∀ colls, input.collections = .available colls → ns.collection ∉ colls := by
  rcases kind_of_mem_namespaceCheck (mem_namespaceCheck_of_mem_run (.inr rfl) h) with
    h | h | ⟨d, c, ns, sc, dbs, href, hdbs, ⟨h, -⟩ | ⟨-, hin, hout⟩⟩
  · cases h
  · cases h
  · cases h
  · exact ⟨d, c, ns, sc, dbs, href, hdbs, hin, hout⟩

end Lint

/-! ### Main statement -/

/-- Gathering and the namespace check agree on a missing database: a run that reports one reports
no finding about the collection's fields or index use. They disagree on a missing collection
exactly when the collection listing failed after a successful database listing: among the runs
that report a finding about the collection's fields or index use, those are the ones that also
report the collection missing. -/
theorem gathered_namespace_findings (g : Gatherer) (q : Node) (counts : CallCounts) :
    let input := (Id.run ((g.gather q).run counts)).1
    let kinds := (Lint.run Inspection.all q input).map Insight.kind
    (InsightKind.databaseDoesNotExist ∈ kinds → ∀ k ∈ collectionFindings, k ∉ kinds) ∧
    (InsightKind.collectionDoesNotExist ∈ kinds ∧ (∃ k ∈ collectionFindings, k ∈ kinds) ↔
      (∃ e, input.collections = .unavailable e) ∧ (∃ dbs, input.databases = .available dbs) ∧
        ∃ k ∈ collectionFindings, k ∈ kinds) := by
  intro input kinds
  have hg : Gathered q input := gathered_gather g q counts
  refine ⟨?_, ⟨?_, ?_⟩⟩
  · intro hdb k hk hkin
    obtain ⟨d, c, ns, sc, dbs, href, hdbs, hout⟩ := Lint.missing_database_of_mem hdb
    -- a schema or a plan was read, so gathering went past the database listing
    obtain ⟨hcolls, -⟩ := hg.reads (Lint.read_of_mem_collectionFindings hk hkin)
    obtain ⟨d', c', ns', sc', href', -, hnot⟩ := hg.collections hcolls
    rw [href] at href'
    cases href'
    rw [hdbs, Gatherer.excludes_available] at hnot
    exact hout hnot
  · rintro ⟨hcoll, k, hk, hkin⟩
    obtain ⟨d, c, ns, sc, dbs, href, hdbs, -, hout⟩ := Lint.missing_collection_of_mem hcoll
    obtain ⟨hcolls, d', c', ns', sc', href', hnot⟩ :=
      hg.reads (Lint.read_of_mem_collectionFindings hk hkin)
    rw [href] at href'
    cases href'
    -- the collections were listed, and a successful listing would hold the collection
    refine ⟨?_, ⟨dbs, hdbs⟩, k, hk, hkin⟩
    cases hlisted : input.collections with
    | available colls =>
      rw [hlisted, Gatherer.excludes_available] at hnot
      exact absurd hnot (hout colls hlisted)
    | unavailable e => exact ⟨e, rfl⟩
    | notApplicable => exact absurd hlisted hcolls
  · rintro ⟨⟨e, he⟩, ⟨dbs, hdbs⟩, hk⟩
    obtain ⟨d, c, ns, sc, href, -, hnot⟩ := hg.collections (by simp [he])
    rw [hdbs, Gatherer.excludes_available] at hnot
    refine ⟨Lint.kind_mem_run_all.2 (.inl ?_), hk⟩
    exact Lint.collectionDoesNotExist_of_unavailable href hdbs hnot he

/-- A read model over a catalog where `shop.orders` is read by a collection scan, whose collection
listing times out. -/
def listingFailure : Gatherer where
  model := {
    source := .catalog
      { databases := [("shop", [("orders", ⟨.object [("status", .string)], .collectionScan⟩)])] }
    failures := [(.listCollections, .timeout 3)] }

/-- A find of every document of `shop.orders`. -/
def findAllOrders : Node :=
  .mk (.expr 100) [.command .findMany,
    .collection (.known (some (.expr 1)) (.expr 2) ⟨"shop", "orders"⟩ none)]

/-- With the collection listing failing, the collection is reported missing while the plan of
the query on it is read and reported as a collection scan. -/
theorem listingFailure_findings :
    let kinds := (Lint.run Inspection.all findAllOrders
      (Id.run ((listingFailure.gather findAllOrders).run {})).1).map Insight.kind
    InsightKind.collectionDoesNotExist ∈ kinds ∧ InsightKind.queryNotCoveredByIndex ∈ kinds := by
  decide +kernel

end QueryScope
