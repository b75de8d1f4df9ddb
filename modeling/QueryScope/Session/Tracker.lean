import QueryScope.Session.Keyed
/-!
# Tracking the sources of queries

A tracker records, per query anchor, the generation of its source and the file it lives in,
and per file a database that replaces the one its queries name. A clock counts edits: every
edit takes the next tick as the new generation of the anchors it touches, so generations only
grow until an anchor is discarded, which forgets it and returns it to generation 0. Setting
or clearing a file's database touches every anchor of the file, since their decorated queries
change.
-/

namespace QueryScope

/-- What a session knows about the sources of its queries. -/
structure SourceTracker where
  clock : Nat := 0
  generations : List (Nat × Nat) := []
  files : List (Nat × String) := []
  databases : List (String × String) := []

namespace SourceTracker

/-- The generation of an anchor; 0 for one never touched. -/
def generation (t : SourceTracker) (anchor : Nat) : Nat := (t.generations.lookup anchor).getD 0

/-- Record an edit of an anchor: its new generation, and the tracker. -/
def touch (t : SourceTracker) (anchor : Nat) : Nat × SourceTracker :=
  let g := t.clock + 1
  (g, { t with clock := g, generations := Keyed.set anchor g t.generations })

/-- The anchors that live in a file. -/
def anchorsIn (t : SourceTracker) (path : String) : List Nat :=
  (t.files.filter (·.2 == path)).map (·.1)

/-- Record an edit of every anchor in a file: how many were touched, and the tracker. -/
def touchFile (t : SourceTracker) (path : String) : Nat × SourceTracker :=
  let g := t.clock + 1
  let anchors := t.anchorsIn path
  (anchors.length,
    { t with clock := g, generations := anchors.foldl (fun gs a => Keyed.set a g gs) t.generations })

/-- Forget an anchor and its file. -/
def discard (t : SourceTracker) (anchor : Nat) : SourceTracker :=
  { t with generations := Keyed.erase anchor t.generations, files := Keyed.erase anchor t.files }

/-- Whether anything is recorded for an anchor. -/
def isTracked (t : SourceTracker) (anchor : Nat) : Bool :=
  (t.generations.lookup anchor).isSome || (t.files.lookup anchor).isSome

/-- Record the file an anchor lives in. -/
def assignFile (t : SourceTracker) (anchor : Nat) (path : String) : SourceTracker :=
  { t with files := Keyed.set anchor path t.files }

/-- The file an anchor lives in. -/
def fileOf (t : SourceTracker) (anchor : Nat) : Option String := t.files.lookup anchor

/-- Set the database of the queries of a file, touching them. -/
def setDatabase (t : SourceTracker) (path database : String) : SourceTracker :=
  ({ t with databases := Keyed.set path database t.databases }.touchFile path).2

/-- Clear the database of a file's queries, touching them if one was set. -/
def clearDatabase (t : SourceTracker) (path : String) : SourceTracker :=
  match t.databases.lookup path with
  | some _ => ({ t with databases := Keyed.erase path t.databases }.touchFile path).2
  | none => t

/-- The database that replaces the one named by the queries of an anchor's file. -/
def databaseOf (t : SourceTracker) (anchor : Nat) : Option String := do
  t.databases.lookup (← t.fileOf anchor)

theorem generation_touch (t : SourceTracker) (anchor : Nat) :
    (t.touch anchor).2.generation anchor = (t.touch anchor).1 := by
  simp [touch, generation, Keyed.lookup_set]

theorem generation_discard (t : SourceTracker) (anchor : Nat) :
    (t.discard anchor).generation anchor = 0 := by
  simp [discard, generation, Keyed.lookup_erase]

theorem generation_touch_eq_ite (t : SourceTracker) (a b : Nat) :
    (t.touch a).2.generation b = if b == a then t.clock + 1 else t.generation b := by
  by_cases h : b = a
  · subst h
    simp [touch, generation, Keyed.lookup_set]
  · simp [touch, generation, Keyed.lookup_set_of_ne _ _ h, h]

theorem generation_discard_eq_ite (t : SourceTracker) (a b : Nat) :
    (t.discard a).generation b = if b == a then 0 else t.generation b := by
  simp only [discard, generation, Keyed.lookup_erase_eq_ite]
  split <;> rfl

/-- With one file per anchor, the anchors of a file are those whose file it is. -/
theorem mem_anchorsIn {t : SourceTracker} (h : (t.files.map (·.1)).Nodup) {b : Nat}
    {path : String} : b ∈ t.anchorsIn path ↔ t.fileOf b = some path := by
  rw [fileOf, Keyed.lookup_eq_some_iff_mem h]
  simp [anchorsIn]

theorem generation_touchFile_eq_ite {t : SourceTracker} (h : (t.files.map (·.1)).Nodup)
    (path : String) (b : Nat) :
    (t.touchFile path).2.generation b =
      if t.fileOf b == some path then t.clock + 1 else t.generation b := by
  simp only [touchFile, generation, Keyed.lookup_foldl_set, mem_anchorsIn h]
  split <;> simp_all

theorem generation_setDatabase_eq_ite {t : SourceTracker} (h : (t.files.map (·.1)).Nodup)
    (path database : String) (b : Nat) :
    (t.setDatabase path database).generation b =
      if t.fileOf b == some path then t.clock + 1 else t.generation b :=
  generation_touchFile_eq_ite (t := { t with databases := _ }) h path b

theorem generation_clearDatabase_eq_ite {t : SourceTracker} (h : (t.files.map (·.1)).Nodup)
    (path : String) (b : Nat) :
    (t.clearDatabase path).generation b =
      if t.fileOf b == some path && (t.databases.lookup path).isSome then t.clock + 1
      else t.generation b := by
  cases hd : t.databases.lookup path with
  | none => simp [clearDatabase, hd]
  | some db =>
    simp only [clearDatabase, hd, Option.isSome_some, Bool.and_true]
    exact generation_touchFile_eq_ite (t := { t with databases := _ }) h path b

end SourceTracker

end QueryScope
