import QueryScope.Json.Value
import QueryScope.Session.Keyed
/-!
# Documents as text

Documents are written as text, and text read back as documents, by a library outside this one
(`TextLayer`). Its writer puts an object's members in the order of their keys, as the map it
keeps them in does, and its reader keeps the value read last for a repeated key. So reading the
text of a document gives back the document in its *normal form* (`Json.normal`): every
object's members sorted by key and merged as they are read. Numbers come back as they are
when the reader keeps them (`Json.Readable`): integers within the 64-bit ranges, finite
doubles.

What is assumed of the library is stated, not built: it reads back the normal form of every
document with readable numbers that nests at most 127 arrays and objects
(`TextLayer.Faithful`), and refuses the text of every deeper one, its recursion limit
(`TextLayer.DepthLimited`). `TextLayer.bounded` is a layer with both properties.

Main statement: `TextLayer.bind_parse_render_iff`. Through such a layer, a reader that gives
back a value from the normal form of a document gives it back from the document's text exactly
when the document nests at most 127 arrays and objects.
-/

namespace QueryScope.Json

/-! ### The normal form of a document -/

/-- Insert a member after the members whose keys are not greater than its own. -/
def insertByKey {α : Type} (m : String × α) : List (String × α) → List (String × α)
  | [] => [m]
  | n :: ns => if m.1 < n.1 then m :: n :: ns else n :: insertByKey m ns

/-- Members in the order the writer writes them. -/
def sortByKey {α : Type} (ms : List (String × α)) : List (String × α) := ms.foldr insertByKey []

/-- Members as the reader collects them: a repeated key keeps the value met last, at the place
of its first. -/
def collect (ms : List (String × Json)) : List (String × Json) :=
  ms.foldl (fun acc m => setMember acc m.1 m.2) []

mutual
/-- The document that reading the text of a document gives back: the members of every object
sorted as they are written, and a repeated key keeping the value written last. -/
def normal : Json → Json
  | .arr xs => .arr (normalAll xs)
  | .obj ms => .obj (collect (sortByKey (normalMembers ms)))
  | j => j

/-- The normal forms of items. -/
def normalAll : List Json → List Json
  | [] => []
  | x :: xs => normal x :: normalAll xs

/-- Members with the normal forms of their values. -/
def normalMembers : List (String × Json) → List (String × Json)
  | [] => []
  | (k, v) :: ms => (k, normal v) :: normalMembers ms
end

example : normal (.obj [("b", .null), ("a", .arr [.obj [("z", .int 1), ("y", .null)]])]) =
    .obj [("a", .arr [.obj [("y", .null), ("z", .int 1)]]), ("b", .null)] := by rfl

theorem insertByKey_perm {α : Type} (m : String × α) (ms : List (String × α)) :
    (insertByKey m ms).Perm (m :: ms) := by
  induction ms with
  | nil => exact .refl _
  | cons n ms ih =>
    unfold insertByKey
    split
    · exact .refl _
    · exact (ih.cons n).trans (.swap m n ms)

theorem sortByKey_perm {α : Type} (ms : List (String × α)) : (sortByKey ms).Perm ms := by
  induction ms with
  | nil => exact .refl _
  | cons m ms ih => exact (insertByKey_perm m _).trans (ih.cons m)

theorem mem_sortByKey {α : Type} {p : String × α} {ms : List (String × α)} :
    p ∈ sortByKey ms ↔ p ∈ ms :=
  (sortByKey_perm ms).mem_iff

theorem normalAll_eq (xs : List Json) : normalAll xs = xs.map normal := by
  induction xs with
  | nil => rfl
  | cons x xs ih => simp [normalAll, ih]

theorem normalMembers_eq (ms : List (String × Json)) :
    normalMembers ms = ms.map fun p => (p.1, normal p.2) := by
  induction ms with
  | nil => rfl
  | cons m ms ih => simp [normalMembers, ih]

@[simp] theorem normal_null : normal .null = .null := rfl
@[simp] theorem normal_bool (b : Bool) : normal (.bool b) = .bool b := rfl
@[simp] theorem normal_int (n : Int) : normal (.int n) = .int n := rfl
@[simp] theorem normal_num (x : Float) : normal (.num x) = .num x := rfl
@[simp] theorem normal_str (s : String) : normal (.str s) = .str s := rfl

theorem normal_arr (xs : List Json) : normal (.arr xs) = .arr (xs.map normal) := by
  rw [normal, normalAll_eq]

/-! ### Numbers and nesting -/

/-- The numbers of a document, in order. -/
def numbers : Json → List Json
  | .int n => [.int n]
  | .num x => [.num x]
  | .arr xs => numbersAll xs
  | .obj ms => numbersMembers ms
  | _ => []
where
  numbersAll : List Json → List Json
    | [] => []
    | x :: xs => numbers x ++ numbersAll xs
  numbersMembers : List (String × Json) → List Json
    | [] => []
    | (_, v) :: ms => numbers v ++ numbersMembers ms

/-- A number that text keeps as it is: an integer in the range read as an integer (that of a
signed or an unsigned 64-bit integer), or a finite double. A double that is not finite is
written as `null`. -/
def Readable : Json → Prop
  | .int n => -Int.ofNat (Nat.pow 2 63) ≤ n ∧ n < Int.ofNat (Nat.pow 2 64)
  | .num x => x.isFinite = true
  | _ => True

theorem numbers_arr (xs : List Json) : (Json.arr xs).numbers = xs.flatMap numbers := by
  show numbers.numbersAll xs = _
  induction xs with
  | nil => rfl
  | cons x xs ih => simp [numbers.numbersAll, ih]

theorem numbers_obj (ms : List (String × Json)) :
    (Json.obj ms).numbers = ms.flatMap fun m => m.2.numbers := by
  show numbers.numbersMembers ms = _
  induction ms with
  | nil => rfl
  | cons m ms ih => simp [numbers.numbersMembers, ih]

theorem depth_arr (xs : List Json) : (Json.arr xs).depth = depth.depthList xs + 1 := rfl

theorem depth_obj (ms : List (String × Json)) :
    (Json.obj ms).depth = depth.depthMembers ms + 1 := rfl

theorem depthList_le_iff {xs : List Json} {k : Nat} :
    depth.depthList xs ≤ k ↔ ∀ x ∈ xs, x.depth ≤ k := by
  induction xs with
  | nil => simp [depth.depthList]
  | cons x xs ih => rw [depth.depthList, Nat.max_le, ih, List.forall_mem_cons]

theorem depthMembers_le_iff {ms : List (String × Json)} {k : Nat} :
    depth.depthMembers ms ≤ k ↔ ∀ m ∈ ms, m.2.depth ≤ k := by
  induction ms with
  | nil => simp [depth.depthMembers]
  | cons m ms ih =>
    obtain ⟨key, v⟩ := m
    rw [depth.depthMembers, Nat.max_le, ih, List.forall_mem_cons]

/-! ### Objects with distinct keys

The documents this library writes never repeat a key in an object, so their normal form only
sorts the members, and a member is found in it as in the document. -/

theorem setMember_of_not_mem {acc : List (String × Json)} {k : String}
    (hk : k ∉ acc.map (·.1)) (v : Json) : setMember acc k v = acc ++ [(k, v)] := by
  have hany : acc.any (·.1 == k) = false := by
    rw [List.any_eq_false]
    intro m hm hmk
    exact hk (List.mem_map.2 ⟨m, hm, beq_iff_eq.1 hmk⟩)
  simp [setMember, hany]

theorem foldl_setMember_of_nodup : ∀ {ms acc : List (String × Json)},
    ((acc ++ ms).map (·.1)).Nodup → ms.foldl (fun a m => setMember a m.1 m.2) acc = acc ++ ms
  | [], acc, _ => by simp
  | m :: ms, acc, h => by
    have hm : m.1 ∉ acc.map (·.1) := by
      intro hmem
      simp only [List.map_append, List.map_cons] at h
      exact (List.nodup_append.1 h).2.2 _ hmem _ List.mem_cons_self rfl
    rw [List.foldl_cons, setMember_of_not_mem hm, foldl_setMember_of_nodup (by simpa using h)]
    simp

theorem nodup_keys_sortByKey {α : Type} {ms : List (String × α)} (h : (ms.map (·.1)).Nodup) :
    ((sortByKey ms).map (·.1)).Nodup :=
  ((sortByKey_perm ms).map _).nodup_iff.2 h

section DistinctKeys

variable {ms : List (String × Json)} (h : (ms.map (·.1)).Nodup)
include h

theorem collect_of_nodup : collect ms = ms := foldl_setMember_of_nodup (by simpa using h)

/-- An object with distinct keys: its normal form sorts its members and merges none. -/
theorem normal_obj_of_nodup :
    normal (.obj ms) = .obj (sortByKey (ms.map fun m => (m.1, normal m.2))) := by
  rw [normal, normalMembers_eq, collect_of_nodup]
  apply nodup_keys_sortByKey
  simpa [List.map_map, Function.comp_def] using h

/-- A member of the normal form of an object with distinct keys is the normal form of the
member. -/
theorem get?_normal_obj (k : String) : (normal (.obj ms)).get? k = (ms.lookup k).map normal := by
  have hs : ((sortByKey (ms.map fun m => (m.1, normal m.2))).map (·.1)).Nodup := by
    apply nodup_keys_sortByKey
    simpa [List.map_map, Function.comp_def] using h
  rw [normal_obj_of_nodup h, get?]
  cases hk : ms.lookup k with
  | some v =>
    have hmem : (k, v) ∈ ms := (Keyed.lookup_eq_some_iff_mem h).1 hk
    exact (Keyed.lookup_eq_some_iff_mem hs).2 (mem_sortByKey.2 (List.mem_map.2 ⟨(k, v), hmem, rfl⟩))
  | none =>
    rw [Option.map_none, List.lookup_eq_none_iff]
    rw [List.lookup_eq_none_iff] at hk
    intro p hp
    obtain ⟨q, hq, rfl⟩ := List.mem_map.1 (mem_sortByKey.1 hp)
    exact hk q hq

/-- A member of an object with distinct keys nests less deeply than the object, in normal
form. -/
theorem depth_lt_of_lookup {k : String} {v : Json} (hk : ms.lookup k = some v) :
    (normal v).depth < (normal (.obj ms)).depth := by
  have hmem : (k, normal v) ∈ sortByKey (ms.map fun m => (m.1, normal m.2)) :=
    mem_sortByKey.2 (List.mem_map.2 ⟨(k, v), (Keyed.lookup_eq_some_iff_mem h).1 hk, rfl⟩)
  have hle : (normal v).depth ≤ _ := depthMembers_le_iff.1 (Nat.le_refl _) _ hmem
  rw [normal_obj_of_nodup h, depth_obj]
  omega

end DistinctKeys

theorem depth_lt_of_mem {x : Json} {xs : List Json} (hx : x ∈ xs) :
    x.depth < (Json.arr xs).depth := by
  have := depthList_le_iff.1 (Nat.le_refl _) x hx
  rw [depth_arr]
  omega

theorem normal_tagged (k : String) (v : Json) : normal (.tagged k v) = .tagged k (normal v) := by
  simp only [tagged]
  rw [normal_obj_of_nodup (by simp)]
  rfl


/-! ### The text layer -/

/-- A library that writes documents as text and reads text back as documents. -/
structure TextLayer where
  /-- The texts it writes and reads. -/
  Text : Type
  /-- The writer. -/
  render : Json → Text
  /-- The reader, which may refuse a text. -/
  parse : Text → Option Json

namespace TextLayer

/-- The layer reads the text of a document whose numbers it keeps, and that nests at most 127
arrays and objects, as the normal form of the document. -/
def Faithful (T : TextLayer) : Prop :=
  ∀ j : Json, (∀ v ∈ j.numbers, v.Readable) → j.depth ≤ 127 →
    T.parse (T.render j) = some (normal j)

/-- The layer refuses the text of a document that nests more than 127 arrays and objects. -/
def DepthLimited (T : TextLayer) : Prop :=
  ∀ j : Json, 127 < j.depth → T.parse (T.render j) = none

/-- A layer that keeps a document as its own text and reads it as a faithful, depth-limited
layer must. -/
def bounded : TextLayer where
  Text := Json
  render j := j
  parse j := if j.depth ≤ 127 then some (normal j) else none

theorem faithful_bounded : bounded.Faithful := fun _ _ hd => if_pos hd

theorem depthLimited_bounded : bounded.DepthLimited := fun _ hd => if_neg (Nat.not_le.2 hd)

variable {T : TextLayer}

/-- Through a faithful, depth-limited layer, a reader that gives back a value from the normal
form of a document with readable numbers gives it back from the document's text exactly when
the document nests at most 127 arrays and objects. -/
theorem bind_parse_render_iff (hf : T.Faithful) (hl : T.DepthLimited) {α : Type}
    {read : Json → Option α} {j : Json} {a : α} (hread : read (normal j) = some a)
    (hnum : ∀ v ∈ j.numbers, v.Readable) :
    (T.parse (T.render j)).bind read = some a ↔ j.depth ≤ 127 := by
  by_cases hd : j.depth ≤ 127
  · rw [hf j hnum hd, Option.bind_some, hread]
    exact ⟨fun _ => hd, fun _ => rfl⟩
  · rw [hl j (Nat.not_le.1 hd), Option.bind_none]
    constructor
    · intro h
      cases h
    · intro h
      exact absurd h hd

end TextLayer

end QueryScope.Json
