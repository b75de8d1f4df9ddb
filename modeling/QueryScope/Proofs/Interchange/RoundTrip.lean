import QueryScope.Interchange.Bson
import QueryScope.Proofs.Json.TextLayer
import QueryScope.Proofs.Bson.Canonical
import QueryScope.Proofs.Query.Components
/-!
# Reading back the interchange form

Types, constants, collection schemas and query trees are written as JSON documents by `toJson`
and read by `ofJson?`, with fuel one more than the document's nesting (`Bson.read?` and its
siblings). Reading re-normalizes: a document type's fields are re-sorted (`Bson.objectOf`), an
enum's members too (`Bson.enumOf`), a union's members are collected again
(`Bson.unionMembers`) and a node's components are put in order (`Node.ofComponents`). So the
values that come back are the *normal* ones (`Bson.Normal`, `Node.Normal` and their siblings):
those each re-normalization leaves as they are, with integers in the widths they are written
in, and sources of the tree's mode. A database source of a tree with erased sources is not
normal: it is written as `null`, which reads back as no source.

The reading proof follows the readers' fuel. `ReadsBack ok write read F` says that reading
with fuel `F` gives back every value `ok` admits whose written form nests less than `F` deep,
and that the integers of that form are in the range text reads back as integers. One lemma per
reader takes it from the readers it calls at `F` to itself at `F + 1` (`Bson.readsBack_succ`,
`Node.readsBack_succ`, ...), and `readsBackAll` runs them together.

Main statements: `Bson.read?_normal` and its siblings read back the written form of a normal
value; `interchange_roundTrip_iff_depth` composes them with a text layer that reads back what
it writes and refuses what nests too deep (`Json.TextLayer.bind_parse_render_iff`), for every
interchange form: the text of a normal value whose doubles are finite reads back as the value
exactly when the value nests at most 127 arrays and objects (`nestedArray_roundTrip_fails` is a
type nested one level too deep).
-/

namespace QueryScope

open Json

/-! ### Normal values -/

/-- Whether a source is of the kind a tree in a mode holds: an expression id that fits in 32
bits, or an erased source. -/
def Origin.Fits : SourceMode → Origin → Prop
  | .exprs, .expr n => n < 4294967296
  | .erased, .erased => True
  | _, _ => False

/-- A field reference whose source fits the mode. -/
def FieldRef.Normal (mode : SourceMode) : FieldRef → Prop
  | .named _ s _ _ => s.Fits mode
  | .unknown => True

mutual
/-- A constant whose integers fit their widths. -/
def Constant.Normal : Constant → Prop
  | .int32 n => -2147483648 ≤ n ∧ n ≤ 2147483647
  | .int64 n | .date n => -9223372036854775808 ≤ n ∧ n ≤ 9223372036854775807
  | .array xs => Constant.NormalList xs
  | _ => True

/-- Constants whose integers fit their widths. -/
def Constant.NormalList : List Constant → Prop
  | [] => True
  | x :: xs => Constant.Normal x ∧ Constant.NormalList xs
end

mutual
/-- A type as the library keeps it: fields sorted by name without repeats, enum members
sorted without repeats, unions with canonical members, and computed types whose expression is
a normal tree with erased sources. -/
def Bson.Normal : Bson → Prop
  | .array t => Bson.Normal t
  | .object fs => fs.Pairwise (fun a b => a.1 < b.1) ∧ Bson.NormalFields fs
  | .enumeration ms _ => ms.Pairwise (· < ·)
  | .anyOf ms => Bson.Canonical ms ∧ Bson.NormalList ms
  | .computed b e => Bson.Normal b ∧ Node.Normal .erased e
  | _ => True

/-- Normal types. -/
def Bson.NormalList : List Bson → Prop
  | [] => True
  | t :: ts => Bson.Normal t ∧ Bson.NormalList ts

/-- Fields of normal types. -/
def Bson.NormalFields : List (String × Bson) → Prop
  | [] => True
  | (_, t) :: fs => Bson.Normal t ∧ Bson.NormalFields fs

/-- A tree as the library keeps it: sources of the mode, at most one component of each kind,
and normal components. -/
def Node.Normal (mode : SourceMode) : Node → Prop
  | .mk s cs => s.Fits mode ∧ (Component.kinds cs).Nodup ∧ Node.NormalComponents mode cs

/-- Normal trees. -/
def Node.NormalList (mode : SourceMode) : List Node → Prop
  | [] => True
  | n :: ns => Node.Normal mode n ∧ Node.NormalList mode ns

/-- Normal components. -/
def Node.NormalComponents (mode : SourceMode) : List Component → Prop
  | [] => True
  | c :: cs => Component.Normal mode c ∧ Node.NormalComponents mode cs

/-- A component whose references and children are normal and whose limit fits 32 bits. -/
def Component.Normal (mode : SourceMode) : Component → Prop
  | .collection r => CollectionRef.Normal mode r
  | .field r => r.Normal mode
  | .value r => ValueRef.Normal mode r
  | .branch _ ns => Node.NormalList mode ns
  | .limit n => -2147483648 ≤ n ∧ n ≤ 2147483647
  | _ => True

/-- A value reference with a source of the mode, a normal constant and a normal type. -/
def ValueRef.Normal (mode : SourceMode) : ValueRef → Prop
  | .constant s v t | .inferred s v t => s.Fits mode ∧ v.Normal ∧ Bson.Normal t
  | .runtime s t | .computed s t => s.Fits mode ∧ Bson.Normal t
  | .unknown => True

/-- A collection reference with sources of the mode and a normal schema. A database source is
an expression: a tree with erased sources has none. -/
def CollectionRef.Normal (mode : SourceMode) : CollectionRef → Prop
  | .known d c _ sc =>
    (∀ s ∈ d, s.Fits mode ∧ s ≠ .erased) ∧ c.Fits mode ∧ Schema.NormalOption sc
  | .onlyCollection c _ => c.Fits mode
  | .unknown => True

/-- No schema, or a normal one. -/
def Schema.NormalOption : Option Schema → Prop
  | none => True
  | some s => Schema.Normal s

/-- A schema whose type is normal. -/
def Schema.Normal : Schema → Prop
  | .mk _ t => Bson.Normal t
end

theorem Constant.normalList_iff {xs : List Constant} :
    Constant.NormalList xs ↔ ∀ x ∈ xs, x.Normal := by
  induction xs with
  | nil => simp [Constant.NormalList]
  | cons x xs ih => simp [Constant.NormalList, ih]

theorem Bson.normalList_iff {ts : List Bson} : Bson.NormalList ts ↔ ∀ t ∈ ts, t.Normal := by
  induction ts with
  | nil => simp [Bson.NormalList]
  | cons t ts ih => simp [Bson.NormalList, ih]

theorem Bson.normalFields_iff {fs : List (String × Bson)} :
    Bson.NormalFields fs ↔ ∀ f ∈ fs, f.2.Normal := by
  induction fs with
  | nil => simp [Bson.NormalFields]
  | cons f fs ih => obtain ⟨k, t⟩ := f; simp [Bson.NormalFields, ih]

theorem Node.normalList_iff {mode : SourceMode} {ns : List Node} :
    Node.NormalList mode ns ↔ ∀ n ∈ ns, n.Normal mode := by
  induction ns with
  | nil => simp [Node.NormalList]
  | cons n ns ih => simp [Node.NormalList, ih]

theorem Node.normalComponents_iff {mode : SourceMode} {cs : List Component} :
    Node.NormalComponents mode cs ↔ ∀ c ∈ cs, c.Normal mode := by
  induction cs with
  | nil => simp [Node.NormalComponents]
  | cons c cs ih => simp [Node.NormalComponents, ih]

/-! ### Writing lists -/

theorem Constant.toJsonList_eq (xs : List Constant) :
    Constant.toJsonList xs = xs.map Constant.toJson := by
  induction xs with
  | nil => rfl
  | cons x xs ih => simp [Constant.toJsonList, ih]

theorem Bson.toJsonList_eq (ts : List Bson) : Bson.toJsonList ts = ts.map Bson.toJson := by
  induction ts with
  | nil => rfl
  | cons t ts ih => simp [Bson.toJsonList, ih]

theorem Bson.toJsonFields_eq (fs : List (String × Bson)) :
    Bson.toJsonFields fs = fs.map fun f => (f.1, f.2.toJson) := by
  induction fs with
  | nil => rfl
  | cons f fs ih => obtain ⟨k, t⟩ := f; simp [Bson.toJsonFields, ih]

theorem Node.toJsonList_eq (ns : List Node) : Node.toJsonList ns = ns.map Node.toJson := by
  induction ns with
  | nil => rfl
  | cons n ns ih => simp [Node.toJsonList, ih]

theorem Node.toJsonComponents_eq (cs : List Component) :
    Node.toJsonComponents cs = cs.map Component.toJson := by
  induction cs with
  | nil => rfl
  | cons c cs ih => simp [Node.toJsonComponents, ih]

/-! ### Labels -/

/-- In a list whose labels are distinct, the first element with the label of a member is that
member. -/
theorem find?_label_of_nodup {α : Type} {f : α → String} {l : List α} (hl : (l.map f).Nodup)
    {a : α} (ha : a ∈ l) : l.find? (fun b => f b == f a) = some a := by
  induction l with
  | nil => cases ha
  | cons b l ih =>
    rw [List.map_cons, List.nodup_cons] at hl
    rcases List.mem_cons.1 ha with rfl | ha
    · simp
    · have hne : f b ≠ f a := fun h => hl.1 (h ▸ List.mem_map_of_mem ha)
      simp [hne, ih hl.2 ha]

theorem Operator.ofLabel?_label (o : Operator) : Operator.ofLabel? o.label = some o := by
  have hnodup : (Operator.known.map Operator.label).Nodup := by decide +kernel
  have hmem : o ∈ Operator.known := by cases o <;> decide
  exact find?_label_of_nodup hnodup hmem

theorem Command.ofLabel?_label (c : Command) : Command.ofLabel? c.label = some c := by
  have hnodup : (Command.known.map Command.label).Nodup := by decide +kernel
  have hmem : c ∈ Command.known := by cases c <;> decide
  exact find?_label_of_nodup hnodup hmem

theorem Branch.ofLabel?_label (b : Branch) : Branch.ofLabel? b.label = some b := by
  have hnodup : (Branch.known.map Branch.label).Nodup := by decide +kernel
  have hmem : b ∈ Branch.known := by cases b <;> decide
  exact find?_label_of_nodup hnodup hmem

theorem Dialect.ofId?_id (d : Dialect) : Dialect.ofId? d.id = some d := by
  cases d <;> rfl

theorem ExplainLevel.ofId?_id (l : ExplainLevel) : ExplainLevel.ofId? l.id = some l := by
  cases l <;> rfl

/-! ### Integers within range -/

/-- The integers a document holds are in the range text reads back as integers. -/
def IntsReadable (j : Json) : Prop := ∀ n, Json.int n ∈ j.numbers → Json.Readable (.int n)

@[simp] theorem intsReadable_null : IntsReadable .null := fun _ h => by simp [numbers] at h
@[simp] theorem intsReadable_bool (b : Bool) : IntsReadable (.bool b) := fun _ h => by simp [numbers] at h
@[simp] theorem intsReadable_num (x : Float) : IntsReadable (.num x) := fun _ h => by simp [numbers] at h
@[simp] theorem intsReadable_str (s : String) : IntsReadable (.str s) := fun _ h => by simp [numbers] at h

@[simp] theorem intsReadable_int (n : Int) :
    IntsReadable (.int n) ↔ -Int.ofNat (Nat.pow 2 63) ≤ n ∧ n < Int.ofNat (Nat.pow 2 64) := by
  simp [IntsReadable, numbers, Readable]

@[simp] theorem intsReadable_arr (xs : List Json) : IntsReadable (.arr xs) ↔ ∀ x ∈ xs, IntsReadable x := by
  simp only [IntsReadable, numbers_arr, List.mem_flatMap]
  exact ⟨fun h x hx n hn => h n ⟨x, hx, hn⟩, fun h n ⟨x, hx, hn⟩ => h x hx n hn⟩

@[simp] theorem intsReadable_obj (ms : List (String × Json)) :
    IntsReadable (.obj ms) ↔ ∀ m ∈ ms, IntsReadable m.2 := by
  simp only [IntsReadable, numbers_obj, List.mem_flatMap]
  exact ⟨fun h m hm n hn => h n ⟨m, hm, hn⟩, fun h n ⟨m, hm, hn⟩ => h m hm n hn⟩

@[simp] theorem intsReadable_tagged (k : String) (v : Json) : IntsReadable (.tagged k v) ↔ IntsReadable v := by
  simp [tagged]

@[simp] theorem variant?_tagged (k : String) (v : Json) : variant? (.tagged k v) = some (k, v) := rfl

@[simp] theorem depth_tagged (k : String) (v : Json) : (Json.tagged k v).depth = v.depth + 1 := by
  simp [tagged, depth_obj, depth.depthMembers]

/-! ### Leaves -/

theorem Origin.ofJson?_toJson {mode : SourceMode} {s : Origin} (h : s.Fits mode) :
    Origin.ofJson? mode (normal s.toJson) = some s ∧ IntsReadable s.toJson := by
  cases mode <;> cases s <;> simp only [Origin.Fits] at h
  · simp only [Origin.toJson, Json.ofNat, normal_int, Origin.ofJson?, uint32?, intIn,
      intsReadable_int, Int.ofNat_eq_natCast]
    refine ⟨?_, by simp only [Nat.pow_eq]; omega⟩
    rw [if_pos (by omega)]
    rfl
  · exact ⟨rfl, intsReadable_null⟩

theorem Namespace.ofJson?_toJson (ns : Namespace) :
    Namespace.ofJson? (normal ns.toJson) = some ns ∧ IntsReadable ns.toJson := by
  simp [Namespace.toJson, Namespace.ofJson?, need, get?_normal_obj, List.lookup_cons, Json.str?]

theorem FieldRef.ofJson?_toJson {mode : SourceMode} {r : FieldRef} (h : r.Normal mode) :
    FieldRef.ofJson? mode (normal r.toJson) = some r ∧ IntsReadable r.toJson := by
  cases r with
  | unknown => exact ⟨rfl, intsReadable_str _⟩
  | named k s p d =>
    obtain ⟨hs, hsi⟩ := Origin.ofJson?_toJson (show s.Fits mode from h)
    cases k <;> simp [FieldRef.toJson, FieldRef.ofJson?, normal_tagged, need, get?_normal_obj,
      FieldKind.ofTag?, List.lookup_cons, Json.str?, hs, hsi]

/-! ### Reading back, one level at a time -/

/-- With fuel `F`, `read` gives back every value `ok` admits whose written form nests less than
`F` deep in normal form, and the integers of that form are readable as integers. -/
def ReadsBack {α : Type} (ok : α → Prop) (write : α → Json) (read : Nat → Json → Option α)
    (F : Nat) : Prop :=
  ∀ a, ok a → (normal (write a)).depth < F →
    read F (normal (write a)) = some a ∧ IntsReadable (write a)

theorem mapM_of_forall {α : Type} {g : α → Option α} {xs : List α}
    (h : ∀ x ∈ xs, g x = some x) : xs.mapM g = some xs := by
  induction xs with
  | nil => rfl
  | cons x xs ih => simp [h x List.mem_cons_self, ih fun y hy => h y (List.mem_cons_of_mem x hy)]

theorem depth_lt_of_mem_obj {ms : List (String × Json)} (h : (ms.map (·.1)).Nodup)
    {m : String × Json} (hm : m ∈ ms) : (normal m.2).depth < (normal (.obj ms)).depth :=
  depth_lt_of_lookup h ((Keyed.lookup_eq_some_iff_mem h).2 hm)

/-- The members of a written object with distinct keys nest, in normal form, less deeply than
the fuel left once the object is opened. -/
theorem depth_members_lt {ms : List (String × Json)} (h : (ms.map (·.1)).Nodup) {F : Nat}
    (hF : (normal (.obj ms)).depth ≤ F) : ∀ m ∈ ms, (normal m.2).depth < F :=
  fun _ hm => Nat.lt_of_lt_of_le (depth_lt_of_mem_obj h hm) hF

/-- The writers' usual shape: an object with a tag and one payload, whose two members nest less
deeply than the fuel left once the object is opened. -/
theorem depth_pair_lt {k₁ k₂ : String} (hk : k₁ ≠ k₂) {a b : Json} {F : Nat}
    (hF : (normal (.obj [(k₁, a), (k₂, b)])).depth ≤ F) :
    (normal a).depth < F ∧ (normal b).depth < F := by
  have hm := depth_members_lt (by simpa using hk) hF
  exact ⟨hm (k₁, a) List.mem_cons_self, hm (k₂, b) (List.mem_cons_of_mem _ List.mem_cons_self)⟩

namespace ReadsBack

variable {α : Type} {ok : α → Prop} {write : α → Json} {read : Nat → Json → Option α} {F : Nat}

theorem zero : ReadsBack ok write read 0 := fun _ _ h => absurd h (Nat.not_lt_zero _)

/-- The items of a written array are read one level down. -/
theorem items (h : ReadsBack ok write read F) {xs : List α} (hok : ∀ x ∈ xs, ok x)
    (hd : (normal (.arr (xs.map write))).depth ≤ F) :
    mapArr (read F) (normal (.arr (xs.map write))) = some xs ∧ IntsReadable (.arr (xs.map write)) := by
  rw [normal_arr, List.map_map] at hd ⊢
  have hitem : ∀ x ∈ xs, read F (normal (write x)) = some x ∧ IntsReadable (write x) := by
    intro x hx
    have hlt := depth_lt_of_mem (List.mem_map_of_mem (f := normal ∘ write) hx)
    exact h x (hok x hx) (by simp only [Function.comp_apply] at hlt; omega)
  refine ⟨?_, ?_⟩
  · show (xs.map (normal ∘ write)).mapM (read F) = some xs
    rw [List.mapM_map]
    exact mapM_of_forall fun x hx => (hitem x hx).1
  · simp only [intsReadable_arr, List.mem_map]
    rintro _ ⟨x, hx, rfl⟩
    exact (hitem x hx).2

end ReadsBack

/-! ### Constants -/

theorem Constant.readsBack_succ {F : Nat}
    (h : ReadsBack Constant.Normal Constant.toJson Constant.ofJson? F) :
    ReadsBack Constant.Normal Constant.toJson Constant.ofJson? (F + 1) := by
  intro c hc hd
  cases c with
  | array xs =>
    simp only [Constant.toJson, Constant.toJsonList_eq] at hd ⊢
    -- the items, one level below the array
    have hm := depth_pair_lt (by simp) (Nat.le_of_lt_succ hd)
    have hitems := h.items (Constant.normalList_iff.1 hc) (Nat.le_of_lt hm.2)
    simp [Constant.ofJson?, need, get?_normal_obj, List.lookup_cons, Json.str?, hitems.1, hitems.2]
  | _ =>
    simp only [Constant.Normal] at hc
    simp [Constant.toJson, Constant.ofJson?, need, get?_normal_obj, List.lookup_cons, Json.str?,
      Json.isNull, Json.bool?, int32?, int64?, intIn, floatOfJson?, Json.float?, floatJson]
    all_goals omega

theorem Constant.readsBack : ∀ F, ReadsBack Constant.Normal Constant.toJson Constant.ofJson? F
  | 0 => .zero
  | F + 1 => Constant.readsBack_succ (Constant.readsBack F)

/-! ### Sorted fields and members -/

theorem nodup_of_sorted {l : List String} (h : l.Pairwise (· < ·)) : l.Nodup :=
  h.imp fun {a b} (hab : a < b) (heq : a = b) => String.lt_irrefl b (heq ▸ hab)

theorem nodup_keys_of_sorted {α : Type} {fs : List (String × α)}
    (h : fs.Pairwise (fun a b => a.1 < b.1)) : (fs.map (·.1)).Nodup :=
  nodup_of_sorted (List.pairwise_map.2 h)

/-- Members sorted by key are in the order they are written. -/
theorem sortByKey_of_sorted {α : Type} {ms : List (String × α)}
    (h : ms.Pairwise (fun a b => a.1 < b.1)) : sortByKey ms = ms := by
  induction ms with
  | nil => rfl
  | cons m ms ih =>
    rw [List.pairwise_cons] at h
    simp only [sortByKey, List.foldr_cons] at ih ⊢
    rw [ih h.2]
    cases ms with
    | nil => rfl
    | cons n ns => simp [insertByKey, h.1 n List.mem_cons_self]

theorem Bson.insertField_of_lt {k : String} {t : Bson} :
    ∀ {acc : List (String × Bson)}, (∀ f ∈ acc, f.1 < k) →
      Bson.insertField k t acc = acc ++ [(k, t)]
  | [], _ => rfl
  | (k', t') :: acc, h => by
    have hlt : k' < k := h (k', t') List.mem_cons_self
    have hne : k ≠ k' := fun heq => String.lt_irrefl _ (heq ▸ hlt)
    rw [Bson.insertField, if_neg (String.lt_asymm hlt), if_neg hne,
      Bson.insertField_of_lt fun f hf => h f (List.mem_cons_of_mem _ hf)]
    rfl

/-- A document type whose fields are sorted without repeats is its own normal form. -/
theorem Bson.objectOf_of_sorted {fs : List (String × Bson)}
    (h : fs.Pairwise (fun a b => a.1 < b.1)) : Bson.objectOf fs = .object fs := by
  have hfold : ∀ acc : List (String × Bson), (acc ++ fs).Pairwise (fun a b => a.1 < b.1) →
      fs.foldl (fun acc f => Bson.insertField f.1 f.2 acc) acc = acc ++ fs := by
    induction fs with
    | nil => simp
    | cons f fs ih =>
      intro acc hacc
      have hlt : ∀ g ∈ acc, g.1 < f.1 :=
        fun g hg => (List.pairwise_append.1 hacc).2.2 g hg f List.mem_cons_self
      rw [List.foldl_cons, Bson.insertField_of_lt hlt, ih (List.pairwise_cons.1 h).2]
      · simp
      · simpa using hacc
  simp only [Bson.objectOf]
  rw [hfold [] (by simpa using h)]
  rfl

theorem Bson.insertMember_of_lt {m : String} :
    ∀ {acc : List String}, (∀ a ∈ acc, a < m) → Bson.insertMember m acc = acc ++ [m]
  | [], _ => rfl
  | a :: acc, h => by
    have hlt : a < m := h a List.mem_cons_self
    have hne : m ≠ a := fun heq => String.lt_irrefl _ (heq ▸ hlt)
    rw [Bson.insertMember, if_neg (String.lt_asymm hlt), if_neg hne,
      Bson.insertMember_of_lt fun b hb => h b (List.mem_cons_of_mem _ hb)]
    rfl

/-- An enum type whose members are sorted without repeats is its own normal form. -/
theorem Bson.enumOf_of_sorted {ms : List String} (h : ms.Pairwise (· < ·)) (name : Option String) :
    Bson.enumOf ms name = .enumeration ms name := by
  have hfold : ∀ acc : List String, (acc ++ ms).Pairwise (· < ·) →
      ms.foldl (fun acc m => Bson.insertMember m acc) acc = acc ++ ms := by
    induction ms with
    | nil => simp
    | cons m ms ih =>
      intro acc hacc
      have hlt : ∀ a ∈ acc, a < m :=
        fun a ha => (List.pairwise_append.1 hacc).2.2 a ha m List.mem_cons_self
      rw [List.foldl_cons, Bson.insertMember_of_lt hlt, ih (List.pairwise_cons.1 h).2]
      · simp
      · simpa using hacc
  rw [Bson.enumOf, hfold [] (by simpa using h), List.nil_append]

/-! ### Types -/

theorem Bson.readsBack_succ {F : Nat} (hb : ReadsBack Bson.Normal Bson.toJson Bson.ofJson? F)
    (hn : ReadsBack (Node.Normal .erased) Node.toJson (Node.ofJson? .erased) F) :
    ReadsBack Bson.Normal Bson.toJson Bson.ofJson? (F + 1) := by
  intro t ht hd
  cases t with
  | array t =>
    simp only [Bson.toJson] at hd ⊢
    have hm := depth_pair_lt (by simp) (Nat.le_of_lt_succ hd)
    obtain ⟨hr, hi⟩ := hb t ht hm.2
    simp [Bson.ofJson?, need, get?_normal_obj, List.lookup_cons, Json.str?, hr, hi]
  | object fs =>
    obtain ⟨hsorted, hfs⟩ := ht
    simp only [Bson.toJson, Bson.toJsonFields_eq] at hd ⊢
    have hm := depth_pair_lt (by simp) (Nat.le_of_lt_succ hd)
    have hkeys : ((fs.map fun f => (f.1, f.2.toJson)).map (·.1)).Nodup := by
      simpa [List.map_map, Function.comp_def] using nodup_keys_of_sorted hsorted
    -- each field one level below the document's members
    have hfield : ∀ f ∈ fs,
        Bson.ofJson? F (normal f.2.toJson) = some f.2 ∧ IntsReadable f.2.toJson := by
      intro f hf
      have hlt : (normal f.2.toJson).depth < _ := depth_lt_of_mem_obj hkeys (List.mem_map_of_mem hf)
      exact hb f.2 (Bson.normalFields_iff.1 hfs f hf) (by omega)
    have hcontent : normal (.obj (fs.map fun f => (f.1, f.2.toJson))) =
        .obj (fs.map fun f => (f.1, normal f.2.toJson)) := by
      rw [normal_obj_of_nodup hkeys, List.map_map, sortByKey_of_sorted]
      · rfl
      · simpa [List.pairwise_map] using hsorted
    have hmap : fs.mapM ((fun x => Option.map (fun y => (x.1, y)) (Bson.ofJson? F x.2)) ∘
        fun f => (f.1, normal f.2.toJson)) = some fs :=
      mapM_of_forall fun f hf => by simp [(hfield f hf).1]
    refine ⟨?_, ?_⟩
    · simp [Bson.ofJson?, need, get?_normal_obj, List.lookup_cons, Json.str?, hcontent, Json.obj?,
        hmap, Bson.objectOf_of_sorted hsorted]
    · simp only [intsReadable_obj, List.forall_mem_cons, intsReadable_str, List.not_mem_nil,
        IsEmpty.forall_iff, implies_true, and_true, true_and, List.forall_mem_map]
      exact fun f hf => (hfield f hf).2
  | enumeration ms name =>
    have hstrs : normal (.arr (ms.map Json.str)) = .arr (ms.map Json.str) := by
      simp [normal_arr, List.map_map, Function.comp_def]
    have hmap : (ms.map Json.str).mapM Json.str? = some ms := by
      rw [List.mapM_map]
      exact mapM_of_forall fun _ _ => rfl
    cases name <;> simp [Bson.toJson, Bson.ofJson?, need, get?_normal_obj, List.lookup_cons,
      Json.str?, Json.optional, Json.optStr, Json.ofOption, hstrs, Json.strs, Json.arr?, hmap,
      Bson.enumOf_of_sorted ht]
  | anyOf ms =>
    obtain ⟨hcanon, hms⟩ := ht
    simp only [Bson.toJson, Bson.toJsonList_eq] at hd ⊢
    have hm := depth_pair_lt (by simp) (Nat.le_of_lt_succ hd)
    obtain ⟨hr, hi⟩ := hb.items (Bson.normalList_iff.1 hms) (Nat.le_of_lt hm.2)
    simp [Bson.ofJson?, need, get?_normal_obj, List.lookup_cons, Json.str?, hr, hi,
      Bson.unionMembers_of_canonical hcanon]
  | computed b e =>
    obtain ⟨hbn, hen⟩ := ht
    simp only [Bson.toJson] at hd ⊢
    have hm := depth_pair_lt (by simp) (Nat.le_of_lt_succ hd)
    -- the base and the expression, one level below the content
    have hc := depth_pair_lt (by simp) (Nat.le_of_lt hm.2)
    obtain ⟨hbr, hbi⟩ := hb b hbn hc.1
    obtain ⟨her, hei⟩ := hn e hen hc.2
    simp [Bson.ofJson?, need, get?_normal_obj, List.lookup_cons, Json.str?, hbr, hbi, her, hei]
  | _ =>
    simp [Bson.toJson, Bson.ofJson?, need, get?_normal_obj, List.lookup_cons, Json.str?,
      Json.isNull]

/-! ### Trees -/

/-- The one member of a tagged one-member object nests, in normal form, less deeply than the
fuel left once both objects are opened. -/
theorem depth_tagged_lt {k key : String} {v : Json} {F : Nat}
    (hd : (normal (.tagged k (.obj [(key, v)]))).depth < F + 1) : (normal v).depth < F := by
  rw [normal_tagged, depth_tagged] at hd
  have hm := depth_members_lt (by simp) (Nat.le_of_lt (Nat.lt_of_succ_lt_succ hd))
  exact hm (key, v) List.mem_cons_self

theorem Node.readsBack_succ {mode : SourceMode} {F : Nat}
    (hc : ReadsBack (Component.Normal mode) Component.toJson (Component.ofJson? mode) F) :
    ReadsBack (Node.Normal mode) Node.toJson (Node.ofJson? mode) (F + 1) := by
  rintro ⟨s, cs⟩ ⟨hs, hkinds, hcs⟩ hd
  simp only [Node.toJson, Node.toJsonComponents_eq] at hd ⊢
  have hm := depth_pair_lt (by simp) (Nat.le_of_lt_succ hd)
  obtain ⟨hsr, hsi⟩ := Origin.ofJson?_toJson hs
  obtain ⟨hcr, hci⟩ := hc.items (Node.normalComponents_iff.1 hcs) (Nat.le_of_lt hm.2)
  -- components of distinct kinds are put back as they come
  have hself : Node.ofComponents s cs = .mk s cs := Node.ofComponents_self (n := .mk s cs) hkinds
  simp [Node.ofJson?, need, get?_normal_obj, List.lookup_cons, hsr, hsi, hcr, hci, hself]

theorem Component.readsBack_succ {mode : SourceMode} {F : Nat}
    (hcoll : ReadsBack (CollectionRef.Normal mode) CollectionRef.toJson (CollectionRef.ofJson? mode) F)
    (hval : ReadsBack (ValueRef.Normal mode) ValueRef.toJson (ValueRef.ofJson? mode) F)
    (hnode : ReadsBack (Node.Normal mode) Node.toJson (Node.ofJson? mode) F) :
    ReadsBack (Component.Normal mode) Component.toJson (Component.ofJson? mode) (F + 1) := by
  intro c hc hd
  cases c with
  | collection r =>
    obtain ⟨hr, hi⟩ := hcoll r hc (depth_tagged_lt hd)
    simp [Component.toJson, Component.ofJson?, normal_tagged, need, get?_normal_obj,
      hr, hi]
  | field r =>
    obtain ⟨hr, hi⟩ := FieldRef.ofJson?_toJson hc
    simp [Component.toJson, Component.ofJson?, normal_tagged, need, get?_normal_obj,
      hr, hi]
  | value r =>
    obtain ⟨hr, hi⟩ := hval r hc (depth_tagged_lt hd)
    simp [Component.toJson, Component.ofJson?, normal_tagged, need, get?_normal_obj,
      hr, hi]
  | branch b ns =>
    simp only [Component.toJson, Node.toJsonList_eq] at hd ⊢
    obtain ⟨hr, hi⟩ := hnode.items (Node.normalList_iff.1 hc) (Nat.le_of_lt (depth_tagged_lt hd))
    -- no branch is named like another component, so its label reaches the last case
    have hlabel := Branch.ofLabel?_label b
    cases b <;> simp only [Branch.label, Branch.kind, ComponentKind.label] at hlabel ⊢ <;>
      simp [Component.ofJson?, normal_tagged, need, get?_normal_obj, hr, hi, hlabel]
  | limit n =>
    simp only [Component.Normal] at hc
    simp [Component.toJson, Component.ofJson?, normal_tagged, need, get?_normal_obj,
      int32?, intIn, hc]
    omega
  | _ =>
    simp [Component.toJson, Component.ofJson?, normal_tagged, need, get?_normal_obj,
      Json.str?, Operator.ofLabel?_label, Command.ofLabel?_label,
      Dialect.ofId?_id, ExplainLevel.ofId?_id]

theorem ValueRef.readsBack_succ {mode : SourceMode} {F : Nat}
    (hb : ReadsBack Bson.Normal Bson.toJson Bson.ofJson? F) :
    ReadsBack (ValueRef.Normal mode) ValueRef.toJson (ValueRef.ofJson? mode) (F + 1) := by
  intro r hr hd
  cases r with
  | unknown => exact ⟨rfl, intsReadable_str _⟩
  | constant s v t | inferred s v t =>
    obtain ⟨hs, hv, ht⟩ := hr
    -- the source, the value and the type, one level below the body
    simp only [ValueRef.toJson, normal_tagged, depth_tagged] at hd
    have hm := depth_members_lt (by simp) (Nat.le_of_lt (Nat.lt_of_succ_lt_succ hd))
    obtain ⟨hsr, hsi⟩ := Origin.ofJson?_toJson hs
    obtain ⟨hvr, hvi⟩ := Constant.readsBack F _ hv (hm ("value", v.toJson) (by simp))
    obtain ⟨htr, hti⟩ := hb _ ht (hm ("bson_type", t.toJson) (by simp))
    simp [ValueRef.toJson, ValueRef.ofJson?, normal_tagged, need, get?_normal_obj,
      List.lookup_cons, hsr, hsi, hvr, hvi, htr, hti]
  | runtime s t | computed s t =>
    obtain ⟨hs, ht⟩ := hr
    -- the source and the type, one level below the body
    simp only [ValueRef.toJson, normal_tagged, depth_tagged] at hd
    have hm := depth_pair_lt (by simp) (Nat.le_of_lt (Nat.lt_of_succ_lt_succ hd))
    obtain ⟨hsr, hsi⟩ := Origin.ofJson?_toJson hs
    obtain ⟨htr, hti⟩ := hb _ ht hm.2
    simp [ValueRef.toJson, ValueRef.ofJson?, normal_tagged, need, get?_normal_obj,
      List.lookup_cons, hsr, hsi, htr, hti]

/-! ### Collections and schemas -/

theorem CollectionRef.readsBack_succ {mode : SourceMode} {F : Nat}
    (hs : ReadsBack Schema.Normal Schema.toJson Schema.ofJson? F) :
    ReadsBack (CollectionRef.Normal mode) CollectionRef.toJson (CollectionRef.ofJson? mode) (F + 1) := by
  intro r hr hd
  cases r with
  | unknown => exact ⟨rfl, intsReadable_str _⟩
  | onlyCollection c coll =>
    obtain ⟨hcr, hci⟩ := Origin.ofJson?_toJson (show c.Fits mode from hr)
    simp [CollectionRef.toJson, CollectionRef.ofJson?, normal_tagged, need, get?_normal_obj,
      List.lookup_cons, Json.str?, hcr, hci]
  | known d c ns sc =>
    obtain ⟨hdb, hc, hsc⟩ := hr
    simp only [CollectionRef.toJson, normal_tagged, depth_tagged] at hd
    have hm := depth_members_lt (by simp) (Nat.le_of_lt (Nat.lt_of_succ_lt_succ hd))
    obtain ⟨hcr, hci⟩ := Origin.ofJson?_toJson hc
    obtain ⟨hnr, hni⟩ := Namespace.ofJson?_toJson ns
    -- a database source is an expression id, written as a number and never as null
    have hsource : ∀ s ∈ d, ∃ n : Nat, s = .expr n ∧
        Origin.ofJson? mode (.int n) = some s ∧ IntsReadable (.int n) := by
      intro s hs
      obtain ⟨hfits, hne⟩ := hdb s hs
      obtain ⟨hsr, hsi⟩ := Origin.ofJson?_toJson hfits
      cases s with
      | erased => exact absurd rfl hne
      | expr n => exact ⟨n, rfl, hsr, hsi⟩
    -- a schema is written as an object, never as null
    have hschema : ∀ sch ∈ sc, ∃ ms, normal sch.toJson = .obj ms ∧
        Schema.ofJson? F (.obj ms) = some sch ∧ IntsReadable sch.toJson := by
      intro sch hsch
      cases hsch
      obtain ⟨ms, hms⟩ : ∃ ms, normal sch.toJson = .obj ms := by cases sch; exact ⟨_, rfl⟩
      obtain ⟨hsr, hsi⟩ := hs sch hsc (hm ("schema", sch.toJson) (by simp [Schema.toJsonOption]))
      rw [hms] at hsr
      exact ⟨ms, hms, hsr, hsi⟩
    cases d with
    | none =>
      cases sc with
      | none =>
        simp [CollectionRef.toJson, CollectionRef.ofJson?, normal_tagged, need, get?_normal_obj,
          List.lookup_cons, Json.optional, Json.ofOption, Schema.toJsonOption, hcr, hci, hnr, hni]
      | some sch =>
        obtain ⟨ms, hms, hsr, hsi⟩ := hschema sch rfl
        simp [CollectionRef.toJson, CollectionRef.ofJson?, normal_tagged, need, get?_normal_obj,
          List.lookup_cons, Json.optional, Json.ofOption, Schema.toJsonOption, hcr, hci, hnr, hni,
          hms, hsr, hsi]
    | some s =>
      obtain ⟨n, rfl, hsr, hsi⟩ := hsource s rfl
      cases sc with
      | none =>
        simp [CollectionRef.toJson, CollectionRef.ofJson?, normal_tagged, need, get?_normal_obj,
          List.lookup_cons, Json.optional, Json.ofOption, Schema.toJsonOption,
          Origin.toJson.eq_1, Json.ofNat, hcr, hci, hnr, hni, hsr, hsi]
      | some sch =>
        obtain ⟨ms, hms, hscr, hsci⟩ := hschema sch rfl
        simp [CollectionRef.toJson, CollectionRef.ofJson?, normal_tagged, need, get?_normal_obj,
          List.lookup_cons, Json.optional, Json.ofOption, Schema.toJsonOption,
          Origin.toJson.eq_1, Json.ofNat, hcr, hci, hnr, hni, hsr, hsi, hms, hscr, hsci]

theorem Schema.readsBack_succ {F : Nat} (hb : ReadsBack Bson.Normal Bson.toJson Bson.ofJson? F) :
    ReadsBack Schema.Normal Schema.toJson Schema.ofJson? (F + 1) := by
  rintro ⟨ns, t⟩ ht hd
  simp only [Schema.toJson] at hd ⊢
  have hm := depth_pair_lt (by simp) (Nat.le_of_lt_succ hd)
  obtain ⟨hnr, hni⟩ := Namespace.ofJson?_toJson ns
  obtain ⟨htr, hti⟩ := hb t ht hm.2
  simp [Schema.ofJson?, need, get?_normal_obj, List.lookup_cons, hnr, hni, htr, hti]

/-- A database source in a tree with erased sources is written as `null`, as an absent one is,
so no fuel reads it back: this is why a normal reference in such a tree has none. -/
theorem CollectionRef.ofJson?_erasedDatabase (F : Nat) (c : Origin) (ns : Namespace)
    (sc : Option Schema) :
    CollectionRef.ofJson? .erased F (normal (CollectionRef.toJson (.known (some .erased) c ns sc))) ≠
      some (.known (some .erased) c ns sc) := by
  cases F with
  | zero => simp [CollectionRef.ofJson?]
  | succ F =>
    intro h
    simp [CollectionRef.toJson, CollectionRef.ofJson?, normal_tagged, need, get?_normal_obj,
      List.lookup_cons, Json.optional, Json.ofOption, Origin.toJson.eq_2,
      Option.bind_eq_some_iff] at h
    -- whatever the schema, the reference read has no database source
    obtain ⟨_, -, _, -, h⟩ := h
    split at h <;> simp [Option.bind_eq_some_iff] at h

/-! ### Reading back at every fuel -/

/-- Every mutually recursive reader reads back, with fuel `F`, what its writer wrote. -/
structure ReadsBackAll (F : Nat) : Prop where
  bson : ReadsBack Bson.Normal Bson.toJson Bson.ofJson? F
  node : ∀ mode, ReadsBack (Node.Normal mode) Node.toJson (Node.ofJson? mode) F
  component : ∀ mode, ReadsBack (Component.Normal mode) Component.toJson (Component.ofJson? mode) F
  value : ∀ mode, ReadsBack (ValueRef.Normal mode) ValueRef.toJson (ValueRef.ofJson? mode) F
  collection : ∀ mode,
    ReadsBack (CollectionRef.Normal mode) CollectionRef.toJson (CollectionRef.ofJson? mode) F
  schema : ReadsBack Schema.Normal Schema.toJson Schema.ofJson? F

theorem ReadsBackAll.succ {F : Nat} (h : ReadsBackAll F) : ReadsBackAll (F + 1) where
  bson := Bson.readsBack_succ h.bson (h.node .erased)
  node mode := Node.readsBack_succ (h.component mode)
  component mode := Component.readsBack_succ (h.collection mode) (h.value mode) (h.node mode)
  value _ := ValueRef.readsBack_succ h.bson
  collection _ := CollectionRef.readsBack_succ h.schema
  schema := Schema.readsBack_succ h.bson

theorem readsBackAll : ∀ F, ReadsBackAll F
  | 0 => ⟨.zero, fun _ => .zero, fun _ => .zero, fun _ => .zero, fun _ => .zero, .zero⟩
  | F + 1 => (readsBackAll F).succ

/-! ### Reading whole documents -/

/-- A normal type reads back from the normal form of its written form. -/
theorem Bson.read?_normal {t : Bson} (h : t.Normal) :
    Bson.read? (normal t.toJson) = some t ∧ IntsReadable t.toJson :=
  (readsBackAll _).bson t h (Nat.lt_succ_self _)

/-- A constant whose integers fit their widths reads back from the normal form of its written
form. -/
theorem Constant.read?_normal {c : Constant} (h : c.Normal) :
    Constant.read? (normal c.toJson) = some c ∧ IntsReadable c.toJson :=
  Constant.readsBack _ c h (Nat.lt_succ_self _)

/-- A normal schema reads back from the normal form of its written form. -/
theorem Schema.read?_normal {s : Schema} (h : s.Normal) :
    Schema.read? (normal s.toJson) = some s ∧ IntsReadable s.toJson :=
  (readsBackAll _).schema s h (Nat.lt_succ_self _)

/-- A normal tree reads back from the normal form of its written form, in its own mode. -/
theorem Node.read?_normal {mode : SourceMode} {n : Node} (h : n.Normal mode) :
    Node.read? mode (normal n.toJson) = some n ∧ IntsReadable n.toJson :=
  (readsBackAll _).node mode n h (Nat.lt_succ_self _)

/-! ### Reading written text -/

/-- The doubles of a document are finite. -/
def DoublesFinite (j : Json) : Prop := ∀ x, Json.num x ∈ j.numbers → x.isFinite = true

theorem readable_of_ints_doubles {j : Json} (hi : IntsReadable j) (hx : DoublesFinite j) :
    ∀ v ∈ j.numbers, v.Readable := by
  intro v hv
  cases v with
  | int n => exact hi n hv
  | num x => exact hx x hv
  | _ => trivial

/-! ### The interchange forms -/

namespace Interchange

/-- The values with an interchange form: types, constants, collection schemas, and trees with
sources of either mode. -/
inductive Form where
  | bson
  | constant
  | schema
  | node (mode : SourceMode)

/-- The values of a form. -/
def Form.Value : Form → Type
  | .bson => Bson
  | .constant => Constant
  | .schema => Schema
  | .node _ => Node

/-- The writer of a form. -/
def Form.write : (f : Form) → f.Value → Json
  | .bson, t => Bson.toJson t
  | .constant, c => Constant.toJson c
  | .schema, s => Schema.toJson s
  | .node _, n => Node.toJson n

/-- The reader of a form, from a whole document. -/
def Form.read : (f : Form) → Json → Option f.Value
  | .bson, j => Bson.read? j
  | .constant, j => Constant.read? j
  | .schema, j => Schema.read? j
  | .node mode, j => Node.read? mode j

/-- The values of a form as the library keeps them. -/
def Form.Normal : (f : Form) → f.Value → Prop
  | .bson, t => Bson.Normal t
  | .constant, c => Constant.Normal c
  | .schema, s => Schema.Normal s
  | .node mode, n => Node.Normal mode n

/-- Every normal value of a form reads back from the normal form of its written form, and the
integers of that form are readable as integers. -/
theorem Form.read_normal (f : Form) {a : f.Value} (h : f.Normal a) :
    f.read (normal (f.write a)) = some a ∧ IntsReadable (f.write a) := by
  cases f with
  | bson => exact Bson.read?_normal h
  | constant => exact Constant.read?_normal h
  | schema => exact Schema.read?_normal h
  | node mode => exact Node.read?_normal h

end Interchange

open Interchange in
/-- Writing a normal value of any interchange form as text and reading the text back, through a
layer that reads back what it writes up to the depth it allows, gives the value, provided its
doubles are finite, if and only if its written form nests at most 127 arrays and objects. -/
theorem interchange_roundTrip_iff_depth (T : TextLayer) (hf : T.Faithful) (hl : T.DepthLimited)
    (f : Form) (a : f.Value) (ha : f.Normal a) (hx : DoublesFinite (f.write a)) :
    (T.parse (T.render (f.write a))).bind f.read = some a ↔ (f.write a).depth ≤ 127 := by
  obtain ⟨hr, hi⟩ := f.read_normal ha
  exact TextLayer.bind_parse_render_iff hf hl hr (readable_of_ints_doubles hi hx)

/-- A document type with an array field and a union field. -/
def Bson.arrayAndUnion : Bson := .object [("a", .array .int32), ("b", .anyOf [.int32, .string])]

/-- A document type with an array field and a union field reads back from its text. -/
theorem interchange_roundTrip_arrayAndUnion :
    TextLayer.bounded.Faithful ∧ TextLayer.bounded.DepthLimited ∧ Bson.arrayAndUnion.Normal ∧
      DoublesFinite Bson.arrayAndUnion.toJson ∧
      (TextLayer.bounded.parse (TextLayer.bounded.render Bson.arrayAndUnion.toJson)).bind
        Bson.read? = some Bson.arrayAndUnion := by
  have hnormal : Bson.arrayAndUnion.Normal :=
    ⟨by decide, trivial,
      ⟨⟨by decide +kernel, by decide, by decide +kernel⟩, trivial, trivial, trivial⟩, trivial⟩
  have hnumbers : Bson.arrayAndUnion.toJson.numbers = [] := rfl
  have hdoubles : DoublesFinite Bson.arrayAndUnion.toJson := fun x hx => by simp [hnumbers] at hx
  exact ⟨TextLayer.faithful_bounded, TextLayer.depthLimited_bounded, hnormal, hdoubles,
    (interchange_roundTrip_iff_depth TextLayer.bounded TextLayer.faithful_bounded
      TextLayer.depthLimited_bounded .bson Bson.arrayAndUnion hnormal hdoubles).2 (by decide)⟩

theorem Bson.normal_iterate_array (k : Nat) (t : Bson) :
    (Nat.iterate Bson.array k t).Normal ↔ t.Normal := by
  induction k generalizing t with
  | zero => rfl
  | succ k ih =>
    show (Nat.iterate Bson.array k (Bson.array t)).Normal ↔ _
    rw [ih]
    simp only [Bson.Normal]

theorem depth_toJson_iterate_array (k : Nat) (t : Bson) :
    (Nat.iterate Bson.array k t).toJson.depth = k + t.toJson.depth := by
  induction k generalizing t with
  | zero => exact (Nat.zero_add _).symm
  | succ k ih =>
    -- the outer array is unfolded last, so the induction peels the innermost one
    show (Nat.iterate Bson.array k (Bson.array t)).toJson.depth = _
    rw [ih]
    simp [Bson.toJson, depth, depth.depthMembers]
    omega

/-- The text of 127 arrays nested around `int32`, a normal type, nests 128 objects, one more
than a depth-limited layer reads, so it does not read back. -/
theorem nestedArray_roundTrip_fails :
    TextLayer.bounded.Faithful ∧ TextLayer.bounded.DepthLimited ∧
      (Nat.iterate Bson.array 127 .int32).Normal ∧
      (TextLayer.bounded.parse
        (TextLayer.bounded.render (Nat.iterate Bson.array 127 .int32).toJson)).bind
        Bson.read? = none := by
  have hdeep : 127 < (Nat.iterate Bson.array 127 .int32).toJson.depth := by
    rw [depth_toJson_iterate_array]
    simp [Bson.toJson, depth, depth.depthMembers]
  refine ⟨TextLayer.faithful_bounded, TextLayer.depthLimited_bounded,
    (Bson.normal_iterate_array 127 .int32).2 trivial, ?_⟩
  rw [TextLayer.depthLimited_bounded _ hdeep]
  rfl

end QueryScope
