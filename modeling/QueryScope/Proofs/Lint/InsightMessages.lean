import QueryScope.Lint.InsightKind
/-!
# Filling message templates

A message template holds placeholders `{i}` standing for the arguments of a finding. Filled
as intended, argument `i` stands where `{i}` is written, all placeholders at once, and the
placeholders of missing arguments stay as written (`substitute`). The message fills the
template one argument after the other instead, each time through the whole text so far, so
an argument whose text holds the placeholder of a later argument has it filled as well: a
field named `{1}` is shown as the collection it was looked for in (`message_captures`).

Short of that the two agree (`message_eq_substitute`). The argument rests on the shape of the
templates: each is a sequence of pieces, text without braces and placeholders, where a
placeholder is followed by the end or by a character that cannot continue one (`Separated`).
A placeholder is then found only where it is written, so filling argument `n` turns the text
with the arguments below `n` filled into the text with those up to `n` filled
(`replaceChars_stage`), and the whole fold gives the text with every argument filled
(`fill_stage`), which is what the simultaneous substitution gives (`substitute_stage`).
-/

namespace QueryScope

namespace Text

/-! ### Replacing a pattern -/

section Replace

variable {p r : List Char}

@[simp] theorem replaceChars_nil : replaceChars p r [] = [] := by
  rw [replaceChars]

/-- Characters that cannot start the pattern are kept, and the scan goes on after them. -/
theorem replaceChars_append_of_not_mem {c : Char} {x : List Char} (y : List Char) (hx : c ∉ x) :
    replaceChars (c :: p) r (x ++ y) = x ++ replaceChars (c :: p) r y := by
  induction x with
  | nil => rfl
  | cons d x ih =>
    simp only [List.mem_cons, not_or] at hx
    rw [List.cons_append, replaceChars, dif_neg (by simp [hx.1]), ih hx.2, List.cons_append]

/-- An occurrence of the pattern starting in `x` and running into `y` puts the first character
of `y` in the tail of the pattern. -/
theorem head_mem_tail_of_prefix_append {x y : List Char} (hx : x ≠ []) (hp : p <+: x ++ y)
    (hnot : ¬p <+: x) : ∃ c ∈ y.head?, c ∈ p.tail := by
  rw [List.prefix_iff_eq_take, List.take_append] at hp
  have hlong : x.length < p.length := by
    refine Nat.lt_of_not_le fun hle => hnot ?_
    rw [hp, Nat.sub_eq_zero_of_le hle, List.take_zero, List.append_nil]
    exact List.take_prefix _ _
  rw [List.take_of_length_le (Nat.le_of_lt hlong)] at hp
  cases y with
  | nil =>
    rw [List.take_nil, List.append_nil] at hp
    exact absurd (hp ▸ List.prefix_refl x) hnot
  | cons d y =>
    -- the character after `x` sits in the pattern behind the first one
    obtain ⟨k, hk⟩ := Nat.exists_eq_add_of_lt hlong
    rw [show p.length - x.length = k + 1 by omega, List.take_succ_cons] at hp
    obtain ⟨a, x', rfl⟩ := List.exists_cons_of_ne_nil hx
    refine ⟨d, rfl, ?_⟩
    rw [hp]
    simp

/-- When no occurrence of the pattern runs from `x` into `y`, replacing in `x ++ y` replaces in
each part. -/
theorem replaceChars_append (x : List Char) {y : List Char} (hy : ∀ c ∈ y.head?, c ∉ p.tail) :
    replaceChars p r (x ++ y) = replaceChars p r x ++ replaceChars p r y := by
  fun_induction replaceChars p r x with
  | case1 => rfl
  | case2 c cs h ih =>
    have hprefix : p <+: c :: cs := List.isPrefixOf_iff_prefix.1 h.2
    have hpre : p.isPrefixOf (c :: (cs ++ y)) = true :=
      List.isPrefixOf_iff_prefix.2 (List.IsPrefix.trans hprefix (List.prefix_append _ _))
    have hlen : p.length ≤ (c :: cs).length := List.IsPrefix.length_le hprefix
    rw [List.cons_append, replaceChars, dif_pos ⟨h.1, hpre⟩, ← List.cons_append,
      List.drop_append_of_le_length hlen, ih, List.append_assoc]
  | case3 c cs h ih =>
    -- no occurrence starts at `c`: not in `c :: cs`, and none runs on into `y`
    have hnot : ¬(p ≠ [] ∧ p.isPrefixOf (c :: (cs ++ y)) = true) := by
      rintro ⟨hne, hpre⟩
      rw [List.isPrefixOf_iff_prefix, ← List.cons_append] at hpre
      by_cases hx : p <+: c :: cs
      · exact h ⟨hne, List.isPrefixOf_iff_prefix.2 hx⟩
      · obtain ⟨d, hd, hdp⟩ := head_mem_tail_of_prefix_append (List.cons_ne_nil c cs) hpre hx
        exact hy d hd hdp
    rw [List.cons_append, replaceChars, dif_neg hnot, ih, List.cons_append]

/-- A text without the pattern is kept as it is. -/
theorem replaceChars_eq_self_of_absent {x : List Char} (hx : ¬p <:+: x) : replaceChars p r x = x := by
  fun_induction replaceChars p r x with
  | case1 => rfl
  | case2 c cs h _ => exact absurd (List.isPrefixOf_iff_prefix.1 h.2).isInfix hx
  | case3 c cs _ ih =>
    rw [ih (fun hi => hx (hi.trans (List.suffix_cons c cs).isInfix))]

/-- The pattern at the start is replaced, and the scan goes on after it. -/
theorem replaceChars_prefix (hp : p ≠ []) (y : List Char) :
    replaceChars p r (p ++ y) = r ++ replaceChars p r y := by
  obtain ⟨c, p', rfl⟩ := List.exists_cons_of_ne_nil hp
  rw [List.cons_append, replaceChars, dif_pos ⟨hp, by simp [List.isPrefixOf_iff_prefix]⟩,
    ← List.cons_append, List.drop_left]

end Replace

end Text

namespace InsightKind

/-! ### Placeholders -/

theorem toList_placeholder (i : Nat) :
    (placeholder i).toList = '{' :: (Nat.toDigits 10 i ++ ['}']) := by
  simp [placeholder]

theorem placeholder_ne_nil (i : Nat) : (placeholder i).toList ≠ [] := by
  simp [toList_placeholder]

/-- A digit is neither brace. -/
theorem brace_not_mem_toDigits (i : Nat) : '{' ∉ Nat.toDigits 10 i ∧ '}' ∉ Nat.toDigits 10 i := by
  constructor <;> intro h <;>
    exact absurd (Nat.isDigit_of_mem_toDigits (by decide) (by decide) h) (by decide)

/-- Digits closed by a brace start another such text only when the digits are the same. -/
theorem eq_of_digits_prefix {a b rest : List Char} (ha : '}' ∉ a) (hb : '}' ∉ b)
    (h : a ++ ['}'] <+: b ++ '}' :: rest) : a = b := by
  induction a generalizing b with
  | nil =>
    cases b with
    | nil => rfl
    | cons d b => simp_all
  | cons c a ih =>
    cases b with
    | nil => simp_all
    | cons d b =>
      simp only [List.cons_append, List.cons_prefix_cons] at h
      simp only [List.mem_cons, not_or] at ha hb
      rw [h.1, ih ha.2 hb.2 h.2]

/-- A placeholder starting a text is the placeholder of one argument only. -/
theorem eq_of_placeholder_prefix {i j : Nat} {rest : List Char}
    (h : (placeholder i).toList <+: (placeholder j).toList ++ rest) : i = j := by
  simp only [toList_placeholder, List.cons_append, List.cons_prefix_cons, true_and,
    List.append_assoc] at h
  have hdigits := eq_of_digits_prefix (brace_not_mem_toDigits i).2 (brace_not_mem_toDigits j).2 h
  rw [← Nat.ofDigitChars_ten_toDigits (n := i), hdigits, Nat.ofDigitChars_ten_toDigits]

/-- A placeholder occurs in another only as that placeholder. -/
theorem eq_of_placeholder_occurs {i j : Nat}
    (h : (placeholder i).toList <:+: (placeholder j).toList) : i = j := by
  obtain ⟨s, t, hst⟩ := h
  cases s with
  | nil => exact eq_of_placeholder_prefix ⟨t, by rw [List.append_nil, ← hst, List.nil_append]⟩
  | cons c s =>
    -- an opening brace past the first character of a placeholder is impossible
    rw [toList_placeholder, toList_placeholder] at hst
    simp only [List.cons_append, List.cons.injEq] at hst
    have hmem : '{' ∈ Nat.toDigits 10 j ++ ['}'] := by
      rw [← hst.2]
      simp
    simp [(brace_not_mem_toDigits j).1] at hmem

/-! ### Templates as pieces -/

/-- A piece of a template: characters written as they are, or the placeholder of an
argument. -/
inductive Piece where
  | text (cs : List Char)
  | hole (i : Nat)

namespace Piece

/-- The characters of a piece in the template. -/
def chars : Piece → List Char
  | .text cs => cs
  | .hole i => (placeholder i).toList

/-- The characters of a piece once the arguments below `n` are filled in. -/
def filled (args : List String) (n : Nat) : Piece → List Char
  | .text cs => cs
  | .hole i => if i < n then ((args[i]?).getD (placeholder i)).toList else (placeholder i).toList

end Piece

/-- A template of pieces whose text has no opening brace, and whose placeholders are each
followed by the end or by text starting with a character that cannot continue a
placeholder. -/
inductive Separated : List Piece → Prop
  | nil : Separated []
  | text {cs : List Char} {rest : List Piece} : '{' ∉ cs → Separated rest →
      Separated (.text cs :: rest)
  | last (i : Nat) : Separated [.hole i]
  | hole {i : Nat} {c : Char} {cs : List Char} {rest : List Piece} : c.isDigit = false →
      c ≠ '}' → Separated (.text (c :: cs) :: rest) → Separated (.hole i :: .text (c :: cs) :: rest)

/-- Whether a template is separated, checked piece by piece. -/
def separatedB : List Piece → Bool
  | [] => true
  | .text cs :: rest => !cs.contains '{' && separatedB rest
  | [.hole _] => true
  | .hole _ :: .text (c :: cs) :: rest =>
    !c.isDigit && c != '}' && separatedB (.text (c :: cs) :: rest)
  | .hole _ :: _ => false

theorem separated_of_separatedB {ps : List Piece} (h : separatedB ps = true) : Separated ps := by
  induction ps using separatedB.induct with
  | case1 => exact .nil
  | case2 cs rest ih =>
    simp only [separatedB, Bool.and_eq_true, Bool.not_eq_true'] at h
    exact .text (by simpa using h.1) (ih h.2)
  | case3 i => exact .last i
  | case4 i c cs rest ih =>
    -- unfold only the head: the check of the rest is what the induction hypothesis reads
    change (!c.isDigit && c != '}' && separatedB (.text (c :: cs) :: rest)) = true at h
    rw [Bool.and_eq_true, Bool.and_eq_true] at h
    exact .hole (by simpa using h.1.1) (by simpa using h.1.2) (ih h.2)
  | case5 i _ hne => simp_all [separatedB]

theorem separatedB_of_separated {ps : List Piece} (h : Separated ps) : separatedB ps = true := by
  induction h with
  | nil => rfl
  | text hcs _ ih => simpa [separatedB, hcs] using ih
  | last i => rfl
  | hole hd hc _ ih => simp_all [separatedB]

instance : DecidablePred Separated := fun ps =>
  decidable_of_iff (separatedB ps = true) ⟨separated_of_separatedB, separatedB_of_separated⟩

/-- The text of a template with the arguments below `n` filled in. -/
def stage (args : List String) (n : Nat) (ps : List Piece) : List Char :=
  (ps.map (Piece.filled args n)).flatten

/-- No argument holds the placeholder of a later argument. -/
def NoCapture (args : List String) : Prop :=
  ∀ i < args.length, ∀ j < i, ∀ a ∈ args[j]?, ¬(placeholder i).toList <:+: a.toList

section Filling

variable {args : List String} {n : Nat}

/-- A character that cannot continue a placeholder is not in one behind its start. -/
theorem not_mem_tail_placeholder {c : Char} (hc : c.isDigit = false) (hc' : c ≠ '}') (i : Nat) :
    c ∉ (placeholder i).toList.tail := by
  rw [toList_placeholder, List.tail_cons, List.mem_append, List.mem_singleton, not_or]
  exact ⟨fun h => absurd (Nat.isDigit_of_mem_toDigits (by decide) (by decide) h) (by simp [hc]),
    hc'⟩

/-- Filling argument `n` changes a placeholder only when it is that of `n`. -/
theorem replaceChars_filled (hcap : NoCapture args) (hn : n < args.length) (i : Nat) :
    Text.replaceChars (placeholder n).toList args[n].toList (Piece.filled args n (.hole i)) =
      Piece.filled args (n + 1) (.hole i) := by
  simp only [Piece.filled]
  rcases Nat.lt_trichotomy i n with hlt | rfl | hgt
  · -- an argument filled before: it holds no placeholder of `n`
    have hi : i < args.length := by omega
    rw [if_pos hlt, if_pos (by omega), List.getElem?_eq_getElem hi, Option.getD_some]
    exact Text.replaceChars_eq_self_of_absent (hcap n hn i hlt _ (List.getElem?_eq_getElem hi))
  · have hfill := Text.replaceChars_prefix (r := args[i].toList) (placeholder_ne_nil i) []
    rw [List.append_nil] at hfill
    rw [if_neg (Nat.lt_irrefl _), if_pos (Nat.lt_succ_self _), List.getElem?_eq_getElem hn,
      Option.getD_some, hfill, Text.replaceChars_nil, List.append_nil]
  · -- the placeholder of a later argument is another placeholder
    rw [if_neg (by omega), if_neg (by omega)]
    exact Text.replaceChars_eq_self_of_absent fun h => absurd (eq_of_placeholder_occurs h) (by omega)

/-- Filling argument `n` into a separated template with the arguments below `n` filled gives
it with those up to `n` filled. -/
theorem replaceChars_stage (hcap : NoCapture args) (hn : n < args.length) {ps : List Piece}
    (hps : Separated ps) :
    Text.replaceChars (placeholder n).toList args[n].toList (stage args n ps) =
      stage args (n + 1) ps := by
  have hpat : (placeholder n).toList = '{' :: (Nat.toDigits 10 n ++ ['}']) := toList_placeholder n
  induction hps with
  | nil => simp [stage]
  | @text cs rest hcs _ ih =>
    simp only [stage, List.map_cons, List.flatten_cons, Piece.filled] at ih ⊢
    rw [hpat, Text.replaceChars_append_of_not_mem _ hcs, ← hpat, ih]
  | last i =>
    simpa [stage] using replaceChars_filled hcap hn i
  | @hole i c cs rest hc hc' _ ih =>
    -- the text after the placeholder starts with a character no placeholder continues with
    have hstop : ∀ d ∈ (stage args n (.text (c :: cs) :: rest)).head?,
        d ∉ (placeholder n).toList.tail := by
      simp only [stage, List.map_cons, Piece.filled, List.flatten_cons, List.cons_append,
        List.head?_cons, Option.mem_def, Option.some.injEq]
      rintro d rfl
      exact not_mem_tail_placeholder hc hc' n
    have hsplit : stage args n (.hole i :: .text (c :: cs) :: rest) =
        Piece.filled args n (.hole i) ++ stage args n (.text (c :: cs) :: rest) := rfl
    rw [hsplit, Text.replaceChars_append _ hstop, replaceChars_filled hcap hn i, ih]
    rfl

/-- Once every argument is filled, filling more changes nothing. -/
theorem stage_of_length_le (hn : args.length ≤ n) (ps : List Piece) :
    stage args n ps = stage args args.length ps := by
  simp only [stage]
  congr 1
  apply List.map_congr_left
  intro p _
  cases p with
  | text cs => rfl
  | hole i =>
    simp only [Piece.filled]
    by_cases hi : i < args.length
    · rw [if_pos (by omega), if_pos hi]
    · rw [List.getElem?_eq_none (by omega)]
      simp

/-- Filling the arguments from `n` on into a separated template with those below `n` filled
gives it with every argument filled. -/
theorem fill_stage (hcap : NoCapture args) {ps : List Piece} (hps : Separated ps) :
    ∀ n, fill (String.ofList (stage args n ps)) n (args.drop n) =
      String.ofList (stage args args.length ps) := by
  -- induction on the arguments left, from the last one back
  intro n
  induction h : args.drop n generalizing n with
  | nil =>
    rw [List.drop_eq_nil_iff] at h
    rw [fill, stage_of_length_le h]
  | cons a rest ih =>
    have hn : n < args.length := by
      refine Nat.lt_of_not_le fun hle => ?_
      simp [List.drop_eq_nil_of_le hle] at h
    have ha : args[n] = a := by
      have hhead : (args.drop n).head? = some a := by rw [h]; rfl
      rw [List.head?_drop, List.getElem?_eq_getElem hn, Option.some.injEq] at hhead
      exact hhead
    have hrest : args.drop (n + 1) = rest := by
      rw [← List.drop_drop, h, List.drop_one, List.tail_cons]
    rw [fill, Text.replaceAll, String.toList_ofList, ← ha, replaceChars_stage hcap hn hps,
      ih (n + 1) hrest]

end Filling

/-! ### Filling every placeholder at once -/

/-- The text with each placeholder `{i}` of an argument replaced by that argument, all at once:
the text of an argument is not looked at again, and the placeholders of missing arguments
stay. -/
def substitute (args : List String) : List Char → List Char
  | [] => []
  | c :: cs =>
    match args.zipIdx.find? fun (_, i) => (placeholder i).toList.isPrefixOf (c :: cs) with
    | some (a, i) => a.toList ++ substitute args ((c :: cs).drop (placeholder i).toList.length)
    | none => c :: substitute args cs
termination_by cs => cs.length
decreasing_by
  all_goals simp_wf
  have hpos : 0 < (placeholder i).toList.length := List.length_pos_iff.mpr (placeholder_ne_nil i)
  omega

section Substitute

variable {args : List String}

/-- No placeholder starts with a character other than an opening brace. -/
theorem find?_zipIdx_of_ne {c : Char} (hc : c ≠ '{') (cs : List Char) :
    args.zipIdx.find? (fun (_, i) => (placeholder i).toList.isPrefixOf (c :: cs)) = none := by
  rw [List.find?_eq_none]
  rintro ⟨a, i⟩ -
  simp [toList_placeholder, List.isPrefixOf, Ne.symm hc]

theorem substitute_cons_of_ne {c : Char} (hc : c ≠ '{') (cs : List Char) :
    substitute args (c :: cs) = c :: substitute args cs := by
  rw [substitute, find?_zipIdx_of_ne hc]

/-- Text without an opening brace is kept. -/
theorem substitute_append_of_not_mem {x : List Char} (y : List Char) (hx : '{' ∉ x) :
    substitute args (x ++ y) = x ++ substitute args y := by
  induction x with
  | nil => rfl
  | cons c x ih =>
    simp only [List.mem_cons, not_or] at hx
    rw [List.cons_append, substitute_cons_of_ne (Ne.symm hx.1), ih hx.2, List.cons_append]

/-- The argument a placeholder at the start of a text finds, when it has one. -/
theorem find?_zipIdx_placeholder (i : Nat) (y : List Char) :
    args.zipIdx.find? (fun (_, j) => (placeholder j).toList.isPrefixOf ((placeholder i).toList ++ y)) =
      args[i]?.map fun a => (a, i) := by
  cases hi : args[i]? with
  | none =>
    rw [Option.map_none, List.find?_eq_none]
    rintro ⟨a, j⟩ hmem hpre
    rw [List.isPrefixOf_iff_prefix] at hpre
    obtain rfl := eq_of_placeholder_prefix hpre
    rw [List.mem_zipIdx_iff_getElem?] at hmem
    simp_all
  | some a =>
    rw [Option.map_some, List.find?_eq_some_iff_getElem]
    refine ⟨by simp [List.isPrefixOf_iff_prefix], i, ?_, ?_, ?_⟩
    · have := (List.getElem?_eq_some_iff.1 hi).1
      simpa using this
    · simp [List.getElem_zipIdx, (List.getElem?_eq_some_iff.1 hi).2]
    · -- an earlier argument's placeholder is another one
      intro j hj
      simp only [List.getElem_zipIdx, Nat.zero_add, Bool.not_eq_eq_eq_not, Bool.not_true,
        Bool.eq_false_iff, ne_eq, List.isPrefixOf_iff_prefix]
      intro hpre
      have := eq_of_placeholder_prefix hpre
      omega

/-- A placeholder is replaced by its argument, or kept when there is none. -/
theorem substitute_placeholder (i : Nat) (y : List Char) :
    substitute args ((placeholder i).toList ++ y) =
      ((args[i]?).getD (placeholder i)).toList ++ substitute args y := by
  have hcons : (placeholder i).toList ++ y = '{' :: (Nat.toDigits 10 i ++ '}' :: y) := by
    simp [toList_placeholder]
  have hfind := @find?_zipIdx_placeholder args i y
  rw [hcons] at hfind ⊢
  rw [substitute, hfind]
  cases hi : args[i]? with
  | some a =>
    simp only [Option.map_some, Option.getD_some]
    rw [← hcons, List.drop_left]
  | none =>
    -- a placeholder without an argument: its characters are kept one by one
    simp only [Option.map_none, Option.getD_none, toList_placeholder, List.cons_append]
    congr 1
    rw [substitute_append_of_not_mem _ (brace_not_mem_toDigits i).1,
      substitute_cons_of_ne (by decide), List.append_assoc, List.singleton_append]

theorem filled_zero (i : Nat) : Piece.filled args 0 (.hole i) = (placeholder i).toList := rfl

/-- With every argument filled, a placeholder is its argument, or itself when there is none. -/
theorem filled_length (i : Nat) :
    Piece.filled args args.length (.hole i) = ((args[i]?).getD (placeholder i)).toList := by
  simp only [Piece.filled]
  by_cases hi : i < args.length
  · rw [if_pos hi]
  · rw [if_neg hi, List.getElem?_eq_none (by omega), Option.getD_none]

/-- Substituting at once in a template of pieces fills every argument. -/
theorem substitute_stage {ps : List Piece} (hps : Separated ps) :
    substitute args (stage args 0 ps) = stage args args.length ps := by
  induction hps with
  | nil => simp [stage, substitute]
  | @text cs rest hcs _ ih =>
    simp only [stage, List.map_cons, List.flatten_cons, Piece.filled] at ih ⊢
    rw [substitute_append_of_not_mem _ hcs, ih]
  | last i =>
    have hlast := @substitute_placeholder args i []
    rw [List.append_nil, substitute, List.append_nil] at hlast
    simp only [stage, List.map_cons, List.map_nil, List.flatten_cons, List.flatten_nil,
      List.append_nil]
    rw [filled_length, filled_zero, hlast]
  | @hole i c cs rest _ _ _ ih =>
    have hsplit : stage args 0 (.hole i :: .text (c :: cs) :: rest) =
        (placeholder i).toList ++ stage args 0 (.text (c :: cs) :: rest) := rfl
    rw [hsplit, substitute_placeholder, ih, ← filled_length]
    rfl

/-- With no argument filled, a template of pieces is their characters. -/
theorem stage_zero (ps : List Piece) : stage args 0 ps = (ps.map Piece.chars).flatten := by
  induction ps with
  | nil => rfl
  | cons p ps ih =>
    simp only [stage, List.map_cons, List.flatten_cons] at ih ⊢
    rw [ih]
    cases p <;> rfl

end Substitute

/-! ### The templates -/

/-- The pieces of each template. -/
def form : InsightKind → List Piece
  | .fieldDoesNotExist =>
    [.text "Field \"".toList, .hole 0, .text "\" does not exist in collection \"".toList, .hole 1,
      .text "\"".toList]
  | .fieldValueTypeMismatch =>
    [.text "A value of type \"".toList, .hole 1, .text "\" cannot be assigned to field \"".toList,
      .hole 0, .text "\" of type \"".toList, .hole 2, .text "\"".toList]
  | .invalidProjection =>
    [.text "Field \"".toList, .hole 0,
      .text "\" cannot be included in a projection that excludes other fields".toList]
  | .noNamespaceInferred =>
    [.text "Cannot infer the ".toList, .hole 0, .text " this query targets".toList]
  | .databaseDoesNotExist =>
    [.text "Database \"".toList, .hole 0, .text "\" does not exist".toList]
  | .collectionDoesNotExist =>
    [.text "Collection \"".toList, .hole 0, .text "\" does not exist in database \"".toList,
      .hole 1, .text "\"".toList]
  | .queryNotCoveredByIndex => [.text "This query is not covered by any index".toList]
  | .queryNotUsingEffectiveIndex =>
    [.text "This query uses an index but still filters or sorts in memory".toList]
  | .queryNotUsingFilters =>
    [.text "This query does not filter and reads the whole collection".toList]
  | .cannotCheck => [.text "Cannot run ".toList, .hole 0, .text ": ".toList, .hole 1]

/-- Each template is the characters of its pieces. -/
theorem template_eq_form (k : InsightKind) :
    k.template.toList = (k.form.map Piece.chars).flatten := by
  cases k <;> decide +kernel

/-- Every template is separated. -/
theorem separated_form (k : InsightKind) : Separated k.form := by
  cases k <;> decide

/-! ### Messages -/

/-- When no argument holds the placeholder of a later argument, the message is the template
with every placeholder of an argument filled at once. -/
theorem message_eq_substitute (k : InsightKind) (args : List String) (hcap : NoCapture args) :
    k.message args = String.ofList (substitute args k.template.toList) := by
  have hfill := fill_stage hcap (separated_form k) 0
  rw [List.drop_zero, stage_zero, ← template_eq_form, String.ofList_toList] at hfill
  rw [message, hfill, template_eq_form, ← stage_zero, substitute_stage (separated_form k)]

/-- Two arguments with nothing to capture: the message is the template filled at once. -/
theorem message_eq_substitute_fieldDoesNotExist :
    NoCapture ["email", "shop.users"] ∧
      fieldDoesNotExist.message ["email", "shop.users"] =
        String.ofList (substitute ["email", "shop.users"] fieldDoesNotExist.template.toList) := by
  have hcap : NoCapture ["email", "shop.users"] := by
    intro i hi j hj a ha
    simp only [List.length_cons, List.length_nil] at hi
    obtain rfl : i = 1 := by omega
    obtain rfl : j = 0 := by omega
    simp only [List.getElem?_cons_zero, Option.mem_def, Option.some.injEq] at ha
    subst ha
    decide
  exact ⟨hcap, message_eq_substitute _ _ hcap⟩

/-- A field named `{1}`: the message shows the collection in its place, where filling at once
keeps the name. -/
theorem message_captures :
    fieldDoesNotExist.message ["{1}", "x"] = "Field \"x\" does not exist in collection \"x\"" ∧
      String.ofList (substitute ["{1}", "x"] fieldDoesNotExist.template.toList) =
        "Field \"{1}\" does not exist in collection \"x\"" ∧
      fieldDoesNotExist.message ["{1}", "x"] ≠
        String.ofList (substitute ["{1}", "x"] fieldDoesNotExist.template.toList) := by
  have hmessage : fieldDoesNotExist.message ["{1}", "x"] =
      "Field \"x\" does not exist in collection \"x\"" := by decide +kernel
  have hsubstitute : String.ofList (substitute ["{1}", "x"] fieldDoesNotExist.template.toList) =
      "Field \"{1}\" does not exist in collection \"x\"" := by decide +kernel
  refine ⟨hmessage, hsubstitute, ?_⟩
  rw [hmessage, hsubstitute]
  decide

end InsightKind

end QueryScope
