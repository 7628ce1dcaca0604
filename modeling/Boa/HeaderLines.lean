import Boa.Bytes

/-! The lines of a header block, up to the blank line that ends it. Nothing here depends on
the program. -/
namespace Boa

/-- A line with nothing on it, with or without a CR. -/
def IsBlank (line : Bytes) : Prop := line = [] ∨ line = [cr]

instance (line : Bytes) : Decidable (IsBlank line) := inferInstanceAs (Decidable (_ ∨ _))

/-- `headLines` behind the part of a line. -/
def headLinesFrom : Bytes → Bytes → Option (List Bytes)
  | _, [] => none
  | line, b :: s =>
    if b = lf then
      if IsBlank line then some [] else (headLinesFrom [] s).map (line :: ·)
    else headLinesFrom (line ++ [b]) s

/-- The lines before the first blank line, without their LFs, if there is a blank line. -/
def headLines (s : Bytes) : Option (List Bytes) := headLinesFrom [] s

variable {l s t x : Bytes} {ls : List Bytes}

lemma headLinesFrom_line (hl : lf ∉ l) (pre s : Bytes) :
    headLinesFrom pre (l ++ lf :: s) =
      if IsBlank (pre ++ l) then some [] else (headLines s).map ((pre ++ l) :: ·) := by
  induction l generalizing pre with
  | nil => simp [headLinesFrom, headLines]
  | cons b l ih =>
    have hb : b ≠ lf := fun h => hl (h ▸ List.mem_cons_self)
    have hrest := ih (fun h => hl (List.mem_cons_of_mem _ h)) (pre ++ [b])
    rw [List.append_assoc, List.singleton_append] at hrest
    rw [List.cons_append, headLinesFrom, if_neg hb]
    exact hrest

/-- The first line, and the lines behind it. -/
lemma headLines_line (hl : lf ∉ l) (s : Bytes) :
    headLines (l ++ lf :: s) = if IsBlank l then some [] else (headLines s).map (l :: ·) :=
  headLinesFrom_line hl [] s

lemma headLinesFrom_eq_none (hs : lf ∉ s) (pre : Bytes) : headLinesFrom pre s = none := by
  induction s generalizing pre with
  | nil => rfl
  | cons b s ih =>
    have hb : b ≠ lf := fun h => hs (h ▸ List.mem_cons_self)
    rw [headLinesFrom, if_neg hb]
    exact ih (fun h => hs (List.mem_cons_of_mem _ h)) _

/-- A text without a line end has no header block. -/
lemma headLines_eq_none (hs : lf ∉ s) : headLines s = none := headLinesFrom_eq_none hs []

/-- A text has no line end, or a first line. -/
lemma exists_line (s : Bytes) : lf ∉ s ∨ ∃ l t, s = l ++ lf :: t ∧ lf ∉ l := by
  by_cases h : lf ∈ s
  · exact .inr (List.eq_append_cons_of_mem h)
  · exact .inl h

/-- More text behind the blank line changes nothing. -/
lemma headLines_append (h : headLines s = some ls) (t : Bytes) : headLines (s ++ t) = some ls := by
  have key : ∀ (s pre : Bytes) ls, headLinesFrom pre s = some ls → headLinesFrom pre (s ++ t) = some ls := by
    intro s
    induction s with
    | nil => intro pre ls h; cases h
    | cons b s ih =>
      intro pre ls h
      rw [List.cons_append]
      unfold headLinesFrom at h ⊢
      split_ifs at h ⊢
      · exact h
      · obtain ⟨rest, hrest, rfl⟩ := Option.map_eq_some_iff.mp h
        rw [ih [] rest hrest]
        rfl
      · exact ih _ _ h
  exact key s [] ls h

/-- A text that starts with a blank line. -/
def StartsBlank (s : Bytes) : Prop := [lf] <+: s ∨ [cr, lf] <+: s

instance (s : Bytes) : Decidable (StartsBlank s) := inferInstanceAs (Decidable (_ ∨ _))

/-- No lines come before the first blank line exactly if it comes first. -/
lemma headLines_eq_nil_iff : headLines s = some [] ↔ StartsBlank s := by
  constructor
  · intro h
    obtain hno | ⟨l, t, rfl, hl⟩ := exists_line s
    · rw [headLines_eq_none hno] at h
      cases h
    · rw [headLines_line hl] at h
      split_ifs at h with hb
      · obtain rfl | rfl := hb
        · exact .inl ⟨t, rfl⟩
        · exact .inr ⟨t, rfl⟩
      · obtain ⟨rest, -, hrest⟩ := Option.map_eq_some_iff.mp h
        cases hrest
  · rintro (⟨t, rfl⟩ | ⟨t, rfl⟩)
    · have hline := headLines_line (l := []) List.not_mem_nil t
      rwa [if_pos (.inl rfl)] at hline
    · have hline := headLines_line (l := [cr]) (by decide) t
      rwa [if_pos (.inr rfl)] at hline

/-- The first of the lines is where the text starts. -/
lemma headLines_cons (h : headLines s = some (l :: ls)) : ¬ IsBlank l ∧ ∃ t, s = l ++ lf :: t := by
  obtain hno | ⟨m, t, rfl, hm⟩ := exists_line s
  · rw [headLines_eq_none hno] at h
    cases h
  · rw [headLines_line hm] at h
    split_ifs at h with hb
    · cases h
    · obtain ⟨rest, -, hrest⟩ := Option.map_eq_some_iff.mp h
      obtain ⟨rfl, -⟩ := List.cons.inj hrest
      exact ⟨hb, t, rfl⟩

/-- A text with two line ends in a row has a blank line. -/
lemma headLines_ne_none {a b : Bytes} (hb : b = [lf, lf] ∨ b = [lf, cr, lf]) :
    headLines (a ++ (b ++ t)) ≠ none := by
  have hfirst : ∀ pre, headLinesFrom pre (b ++ t) ≠ none := by
    intro pre
    obtain ⟨x, rfl, hx⟩ : ∃ x, b = lf :: x ∧ StartsBlank (x ++ t) := by
      obtain rfl | rfl := hb
      · exact ⟨[lf], rfl, .inl ⟨t, rfl⟩⟩
      · exact ⟨[cr, lf], rfl, .inr ⟨t, rfl⟩⟩
    have hrest : headLinesFrom [] (x ++ t) = some [] := headLines_eq_nil_iff.mpr hx
    rw [List.cons_append, headLinesFrom, if_pos rfl, hrest]
    split_ifs <;> exact Option.some_ne_none _
  have key : ∀ pre, headLinesFrom pre (a ++ (b ++ t)) ≠ none := by
    induction a with
    | nil => exact hfirst
    | cons x a ih =>
      intro pre
      rw [List.cons_append, headLinesFrom]
      split_ifs
      · exact Option.some_ne_none _
      · rw [ne_eq, Option.map_eq_none_iff]
        exact ih []
      · exact ih _
  exact key []

/-- The text behind the line ends at its start. -/
def skipEnds (s : Bytes) : Bytes := s.dropWhile fun b => b = lf ∨ b = cr

lemma skipEnds_eq_nil_iff : skipEnds s = [] ↔ ∀ b ∈ s, b = lf ∨ b = cr := by
  rw [skipEnds, List.dropWhile_eq_nil_iff]
  simp

lemma skipEnds_head {x : UInt8} {t : Bytes} (h : skipEnds s = x :: t) : x ≠ cr ∧ x ≠ lf := by
  have hne : s.dropWhile (fun b => decide (b = lf ∨ b = cr)) ≠ [] := fun hnil => List.cons_ne_nil x t (h ▸ hnil)
  have hhead := List.head_dropWhile_not (fun b => decide (b = lf ∨ b = cr)) hne
  unfold skipEnds at h
  simp only [h, List.head_cons, decide_eq_false_iff_not, not_or] at hhead
  exact hhead.symm

lemma length_skipEnds_le (s : Bytes) : (skipEnds s).length ≤ s.length := (List.dropWhile_suffix _).length_le

/-- Nothing is skipped exactly if a line starts there. -/
lemma length_skipEnds_iff (hs : s ≠ []) :
    (skipEnds s).length = s.length ↔ ∃ b ∈ s.head?, b ≠ cr ∧ b ≠ lf := by
  obtain ⟨b, s, rfl⟩ := List.exists_cons_of_ne_nil hs
  unfold skipEnds
  by_cases hb : b = lf ∨ b = cr
  · have hle := (List.dropWhile_suffix (fun b => decide (b = lf ∨ b = cr)) (l := s)).length_le
    rw [List.dropWhile_cons_of_pos (by exact decide_eq_true hb)]
    refine iff_of_false (fun h => ?_) ?_
    · rw [List.length_cons] at h
      omega
    · rintro ⟨x, hx, hcr, hlf⟩
      obtain rfl := Option.some.inj hx
      exact hb.elim hlf hcr
  · rw [List.dropWhile_cons_of_neg (by simpa using hb)]
    exact iff_of_true rfl ⟨b, rfl, fun h => hb (.inr h), fun h => hb (.inl h)⟩

/-- What is left of a header block when the line ends at its start are skipped has the same lines
only if there are none. -/
lemma headLines_skip_iff (hs : headLines s ≠ none) (t : Bytes) (hskip : skipEnds s ≠ []) :
    headLines (skipEnds s ++ t) = headLines s ↔ ∃ b ∈ s.head?, b ≠ cr ∧ b ≠ lf := by
  obtain ⟨x, rest, hx⟩ := List.exists_cons_of_ne_nil hskip
  have hxend := skipEnds_head hx
  constructor
  · intro h
    obtain ⟨ls, hls⟩ := Option.ne_none_iff_exists'.mp hs
    rw [hls, hx] at h
    cases ls with
    | nil =>
      exfalso
      rw [headLines_eq_nil_iff] at h
      rcases h with ⟨u, hu⟩ | ⟨u, hu⟩
      · exact hxend.2 (List.cons.inj hu).1.symm
      · exact hxend.1 (List.cons.inj hu).1.symm
    | cons l ls =>
      obtain ⟨hb, u, hu⟩ := headLines_cons h
      obtain ⟨-, v, rfl⟩ := headLines_cons hls
      cases l with
      | nil => exact absurd (.inl rfl) hb
      | cons y l =>
        obtain ⟨rfl, -⟩ := List.cons.inj hu
        exact ⟨x, rfl, hxend⟩
  · intro hhead
    have hne : s ≠ [] := by
      rintro rfl
      exact hskip rfl
    have hsame : skipEnds s = s :=
      (List.dropWhile_suffix _).eq_of_length ((length_skipEnds_iff hne).mpr hhead)
    obtain ⟨ls, hls⟩ := Option.ne_none_iff_exists'.mp hs
    rw [hsame, headLines_append hls t, hls]

/-- A text of whole lines none of which is blank. -/
def IsBlock (t : Bytes) : Prop :=
  ∃ ls : List Bytes, t = ls.flatMap (· ++ [lf]) ∧ ∀ l ∈ ls, lf ∉ l ∧ ¬ IsBlank l

lemma IsBlock.nil : IsBlock [] := ⟨[], rfl, nofun⟩

lemma IsBlock.line (hl : lf ∉ l) (hb : ¬ IsBlank l) : IsBlock (l ++ [lf]) :=
  ⟨[l], (List.append_nil _).symm, fun _ h => List.mem_singleton.mp h ▸ ⟨hl, hb⟩⟩

lemma IsBlock.append (hs : IsBlock s) (ht : IsBlock t) : IsBlock (s ++ t) := by
  obtain ⟨ls, rfl, hls⟩ := hs
  obtain ⟨ms, rfl, hms⟩ := ht
  refine ⟨ls ++ ms, List.flatMap_append.symm, fun l hl => ?_⟩
  exact (List.mem_append.mp hl).elim (hls l) (hms l)

/-- The lines of such a text. -/
def blockLines (t : Bytes) : List Bytes := (headLines (t ++ [lf])).getD []

/-- They come first in a header block that starts with the text. -/
lemma IsBlock.headLines (h : IsBlock t) (s : Bytes) :
    headLines (t ++ s) = (headLines s).map (blockLines t ++ ·) := by
  obtain ⟨ls, rfl, hls⟩ := h
  have key : ∀ s, Boa.headLines (ls.flatMap (· ++ [lf]) ++ s) = (Boa.headLines s).map (ls ++ ·) := by
    intro s
    induction ls with
    | nil => simp
    | cons l ls ih =>
      obtain ⟨hl, hb⟩ := hls l List.mem_cons_self
      have ih := ih fun m hm => hls m (List.mem_cons_of_mem _ hm)
      rw [List.flatMap_cons, List.append_assoc, List.append_assoc, List.singleton_append,
        headLines_line hl, if_neg hb, ih, Option.map_map]
      rfl
  have hblank : Boa.headLines [lf] = some [] := by decide
  rw [key s, blockLines, key [lf], hblank]
  simp

end Boa
