import Boa.Tables

/-! The mime-types file: what its lines define, and that `c_add_mime_types_file` reads just that where
it does not run over the end of a line. -/
namespace Boa
open Memory

/-- A blank or a tab. -/
def mimeBlank (b : UInt8) : Bool := b = tab ∨ b = space

/-- The words of a text that blanks and tabs separate, each from its first letter or digit on. -/
def lineWords (s : Bytes) : List Bytes :=
  ((s.splitOnP mimeBlank).map (·.dropWhile (!isalnum ·))).filter (· ≠ [])

/-- What a line defines: its first word is the type of the extensions that follow. -/
def lineTypes (line : Bytes) : List (Bytes × Bytes) :=
  let type := mimeSpan line
  if line.head? = some hash ∨ type = [] then [] else (lineWords (line.drop type.length)).map (·, type)

/-- What a mime-types file defines. -/
def fileTypes (f : Bytes) : List (Bytes × Bytes) := (f.splitOn lf).flatMap lineTypes

/-- No letter or digit stands behind the last blank. -/
def Quiet (s : Bytes) : Prop := ∀ c ∈ s.reverse.takeWhile (!mimeBlank ·), isalnum c = false

instance (s : Bytes) : Decidable (Quiet s) := inferInstanceAs (Decidable (∀ c ∈ _, _))

/-- A line that can do without its line end: nothing is read behind it. -/
def SettledLine (line : Bytes) : Prop :=
  line.head? = some hash ∨ mimeSpan line = [] ∨ (line.any mimeBlank = true ∧ Quiet line)

instance (line : Bytes) : Decidable (SettledLine line) := inferInstanceAs (Decidable (_ ∨ _))

/-- A text file of lines that the buffer holds, the last of which is ended or can do without. -/
def SettledFile (f : Bytes) : Prop :=
  (∀ line ∈ f.splitOn lf, line.length < 254 ∧ 0 ∉ line) ∧
    ∀ line ∈ (f.splitOn lf).getLast?, SettledLine line

variable {s t buf line : Bytes} {b : UInt8} {p : ℕ}

/-! ### Words -/

lemma lineWords_append_blank (hb : mimeBlank b = true) (s t : Bytes) :
    lineWords (s ++ b :: t) = lineWords s ++ lineWords t := by
  unfold lineWords
  rw [List.splitOnP_append_cons s t hb, List.map_append, List.filter_append]

lemma lineWords_of_unblank (h : ∀ c ∈ s, mimeBlank c = false) :
    lineWords s = [s.dropWhile (!isalnum ·)].filter (· ≠ []) := by
  unfold lineWords
  rw [List.splitOnP_eq_singleton h]
  rfl

lemma mimeBlank_of_isalnum (h : isalnum b = true) : mimeBlank b = false := by
  unfold mimeBlank
  rw [decide_eq_false_iff_not]
  rintro (rfl | rfl)
  · exact absurd h (by decide)
  · exact absurd h (by decide)

/-- In front of a word nothing counts that is no letter or digit. -/
lemma lineWords_cons_other (h : isalnum b = false) (s : Bytes) : lineWords (b :: s) = lineWords s := by
  cases hb : mimeBlank b with
  | true => exact lineWords_append_blank hb [] s
  | false =>
    unfold lineWords
    rw [List.splitOnP_cons_eq_if_modifyHead, hb, if_neg (by decide)]
    cases hs : s.splitOnP mimeBlank with
    | nil => exact absurd hs (List.splitOnP_ne_nil mimeBlank s)
    | cons w ws =>
      rw [List.modifyHead_cons, List.map_cons, List.map_cons, List.dropWhile_cons_of_pos (by simp [h])]

lemma lineWords_skip (s : Bytes) : lineWords (s.dropWhile (!isalnum ·)) = lineWords s := by
  induction s with
  | nil => rfl
  | cons b s ih =>
    cases hb : isalnum b with
    | true => rw [List.dropWhile_cons_of_neg (by simp [hb])]
    | false => rw [List.dropWhile_cons_of_pos (by simp [hb]), ih, lineWords_cons_other hb]

/-- The text behind a blank is as quiet as the whole. -/
lemma Quiet.behind (hb : mimeBlank b = true) (h : Quiet (s ++ b :: t)) : Quiet t := by
  have htake : ∀ l : Bytes, (l ++ b :: s.reverse).takeWhile (!mimeBlank ·) = l.takeWhile (!mimeBlank ·) := by
    intro l
    induction l with
    | nil => rw [List.nil_append, List.takeWhile_cons_of_neg (by simp [hb]), List.takeWhile_nil]
    | cons c l ih => rw [List.cons_append, List.takeWhile_cons, List.takeWhile_cons, ih]
  intro c hc
  refine h c ?_
  rwa [List.reverse_append, List.reverse_cons, List.append_assoc, List.singleton_append, htake]

/-- A last word is not quiet. -/
lemma Quiet.unblank (h : Quiet (s ++ t)) (ht : ∀ c ∈ t, mimeBlank c = false) :
    ∀ c ∈ t, isalnum c = false := by
  intro c hc
  refine h c ?_
  rw [List.reverse_append, List.takeWhile_append_of_pos (by simpa using ht)]
  exact List.mem_append_left _ (List.mem_reverse.mpr hc)

/-- The loop stops at a NUL. -/
lemma mimeExtensions_nul (fuel : ℕ) (h : cstr (buf.drop p) = []) : (mimeExtensions fuel buf p).1 = [] := by
  cases fuel with
  | zero => rfl
  | succ fuel =>
    unfold mimeExtensions
    simp [h, mimeSpan]

/-- Behind the text `s` in the buffer a second NUL follows, or none is needed. -/
def Stops (s t : Bytes) : Prop := cstr t = [] ∨ Quiet s

lemma mimeSpan_eq (s : Bytes) : mimeSpan s = s.takeWhile (!mimeBlank ·) := by
  unfold mimeSpan
  congr 1
  funext c
  simp [mimeBlank]

/-- A text is its first word, and a blank and more if there is more. -/
lemma mimeSpan_cases (s : Bytes) : (∀ c ∈ mimeSpan s, mimeBlank c = false) ∧
    (s = mimeSpan s ∨ ∃ b rest, mimeBlank b = true ∧ s = mimeSpan s ++ b :: rest) := by
  rw [mimeSpan_eq]
  refine ⟨fun c hc => by simpa using List.mem_takeWhile_imp hc, ?_⟩
  have hsplit := List.takeWhile_append_dropWhile (p := (!mimeBlank ·)) (l := s)
  cases hr : s.dropWhile (!mimeBlank ·) with
  | nil =>
    rw [hr, List.append_nil] at hsplit
    exact .inl hsplit.symm
  | cons b rest =>
    have hnot := List.head?_dropWhile_not (!mimeBlank ·) s
    rw [hr] at hnot hsplit
    exact .inr ⟨b, rest, by simpa using hnot, hsplit.symm⟩

/-- From a letter or digit on, the next word is one. -/
lemma lineWords_mimeSpan (h : ∃ c r, s = c :: r ∧ isalnum c = true) :
    mimeSpan s ≠ [] ∧ lineWords (mimeSpan s) = [mimeSpan s] ∧ ∃ c ∈ mimeSpan s, isalnum c = true := by
  obtain ⟨c, r, rfl, hc⟩ := h
  have hunblank := (mimeSpan_cases (c :: r)).1
  have hspan : mimeSpan (c :: r) = c :: mimeSpan r := by
    rw [mimeSpan_eq, mimeSpan_eq, List.takeWhile_cons_of_pos (by rw [mimeBlank_of_isalnum hc]; rfl)]
  refine ⟨by simp [hspan], ?_, c, by simp [hspan], hc⟩
  rw [lineWords_of_unblank hunblank, hspan, List.dropWhile_cons_of_neg (by simp [hc])]
  rfl

/-- Where the loop stops at the end of the text, it has added its words. -/
lemma mimeExtensions_eq {fuel : ℕ} (hbuf : buf.drop p = s ++ 0 :: t) (h0 : 0 ∉ s) (hfuel : s.length < fuel)
    (hstop : Stops s t) : (mimeExtensions fuel buf p).1 = lineWords s := by
  induction fuel generalizing buf p s with
  | zero => omega
  | succ fuel ih =>
    -- `r` is what is left in front of the NUL once `p` stands at a word
    obtain ⟨a, ha⟩ : ∃ a, a = s.takeWhile (!isalnum ·) := ⟨_, rfl⟩
    obtain ⟨r, hr⟩ : ∃ r, r = s.dropWhile (!isalnum ·) := ⟨_, rfl⟩
    have hs : s = a ++ r := by rw [ha, hr, List.takeWhile_append_dropWhile]
    have hwords : lineWords s = lineWords r := by rw [hr, lineWords_skip]
    have hr0 : 0 ∉ r := fun hm => h0 (hs ▸ List.mem_append_right _ hm)
    have hat : buf.drop (p + a.length) = r ++ 0 :: t := by
      rw [← List.drop_drop, hbuf, hs, List.append_assoc, List.drop_left]
    unfold mimeExtensions
    rw [hbuf, cstr_append_nul h0, ← ha, hwords]
    dsimp only
    rw [hat, cstr_append_nul hr0]
    by_cases hnil : r = []
    · rw [hnil]
      rfl
    · have hletter : ∃ c r', r = c :: r' ∧ isalnum c = true := by
        obtain ⟨c, r', hc⟩ := List.exists_cons_of_ne_nil hnil
        have hnot := List.head?_dropWhile_not (!isalnum ·) s
        rw [← hr, hc] at hnot
        exact ⟨c, r', hc, by simpa using hnot⟩
      obtain ⟨hne, hword, c, hmem, hc⟩ := lineWords_mimeSpan hletter
      obtain ⟨hunblank, hmore⟩ := mimeSpan_cases r
      obtain ⟨w, hw⟩ : ∃ w, w = mimeSpan r := ⟨_, rfl⟩
      rw [← hw] at hne hword hmem hunblank hmore ⊢
      have hbehind : (store buf (p + a.length + w.length) [0]).drop (p + a.length + w.length + 1) =
          (r ++ 0 :: t).drop (w.length + 1) := by
        rw [drop_store buf [0] (le_refl (p + a.length + w.length + 1)), ← hat, List.drop_drop]
        rfl
      have hpast : ∀ (x : UInt8) (l : Bytes), (w ++ x :: l).drop (w.length + 1) = l := fun x l => by simp
      rw [if_neg hne]
      dsimp only
      obtain hlast | ⟨b, rest, hb, hrest⟩ := hmore
      · -- the word reaches the NUL, and the loop goes on behind it
        have hnul : cstr t = [] := by
          refine hstop.resolve_right fun hquiet => ?_
          rw [hs, hlast] at hquiet
          rw [hquiet.unblank hunblank c hmem] at hc
          cases hc
        rw [hlast, hpast] at hbehind
        rw [mimeExtensions_nul fuel (by rw [hbehind]; exact hnul), hlast, hword]
      · have hstop' : Stops rest t := hstop.imp id fun hquiet => by
          rw [hs, hrest, ← List.append_assoc] at hquiet
          exact hquiet.behind hb
        rw [hrest, List.append_assoc, List.cons_append, hpast] at hbehind
        rw [hrest, lineWords_append_blank hb, hword, ih hbehind ?_ ?_ hstop']
        · rfl
        · exact fun hm => hr0 (hrest ▸ List.mem_append_right _ (List.mem_cons_of_mem _ hm))
        · have hlen := congrArg List.length (hs.trans (congrArg (a ++ ·) hrest))
          simp only [List.length_append, List.length_cons] at hlen
          omega

/-! ### Lines -/

/-- The buffer behind the line is a NUL, or the line can do without. -/
lemma mimeExtensions_line (h0 : 0 ∉ line) (hstop : cstr t = [] ∨ line.any mimeBlank = true ∧ Quiet line) :
    (mimeExtensions (line ++ 0 :: t).length (store (line ++ 0 :: t) (mimeSpan line).length [0])
      ((mimeSpan line).length + 1)).1 = lineWords (line.drop (mimeSpan line).length) := by
  obtain ⟨hunblank, hmore⟩ := mimeSpan_cases line
  obtain ⟨w, hw⟩ : ∃ w, w = mimeSpan line := ⟨_, rfl⟩
  rw [← hw] at hunblank hmore ⊢
  have hbehind : (store (line ++ 0 :: t) w.length [0]).drop (w.length + 1) =
      (line ++ 0 :: t).drop (w.length + 1) := drop_store _ [0] (le_refl (w.length + 1))
  have hpast : ∀ (x : UInt8) (l : Bytes), (w ++ x :: l).drop (w.length + 1) = l := fun x l => by simp
  obtain hlast | ⟨b, rest, hb, hrest⟩ := hmore
  · have hnul : cstr t = [] := by
      refine hstop.resolve_right fun hany => ?_
      obtain ⟨b, hb, hblank⟩ := List.any_eq_true.mp hany.1
      rw [hunblank b (hlast ▸ hb)] at hblank
      cases hblank
    rw [hlast, hpast] at hbehind
    rw [hlast, mimeExtensions_nul _ (by rw [hbehind]; exact hnul), List.drop_length]
    rfl
  · rw [hrest, List.append_assoc, List.cons_append, hpast] at hbehind
    have hfirst : lineWords (b :: rest) = lineWords rest := lineWords_append_blank hb [] rest
    rw [hrest, List.drop_left, hfirst]
    refine mimeExtensions_eq (by rw [← hbehind, List.append_assoc, List.cons_append]) ?_ ?_
      (hstop.imp id fun hany => ?_)
    · exact fun hm => h0 (hrest ▸ List.mem_append_right _ (List.mem_cons_of_mem _ hm))
    · simp
      omega
    · exact Quiet.behind hb (hrest ▸ hany.2)

/-- The line behind its own LF, which is a NUL by then. -/
lemma mimeLine_text (h0 : 0 ∉ line) (hhash : line.head? ≠ some hash)
    (hstop : mimeSpan line = [] ∨ cstr t = [] ∨ line.any mimeBlank = true ∧ Quiet line) :
    (if mimeSpan line = [] then (([], line ++ 0 :: t) : List (Bytes × Bytes) × Bytes)
      else
        let r := mimeExtensions (line ++ 0 :: t).length (store (line ++ 0 :: t) (mimeSpan line).length [0])
          ((mimeSpan line).length + 1)
        (r.1.map (·, mimeSpan line), r.2)).1 = lineTypes line := by
  unfold lineTypes
  dsimp only
  by_cases hspan : mimeSpan line = []
  · rw [if_pos hspan, if_pos (.inr hspan)]
  · rw [if_neg hspan, if_neg (not_or.mpr ⟨hhash, hspan⟩), mimeExtensions_line h0 (hstop.resolve_left hspan)]

/-- A line with its LF, as `fgets` leaves it. -/
lemma mimeLine_ended (h0 : 0 ∉ line) (hlf : lf ∉ line) (t : Bytes) :
    (mimeLine (line ++ lf :: 0 :: t)).1 = lineTypes line := by
  have hread : cstr (line ++ lf :: 0 :: t) = line ++ [lf] := by
    rw [show line ++ lf :: 0 :: t = (line ++ [lf]) ++ 0 :: t by simp]
    refine cstr_append_nul (fun hm => ?_) t
    obtain hm | hm := List.mem_append.mp hm
    · exact h0 hm
    · exact absurd (List.mem_singleton.mp hm) (by decide)
  have hidx : (line ++ [lf]).idxOf lf = line.length := by
    rw [List.idxOf_append_of_notMem hlf]
    rfl
  have hcut : store (line ++ lf :: 0 :: t) line.length [0] = line ++ 0 :: 0 :: t := by
    rw [store_of_le _ (by simp), List.take_left]
    simp
  unfold mimeLine
  rw [hread]
  dsimp only
  cases hline : line with
  | nil => rfl
  | cons c r =>
    rw [← hline]
    have hhead : (line ++ [lf]).head? = line.head? := by rw [hline]; rfl
    by_cases hskip : line.head? = some hash
    · rw [if_pos (.inr (.inl (hhead.trans hskip)))]
      unfold lineTypes
      rw [if_pos (.inl hskip)]
    · have hfirst : line.head? ≠ some lf := fun hc => hlf (List.mem_of_mem_head? hc)
      have hmem : lf ∈ line ++ [lf] := by simp
      rw [if_neg (by rw [hhead]; simp [hskip, hfirst]), if_pos hmem, hidx, hcut, cstr_append_nul h0]
      exact mimeLine_text h0 hskip (.inr (.inl rfl))

/-- The last line of a file that does not end with a LF. -/
lemma mimeLine_settled (h0 : 0 ∉ line) (hlf : lf ∉ line) (hs : SettledLine line) (t : Bytes) :
    (mimeLine (line ++ 0 :: t)).1 = lineTypes line := by
  have hread : cstr (line ++ 0 :: t) = line := cstr_append_nul h0 t
  unfold mimeLine
  rw [hread]
  dsimp only
  by_cases hskip : line.head? = some hash
  · rw [if_pos (.inr (.inl hskip))]
    unfold lineTypes
    rw [if_pos (.inl hskip)]
  · by_cases hnil : line = []
    · subst hnil
      rfl
    · have hfirst : line.head? ≠ some lf := fun hc => hlf (List.mem_of_mem_head? hc)
      rw [if_neg (by simp [hnil, hskip, hfirst]), if_neg hlf, hread]
      exact mimeLine_text h0 hskip ((hs.resolve_left hskip).imp id .inr)

/-! ### The file -/

/-- What is left of the file, line by line. -/
lemma splitOn_cases (f : Bytes) : (lf ∉ f ∧ f.splitOn lf = [f]) ∨
    ∃ line rest, f = line ++ lf :: rest ∧ lf ∉ line ∧ f.splitOn lf = line :: rest.splitOn lf := by
  by_cases hlf : lf ∈ f
  · obtain ⟨line, rest, hf, hline⟩ := List.eq_append_cons_of_mem hlf
    refine .inr ⟨line, rest, hf, hline, ?_⟩
    rw [hf, List.splitOn_append_cons_self_of_not_mem hline]
  · exact .inl ⟨hlf, List.splitOn_eq_singleton hlf⟩

lemma findIdx?_lf (h : lf ∉ line) : line.findIdx? (· == lf) = none := by
  rw [List.findIdx?_eq_none_iff]
  intro c hc
  simpa using fun he : c = lf => h (he ▸ hc)

/-- `fgets` takes what is left without a LF. -/
lemma mimeFgets_last (h : line.length < 254) (hlf : lf ∉ line) : mimeFgets line = line := by
  unfold mimeFgets
  rw [List.take_of_length_le (by omega)]
  dsimp only
  rw [findIdx?_lf hlf]

/-- A line that the buffer holds is taken with its LF. -/
lemma mimeFgets_line (h : line.length < 254) (hlf : lf ∉ line) (rest : Bytes) :
    mimeFgets (line ++ lf :: rest) = line ++ [lf] := by
  have htake : (line ++ lf :: rest).take 254 = line ++ lf :: rest.take (253 - line.length) := by
    have hroom : 254 - line.length = 253 - line.length + 1 := by omega
    rw [List.take_append, List.take_of_length_le (by omega), hroom, List.take_succ_cons]
  have hidx : (line ++ lf :: rest.take (253 - line.length)).findIdx? (· == lf) = some line.length := by
    rw [List.findIdx?_append, findIdx?_lf hlf, Option.none_or, List.findIdx?_cons, if_pos (by simp)]
    simp
  unfold mimeFgets
  rw [htake]
  dsimp only
  rw [hidx]
  simp [List.take_append]

/-- A settled file is read line by line, whatever the stack holds. -/
lemma mimeTypesFile_eq {fuel : ℕ} {f : Bytes} (hfuel : f.length ≤ fuel) (hs : SettledFile f) (buf : Bytes) :
    mimeTypesFile fuel f buf = fileTypes f := by
  induction fuel generalizing f buf with
  | zero =>
    obtain rfl := List.eq_nil_of_length_eq_zero (Nat.le_zero.mp hfuel)
    rfl
  | succ fuel ih =>
    obtain ⟨hlines, hlast⟩ := hs
    unfold mimeTypesFile fileTypes
    dsimp only
    obtain ⟨hlf, hsplit⟩ | ⟨line, rest, rfl, hlf, hsplit⟩ := splitOn_cases f
    · rw [hsplit] at hlines hlast ⊢
      obtain ⟨hlen, h0⟩ := hlines f (List.mem_singleton_self f)
      rw [mimeFgets_last hlen hlf]
      by_cases hnil : f = []
      · subst hnil
        rfl
      · have hend : mimeTypesFile fuel [] = fun _ => [] := by
          funext b
          cases fuel <;> rfl
        rw [if_neg hnil, store_zero, List.append_assoc, List.singleton_append,
          mimeLine_settled h0 hlf (hlast f rfl), List.drop_length, hend]
        simp
    · rw [hsplit] at hlines hlast ⊢
      obtain ⟨hlen, h0⟩ := hlines line List.mem_cons_self
      have hrest : SettledFile rest := by
        refine ⟨fun l hl => hlines l (List.mem_cons_of_mem _ hl), fun l hl => hlast l ?_⟩
        rw [List.getLast?_cons, Option.mem_def.mp hl]
        rfl
      rw [mimeFgets_line hlen hlf, if_neg (by simp), store_zero, List.append_assoc, List.append_assoc,
        List.singleton_append, List.singleton_append, mimeLine_ended h0 hlf, List.flatMap_cons]
      congr 1
      have hdrop : (line ++ lf :: rest).drop (line ++ [lf]).length = rest := by
        simp
      rw [hdrop]
      refine ih ?_ hrest _
      simp at hfuel
      omega

/-- Without a LF the loop goes on behind the line, in what the stack holds. -/
example : mimeTypesFile 8 (text "text/x a") (text ".........b") =
      [(text "a", text "text/x"), (text "b", text "text/x")] ∧
    fileTypes (text "text/x a") = [(text "a", text "text/x")] := by decide +kernel

end Boa
