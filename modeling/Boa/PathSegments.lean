import Boa.UriBuffer
import Boa.Words

/-! The normal form of a path: what `clean_pathname` does to the segments of its string. -/
namespace Boa
open Memory Words

/-! ### The loops, with every store -/

/-- The inner loop of `clean_pathname`. There is no result while it runs, nor where it would
read behind the array. -/
def skipRun : ℕ → Bytes → ℕ → Option ℕ
  | 0, _, _ => none
  | fuel + 1, mem, pathname => do
    let c ← mem[pathname]?
    if c = slash then skipRun fuel mem (pathname + 1)
    else if c = dot then
      let d ← mem[pathname + 1]?
      if d = slash then skipRun fuel mem (pathname + 2)
      else if d = dot then
        let e ← mem[pathname + 2]?
        if e = slash then skipRun fuel mem (pathname + 3) else some pathname
      else some pathname
    else some pathname

/-- The loop of `clean_pathname`: the characters it stores with their addresses, and the array. -/
def cleanRun : ℕ → Bytes → ℕ → ℕ → Option (List (UInt8 × ℕ) × Bytes)
  | 0, _, _, _ => none
  | fuel + 1, mem, cleanpath, pathname => do
    let c ← mem[pathname]?
    if c = 0 then some ([(0, cleanpath)], store mem cleanpath [0])
    else
      (if c = slash then skipRun fuel mem (pathname + 1) else some (pathname + 1)).bind fun next =>
        (cleanRun fuel (store mem cleanpath [c]) (cleanpath + 1) next).map fun r => ((c, cleanpath) :: r.1, r.2)

section Run

variable {mem s t : Bytes} {i j fuel : ℕ}

/-- Before the terminator every character the inner loop looks at is there. -/
lemma skipRun_eq (h : mem.drop i = s ++ 0 :: t) (hfuel : s.length < fuel) :
    skipRun fuel mem i = some (skipIn fuel mem i) := by
  have h0 : ¬ (0 : UInt8) = slash := by decide
  have h1 : ¬ (0 : UInt8) = dot := by decide
  have h2 : ¬ dot = slash := by decide
  induction fuel generalizing i s with
  | zero => omega
  | succ fuel ih =>
    rw [skipRun, skipIn]
    simp only [List.getD_eq_getElem?_getD]
    rcases s with _ | ⟨c, s⟩
    · simp [getElem?_of_drop h, h0, h1]
    have hdrop := drop_succ h
    have hone := ih hdrop (by simp at hfuel; omega)
    rcases s with _ | ⟨d, s⟩
    · simp only [getElem?_of_drop h, getElem?_of_drop hdrop, Option.bind_eq_bind, Option.bind_some,
        Option.getD_some]
      split_ifs <;> simp_all
    have hdrop' := drop_succ hdrop
    have htwo := ih hdrop' (by simp at hfuel; omega)
    rcases s with _ | ⟨e, s⟩
    · simp only [getElem?_of_drop h, getElem?_of_drop hdrop, getElem?_of_drop hdrop', Option.bind_eq_bind,
        Option.bind_some, Option.getD_some]
      split_ifs <;> simp_all
    have hthree := ih (drop_succ hdrop') (by simp at hfuel; omega)
    simp only [getElem?_of_drop h, getElem?_of_drop hdrop, getElem?_of_drop hdrop', Option.bind_eq_bind,
      Option.bind_some, Option.getD_some]
    split_ifs <;> simp_all

/-- The loop stores the characters of the list function one behind the other. -/
lemma cleanRun_spec (h : mem.drop i = s ++ 0 :: t) (hnul : 0 ∉ s) (hji : j ≤ i) (hfuel : s.length < fuel) :
    cleanRun fuel mem j i =
      some ((cleanLoop false s ++ [0]).zipIdx j, store mem j (cleanLoop false s ++ [0])) := by
  induction fuel generalizing mem i j s with
  | zero => omega
  | succ fuel ih =>
    rcases s with _ | ⟨c, s⟩
    · simp [cleanRun, getElem?_of_drop h, cleanLoop]
    have hc : c ≠ 0 := fun h0 => hnul (by simp [h0])
    have hlen : s.length < fuel := by simpa using hfuel
    have hlt : j < mem.length := hji.trans_lt (lt_length_of_drop h)
    obtain ⟨s', hdrop, hle, hsuffix, hclean⟩ := cleanNext_spec h hlen
    have hnext : (if c = slash then skipRun fuel mem (i + 1) else some (i + 1)) =
        some (if c = slash then skipIn fuel mem (i + 1) else i + 1) := by
      split_ifs
      · exact skipRun_eq (drop_succ h) hlen
      · rfl
    have hbehind : j < (if c = slash then skipIn fuel mem (i + 1) else i + 1) := by omega
    have hgo := ih ((drop_store_one (x := c) hbehind).trans hdrop)
      (fun hm => hnul (by simp [hsuffix.subset hm])) hbehind (hsuffix.length_le.trans_lt hlen)
    rw [cleanRun, getElem?_of_drop h, hclean, List.cons_append, List.zipIdx_cons]
    simp only [Option.bind_eq_bind, Option.bind_some, if_neg hc, hnext, hgo, Option.map_some, Nat.succ_eq_add_one,
      store_cons hlt]

end Run

/-! ### Segments -/

/-- A segment that leads nowhere. -/
def isIdle (w : Bytes) : Bool := w == [] || w == [dot] || w == [dot, dot]

/-- The segments behind the first one without the idle ones; the last one stays. -/
def kept (ws : List Bytes) : List Bytes := ws.dropLast.filter (fun w => !isIdle w) ++ ws.getLast?.toList

/-- The normal form of a path. -/
def normalForm (s : Bytes) : Bytes :=
  match s.splitOn slash with
  | [] => []
  | w :: ws => [slash].intercalate (w :: kept ws)

section Normal

variable {s w : Bytes} {ws : List Bytes}

lemma isIdle_slash (h : isIdle w = true) : slash ∉ w := by
  have hdot : ¬ slash = dot := by decide
  simp only [isIdle, Bool.or_eq_true, beq_iff_eq] at h
  rcases h with (rfl | rfl) | rfl <;> simp [hdot]

lemma kept_cons (h : ws ≠ []) : kept (w :: ws) = if isIdle w then kept ws else w :: kept ws := by
  simp only [kept, List.dropLast_cons_of_ne_nil h, List.filter_cons, List.getLast?_cons_of_ne_nil h]
  cases isIdle w <;> simp

lemma kept_ne_nil (h : ws ≠ []) : kept ws ≠ [] := by simp [kept, h]

lemma kept_subset : kept ws ⊆ ws := by
  intro w hw
  rcases List.mem_append.1 hw with hw | hw
  · exact List.dropLast_subset ws (List.mem_of_mem_filter hw)
  · exact List.mem_of_getLast? (by simpa using hw)

lemma dropLast_kept : (kept ws).dropLast = ws.dropLast.filter (fun w => !isIdle w) := by
  cases hlast : ws.getLast? with
  | none => simp_all [kept]
  | some l => simp [kept, hlast]

/-- Nothing is left to drop. -/
lemma kept_kept (ws : List Bytes) : kept (kept ws) = kept ws := by
  have hlast : (kept ws).getLast? = ws.getLast? := by
    cases h : ws.getLast? with
    | none => simp_all [kept]
    | some l => simp [kept, h]
  conv_lhs => rw [kept, dropLast_kept, hlast]
  simp [kept]

/-- A text without a slash is copied. -/
lemma cleanLoop_word (h : slash ∉ w) (x : Bytes) : cleanLoop false (w ++ x) = w ++ cleanLoop false x := by
  induction w with
  | nil => rfl
  | cons c w ih =>
    simp only [List.mem_cons, not_or] at h
    rw [List.cons_append, cleanLoop_char (Ne.symm h.1), ih h.2, List.cons_append]

/-- What the inner loop steps over is an idle segment with its slash. -/
lemma exists_of_mem_skipped {v : Bytes} (h : v ∈ skipped) : ∃ w, isIdle w = true ∧ v = w ++ [slash] := by
  simp only [skipped, List.mem_cons, List.not_mem_nil, or_false] at h
  rcases h with rfl | rfl | rfl
  · exact ⟨[], by decide, rfl⟩
  · exact ⟨[dot], by decide, rfl⟩
  · exact ⟨[dot, dot], by decide, rfl⟩

/-- Behind a slash the last segment is copied. -/
lemma cleanLoop_last (h : slash ∉ w) : cleanLoop true w = w := by
  have hstop : ∀ v ∈ skipped, ¬ v <+: w := by
    intro v hv hpre
    obtain ⟨u, -, rfl⟩ := exists_of_mem_skipped hv
    exact h (hpre.subset (by simp))
  rw [cleanLoop_stop hstop]
  simpa [cleanLoop] using cleanLoop_word h []

/-- Behind a slash an idle segment is left out, and any other one copied. -/
lemma cleanLoop_segment (h : slash ∉ w) (x : Bytes) :
    cleanLoop true (w ++ slash :: x) =
      if isIdle w then cleanLoop true x else w ++ slash :: cleanLoop true x := by
  split_ifs with hidle
  · simp only [isIdle, Bool.or_eq_true, beq_iff_eq] at hidle
    rcases hidle with (rfl | rfl) | rfl
    · exact cleanLoop_skip_slash x
    · exact cleanLoop_skip_dot x
    · exact cleanLoop_skip_dots x
  · have hstop : ∀ v ∈ skipped, ¬ v <+: w ++ slash :: x := by
      intro v hv hpre
      obtain ⟨u, hu, rfl⟩ := exists_of_mem_skipped hv
      rw [prefix_append_cons_iff (isIdle_slash hu) h] at hpre
      exact hidle (hpre ▸ hu)
    rw [cleanLoop_stop hstop, cleanLoop_word h]
    simp [cleanLoop]

/-- Behind a slash the loop copies the segments that are kept. -/
lemma cleanLoop_behind (s : Bytes) : cleanLoop true s = [slash].intercalate (kept (s.splitOn slash)) := by
  induction s using segment_induction slash with
  | one w hw => simp [List.splitOn_eq_singleton hw, cleanLoop_last hw, kept]
  | more w s hw ih =>
    have hne := List.splitOn_ne_nil slash s
    rw [List.splitOn_append_cons_self_of_not_mem hw, kept_cons hne, cleanLoop_segment hw, ih]
    split_ifs
    · rfl
    · rw [List.intercalate_cons_of_ne_nil (kept_ne_nil hne)]
      simp

/-- `clean_pathname` brings a path into its normal form. -/
lemma cleanPathname_eq (s : Bytes) : cleanPathname s = normalForm s := by
  rw [cleanPathname]
  induction s using segment_induction slash with
  | one w hw =>
    have hcopy := cleanLoop_word hw []
    simp_all [normalForm, List.splitOn_eq_singleton hw, kept, cleanLoop]
  | more w s hw ih =>
    have hne := List.splitOn_ne_nil slash s
    rw [normalForm, List.splitOn_append_cons_self_of_not_mem hw, cleanLoop_word hw]
    simp only [cleanLoop, if_true, cleanLoop_behind]
    rw [List.intercalate_cons_of_ne_nil (kept_ne_nil hne)]
    simp

/-- The segments of a normal form. -/
lemma splitOn_normalForm (h : s.splitOn slash = w :: ws) : (normalForm s).splitOn slash = w :: kept ws := by
  rw [normalForm, h]
  apply List.splitOn_intercalate
  · intro u hu
    apply not_mem_of_mem_splitOn (s := s)
    rw [h]
    exact List.cons_subset_cons w kept_subset hu
  · simp

lemma normalForm_normalForm (s : Bytes) : normalForm (normalForm s) = normalForm s := by
  cases h : s.splitOn slash with
  | nil => exact absurd h (List.splitOn_ne_nil slash s)
  | cons w ws =>
    conv_lhs => rw [normalForm, splitOn_normalForm h]
    simp [normalForm, h, kept_kept]

/-- No idle segment is left between two slashes. -/
lemma not_infix_normalForm (hw : isIdle w = true) (s : Bytes) : ¬ slash :: (w ++ [slash]) <:+: normalForm s := by
  cases h : s.splitOn slash with
  | nil => exact absurd h (List.splitOn_ne_nil slash s)
  | cons v ws =>
    have hseg : ∀ u ∈ v :: kept ws, slash ∉ u := by
      intro u hu
      exact not_mem_of_mem_splitOn (s := normalForm s) (by rwa [splitOn_normalForm h])
    simp only [normalForm, h]
    rw [enclosed_iff (isIdle_slash hw) hseg, dropLast_kept]
    simp [hw]

/-- The first character is copied. -/
lemma head?_cleanPathname (s : Bytes) : (cleanPathname s).head? = s.head? := by
  cases s with
  | nil => rfl
  | cons c s =>
    simp only [cleanPathname, cleanLoop]
    split_ifs with h <;> simp [h]

end Normal

/-- The loop ends for every string, and writes one character behind the other, the last one no
further than the terminator was. The string is then the normal form, and stays as it is when the
function is called once more. -/
theorem cleanPathname_normal {mem : Bytes} (h : 0 ∈ mem) :
    ∃ stores mem', (∀ fuel, (cstr mem).length < fuel → cleanRun fuel mem 0 0 = some (stores, mem')) ∧
      (∀ w ∈ stores, w.2 ≤ (cstr mem).length) ∧ (∀ k, (cstr mem).length < k → mem'.drop k = mem.drop k) ∧
      cstr mem' = normalForm (cstr mem) ∧
      ¬ [slash, slash] <:+: cstr mem' ∧ ¬ [slash, dot, slash] <:+: cstr mem' ∧
      ¬ [slash, dot, dot, slash] <:+: cstr mem' ∧
      ((cstr mem').head? = some slash ↔ (cstr mem).head? = some slash) ∧
      ∃ stores', ∀ fuel, (cstr mem').length < fuel → cleanRun fuel mem' 0 0 = some (stores', mem') := by
  have hrun : ∀ m : Bytes, 0 ∈ m → ∀ fuel, (cstr m).length < fuel →
      cleanRun fuel m 0 0 = some ((cleanPathname (cstr m) ++ [0]).zipIdx, cleanPathnameIn m) := by
    intro m hm fuel hfuel
    obtain ⟨t, ht⟩ := exists_cstr_append hm
    rw [cleanPathnameIn_eq hm]
    exact cleanRun_spec (t := t) ht (cstr_nul m) le_rfl hfuel
  have hstays := stays_cleanPathnameIn h
  have hstr : cstr (cleanPathnameIn mem) = normalForm (cstr mem) := by
    rw [cstr_cleanPathnameIn h, cleanPathname_eq]
  have hagain : cleanPathnameIn (cleanPathnameIn mem) = cleanPathnameIn mem := by
    obtain ⟨t, ht⟩ := exists_cstr_append hstays.term
    rw [cleanPathnameIn_eq hstays.term, cleanPathname_eq, hstr, normalForm_normalForm, ← hstr]
    exact store_prefix ⟨t, by simpa using ht.symm⟩
  refine ⟨_, _, hrun mem h, ?_, hstays.kept, hstr, ?_, ?_, ?_, ?_,
    (cleanPathname (cstr (cleanPathnameIn mem)) ++ [0]).zipIdx, ?_⟩
  · intro w hw
    have hlen := (cleanLoop_sublist false (cstr mem)).length_le
    have hidx := List.snd_lt_of_mem_zipIdx hw
    simp [cleanPathname] at hidx
    omega
  · rw [hstr]
    exact not_infix_normalForm (w := []) (by decide) _
  · rw [hstr]
    exact not_infix_normalForm (w := [dot]) (by decide) _
  · rw [hstr]
    exact not_infix_normalForm (w := [dot, dot]) (by decide) _
  · rw [cstr_cleanPathnameIn h, head?_cleanPathname]
  · intro fuel hfuel
    rw [hrun _ hstays.term fuel hfuel, hagain]

/-- For `//./a/..` the string left is `/a/..`. -/
theorem cleanPathname_normal_dots :
    ∃ mem', (cleanRun 9 [47, 47, 46, 47, 97, 47, 46, 46, 0] 0 0).map Prod.snd = some mem' ∧
      cstr mem' = [47, 97, 47, 46, 46] := by
  obtain ⟨stores, mem', hrun, -, -, hstr, -⟩ :=
    cleanPathname_normal (show 0 ∈ ([47, 47, 46, 47, 97, 47, 46, 46, 0] : Bytes) by decide)
  refine ⟨mem', by rw [hrun 9 (by decide)]; rfl, hstr.trans (by decide)⟩

end Boa
