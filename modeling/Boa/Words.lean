import Mathlib

/-! The words of a text with the places where they start, the segments between separators, and the
first so many results of a partial function on a list. Nothing here depends on the program. -/
namespace Words

section Offsets

variable {α : Type*} {w s : List α} {sep : α} {i : ℕ}

/-- Words with one separator between each two of them, the first one at `i`. -/
def offsets : ℕ → List (List α) → List (ℕ × List α)
  | _, [] => []
  | i, w :: ws => (i, w) :: offsets (i + w.length + 1) ws

/-- The words of a text that starts at `i`. -/
def wordsFrom [BEq α] (sep : α) (i : ℕ) (s : List α) : List (ℕ × List α) := offsets i (s.splitOn sep)

lemma wordsFrom_one [BEq α] [LawfulBEq α] (h : sep ∉ s) : wordsFrom sep i s = [(i, s)] := by
  unfold wordsFrom
  rw [List.splitOn_eq_singleton h]
  rfl

lemma wordsFrom_append [BEq α] [LawfulBEq α] (h : sep ∉ w) (s : List α) :
    wordsFrom sep i (w ++ sep :: s) = (i, w) :: wordsFrom sep (i + w.length + 1) s := by
  unfold wordsFrom
  rw [List.splitOn_append_cons_self_of_not_mem h]
  rfl

lemma le_offsets {ws : List (List α)} {e : ℕ × List α} (h : e ∈ offsets i ws) : i ≤ e.1 := by
  induction ws generalizing i with
  | nil => exact absurd h List.not_mem_nil
  | cons w ws ih =>
    rcases List.mem_cons.mp h with rfl | h
    · exact Nat.le_refl i
    · have := ih h
      omega

/-- Each word has a place of its own. -/
lemma offsets_pairwise (i : ℕ) (ws : List (List α)) : (offsets i ws).Pairwise fun e f => e.1 < f.1 := by
  induction ws generalizing i with
  | nil => exact List.Pairwise.nil
  | cons w ws ih =>
    refine List.Pairwise.cons (fun e he => ?_) (ih _)
    have hle := le_offsets he
    show i < e.1
    omega

end Offsets

section Limit

variable {β γ : Type*} {f g : β → Option γ} {x : β} {l : List β} {n : ℕ}

/-- The first `n` results of `f` on a list. -/
def pick (f : β → Option γ) (n : ℕ) (l : List β) : List γ := (l.filterMap f).take n

/-- The elements that are looked at until there are `n` results. -/
def seen (f : β → Option γ) : ℕ → List β → List β
  | 0, _ => []
  | _, [] => []
  | n + 1, x :: l => x :: seen f (if (f x).isSome then n else n + 1) l

lemma pick_zero (f : β → Option γ) (l : List β) : pick f 0 l = [] := List.take_zero

lemma pick_none (h : f x = none) : pick f n (x :: l) = pick f n l := by
  unfold pick
  rw [List.filterMap_cons_none h]

lemma pick_some {c : γ} (h : f x = some c) : pick f (n + 1) (x :: l) = c :: pick f n l := by
  unfold pick
  rw [List.filterMap_cons_some h]
  rfl

lemma mem_pick {c : γ} (h : c ∈ pick f n l) : ∃ y ∈ l, f y = some c :=
  List.mem_filterMap.mp (List.mem_of_mem_take h)

lemma length_pick_le (f : β → Option γ) (n : ℕ) (l : List β) : (pick f n l).length ≤ n := List.length_take_le _ _

/-- Two functions pick the same, if and only if they agree on what is looked at: if `f` has a result wherever
`g` has one, and no result of `f` is one that `g` has further on. -/
lemma pick_eq_iff (hsome : ∀ x ∈ l, f x = none → g x = none)
    (hapart : l.Pairwise fun x y => ∀ c, f x = some c → g y ≠ some c) :
    pick f n l = pick g n l ↔ ∀ x ∈ seen g n l, f x = g x := by
  induction l generalizing n with
  | nil =>
    cases n <;> simp [pick, seen]
  | cons x l ih =>
    have hsome' : ∀ x ∈ l, f x = none → g x = none := fun y hy => hsome y (List.mem_cons_of_mem _ hy)
    obtain ⟨hx, hapart'⟩ := List.pairwise_cons.mp hapart
    cases n with
    | zero => simp [pick_zero, seen]
    | succ n =>
      rw [seen, List.forall_mem_cons]
      cases hf : f x with
      | none =>
        have hg := hsome x List.mem_cons_self hf
        rw [pick_none hf, pick_none hg, hg, ih hsome' hapart']
        simp
      | some c =>
        rw [pick_some hf]
        cases hg : g x with
        | none =>
          rw [pick_none hg]
          refine iff_of_false (fun heq => ?_) fun h => Option.some_ne_none c h.1
          obtain ⟨y, hy, hgy⟩ := mem_pick (heq ▸ List.mem_cons_self)
          exact hx y hy c hf hgy
        | some d =>
          rw [pick_some hg, List.cons.injEq, ih hsome' hapart', Option.some.injEq]
          rfl

end Limit

section Segments

variable {α : Type*} {sep : α} {v w x : List α} {ws : List (List α)}

/-- A text is one segment, or a segment in front of a separator and a text. -/
lemma segment_induction (sep : α) {motive : List α → Prop} (one : ∀ w, sep ∉ w → motive w)
    (more : ∀ w s, sep ∉ w → motive s → motive (w ++ sep :: s)) (s : List α) : motive s := by
  induction hn : s.length using Nat.strongRecOn generalizing s with
  | ind n ih =>
    by_cases hs : sep ∈ s
    · obtain ⟨w, t, rfl, hw⟩ := List.eq_append_cons_of_mem hs
      refine more w t hw (ih t.length ?_ t rfl)
      simp at hn
      omega
    · exact one s hs

lemma not_mem_of_mem_splitOn [BEq α] [LawfulBEq α] {s : List α} (hw : w ∈ s.splitOn sep) : sep ∉ w := by
  induction s using segment_induction sep with
  | one v hv =>
    rw [List.splitOn_eq_singleton hv, List.mem_singleton] at hw
    rwa [hw]
  | more v s hv ih =>
    rw [List.splitOn_append_cons_self_of_not_mem hv] at hw
    rcases List.mem_cons.1 hw with rfl | hw
    · exact hv
    · exact ih hw

lemma splitOn_append_sep [BEq α] [LawfulBEq α] (s t : List α) :
    (s ++ sep :: t).splitOn sep = s.splitOn sep ++ t.splitOn sep := by
  induction s using segment_induction sep with
  | one v hv => rw [List.splitOn_append_cons_self_of_not_mem hv, List.splitOn_eq_singleton hv, List.singleton_append]
  | more v s hv ih =>
    rw [List.append_assoc, List.cons_append, List.splitOn_append_cons_self_of_not_mem hv, ih,
      List.splitOn_append_cons_self_of_not_mem hv, List.cons_append]

/-- A text without the separator goes on with the last segment. -/
lemma splitOn_append_word [BEq α] [LawfulBEq α] (hx : sep ∉ x) (s : List α) :
    (s ++ x).splitOn sep = (s.splitOn sep).dropLast ++ [(s.splitOn sep).getLast?.getD [] ++ x] := by
  induction s using segment_induction sep with
  | one v hv =>
    have hvx : sep ∉ v ++ x := by simp [hv, hx]
    simp [List.splitOn_eq_singleton hv, List.splitOn_eq_singleton hvx]
  | more v s hv ih =>
    have hne := List.splitOn_ne_nil sep s
    rw [List.append_assoc, List.cons_append, List.splitOn_append_cons_self_of_not_mem hv, ih,
      List.splitOn_append_cons_self_of_not_mem hv, List.dropLast_cons_of_ne_nil hne,
      List.getLast?_cons_of_ne_nil hne, List.cons_append]

/-- A text that starts with the separator does not start within a segment. -/
lemma infix_append_iff (hw : sep ∉ w) : sep :: v <:+: w ++ x ↔ sep :: v <:+: x := by
  induction w with
  | nil => rfl
  | cons a w ih =>
    simp only [List.mem_cons, not_or] at hw
    rw [List.cons_append, List.infix_cons_iff, ih hw.2]
    simp [hw.1]

/-- A segment in front of a separator is known by it. -/
lemma prefix_append_cons_iff (hv : sep ∉ v) (hw : sep ∉ w) : v ++ [sep] <+: w ++ sep :: x ↔ v = w := by
  induction v generalizing w with
  | nil =>
    cases w with
    | nil => simp
    | cons a w =>
      simp only [List.mem_cons, not_or] at hw
      simp [hw.1]
  | cons b v ih =>
    simp only [List.mem_cons, not_or] at hv
    cases w with
    | nil => simp [Ne.symm hv.1]
    | cons a w =>
      simp only [List.mem_cons, not_or] at hw
      simp [ih hv.2 hw.2]

/-- What stands between two separators is a segment that is neither the first nor the last. -/
lemma enclosed_iff (hv : sep ∉ v) (hws : ∀ u ∈ w :: ws, sep ∉ u) :
    sep :: (v ++ [sep]) <:+: [sep].intercalate (w :: ws) ↔ v ∈ ws.dropLast := by
  induction ws generalizing w with
  | nil =>
    have hw := hws w (by simp)
    simp only [List.intercalate_singleton, List.dropLast_nil, List.not_mem_nil, iff_false]
    exact fun h => hw (h.subset (by simp))
  | cons u ws ih =>
    have hw := hws w (by simp)
    have hu := hws u (by simp)
    rw [List.intercalate_cons_cons, List.append_assoc, infix_append_iff hw, List.singleton_append,
      List.infix_cons_iff, ih fun t ht => hws t (by simp [ht]), List.cons_prefix_cons]
    cases ws with
    | nil =>
      simp only [List.intercalate_singleton, List.dropLast_nil, List.dropLast_singleton, List.not_mem_nil, or_false,
        true_and, iff_false]
      exact fun h => hu (h.subset (by simp))
    | cons t ws =>
      rw [List.intercalate_cons_cons, List.append_assoc, List.singleton_append, prefix_append_cons_iff hv hu]
      simp

end Segments

end Words
