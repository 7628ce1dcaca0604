import Mathlib

/-! Texts in which some characters are written as names that all begin with one mark. Nothing
here depends on the program. -/
namespace Entities

variable {α : Type*} [DecidableEq α]

/-- Characters and their names. -/
abbrev Table (α : Type*) := List (α × List α)

namespace Table

/-- What is written for a character. -/
def write (t : Table α) (c : α) : List α := (t.lookup c).getD [c]

def encode (t : Table α) (s : List α) : List α := s.flatMap t.write

/-- The name that a text starts with, and its character. -/
def entryAt (t : Table α) (s : List α) : Option (α × List α) := t.find? fun e => e.2.isPrefixOf s

/-- Replace every name by its character. `skip` is what is left of the name that was read last. -/
def decode (t : Table α) : ℕ → List α → List α
  | _, [] => []
  | skip + 1, _ :: s => t.decode skip s
  | 0, c :: s =>
    match t.entryAt (c :: s) with
    | some e => e.1 :: t.decode (e.2.length - 1) s
    | none => c :: t.decode 0 s

/-- The mark is at the start of every name and nowhere else, and has a name. -/
structure Sound (t : Table α) (mark : α) : Prop where
  marked : ∀ e ∈ t, ∃ w, e.2 = mark :: w ∧ mark ∉ w
  apart : ∀ e ∈ t, ∀ f ∈ t, e.2 <+: f.2 → e = f
  named : mark ∈ t.map Prod.fst

variable {t : Table α} {mark c : α} {s pre post : List α}

lemma write_nil (c : α) : write [] c = [c] := rfl

lemma write_cons (x c : α) (w : List α) (t : Table α) :
    write ((x, w) :: t) c = if c = x then w else t.write c := by
  unfold write
  rw [List.lookup_cons]
  by_cases hx : c = x
  · rw [if_pos hx, beq_iff_eq.mpr hx]
    rfl
  · rw [if_neg hx, beq_eq_false_iff_ne.mpr hx]

lemma write_cases (t : Table α) (c : α) : (c, t.write c) ∈ t ∨ c ∉ t.map Prod.fst ∧ t.write c = [c] := by
  induction t with
  | nil => exact .inr ⟨List.not_mem_nil, rfl⟩
  | cons e t ih =>
    obtain ⟨x, w⟩ := e
    rw [write_cons]
    by_cases hx : c = x
    · subst hx
      simp
    · rw [if_neg hx]
      rcases ih with hmem | ⟨hno, hone⟩
      · exact .inl (List.mem_cons_of_mem _ hmem)
      · exact .inr ⟨List.not_mem_cons_of_ne_of_not_mem hx hno, hone⟩

lemma decode_skip (u s : List α) : t.decode u.length (u ++ s) = t.decode 0 s := by
  induction u with
  | nil => rfl
  | cons c u ih => exact ih

/-- Of the names in the table a text starts with one at most. -/
lemma entryAt_append (h : t.Sound mark) {e : α × List α} (he : e ∈ t) (s : List α) :
    t.entryAt (e.2 ++ s) = some e := by
  have hsome : (t.entryAt (e.2 ++ s)).isSome := by
    apply List.find?_isSome.mpr
    exact ⟨e, he, List.isPrefixOf_iff_prefix.mpr (List.prefix_append _ _)⟩
  obtain ⟨f, hf⟩ := Option.isSome_iff_exists.mp hsome
  have hmem : f ∈ t := List.mem_of_find?_eq_some hf
  have hpre : f.2 <+: e.2 ++ s := by
    have htest := List.find?_some hf
    exact List.isPrefixOf_iff_prefix.mp htest
  rw [hf]
  congr 1
  rcases List.prefix_or_prefix_of_prefix hpre (List.prefix_append e.2 s) with hle | hle
  · exact h.apart f hmem e he hle
  · exact (h.apart e he f hmem hle).symm

lemma entryAt_eq_none (h : t.Sound mark) (hc : c ≠ mark) (s : List α) : t.entryAt (c :: s) = none := by
  apply List.find?_eq_none.mpr
  intro e he hpre
  obtain ⟨w, hw, -⟩ := h.marked e he
  rw [hw] at hpre
  have hhead := (List.cons_prefix_cons.mp (List.isPrefixOf_iff_prefix.mp hpre)).1
  exact hc hhead.symm

lemma decode_write (h : t.Sound mark) (c : α) (s : List α) :
    t.decode 0 (t.write c ++ s) = c :: t.decode 0 s := by
  rcases t.write_cases c with hmem | ⟨hno, hone⟩
  · obtain ⟨w, hw, -⟩ := h.marked _ hmem
    have hw : t.write c = mark :: w := hw
    have hentry := entryAt_append h hmem s
    simp only [hw, List.cons_append] at hentry
    have hstep : t.decode 0 (mark :: (w ++ s)) = c :: t.decode ((mark :: w).length - 1) (w ++ s) := by
      conv_lhs => unfold decode
      simp only [hentry]
    rw [hw, List.cons_append, hstep, ← decode_skip w s]
    rfl
  · have hc : c ≠ mark := by
      rintro rfl
      exact hno h.named
    rw [hone, List.singleton_append, decode, entryAt_eq_none h hc]

theorem decode_encode (h : t.Sound mark) (s : List α) : t.decode 0 (t.encode s) = s := by
  induction s with
  | nil => rfl
  | cons c s ih =>
    have hcons : t.encode (c :: s) = t.write c ++ t.encode s := rfl
    rw [hcons, decode_write h, ih]

/-- A character that has a name and is in none does not appear. -/
lemma not_mem_encode (hc : c ∈ t.map Prod.fst) (hno : ∀ e ∈ t, c ∉ e.2) (s : List α) : c ∉ t.encode s := by
  intro hm
  obtain ⟨x, -, hx⟩ := List.mem_flatMap.mp hm
  rcases t.write_cases x with hmem | ⟨hout, hone⟩
  · exact hno _ hmem hx
  · rw [hone, List.mem_singleton] at hx
    exact hout (hx ▸ hc)

/-- Each mark starts a name. -/
lemma mark_starts (h : t.Sound mark) (heq : t.encode s = pre ++ mark :: post) :
    ∃ e ∈ t, e.2 <+: mark :: post := by
  induction s generalizing pre with
  | nil => exact absurd heq.symm (List.append_ne_nil_of_right_ne_nil pre (List.cons_ne_nil _ _))
  | cons c s ih =>
    have hcons : t.write c ++ t.encode s = pre ++ mark :: post := heq
    rcases List.append_eq_append_iff.mp hcons with ⟨u, rfl, hu⟩ | ⟨u, hu, hpost⟩
    · exact ih hu
    · cases u with
      | nil =>
        have hfirst : t.encode s = [] ++ mark :: post := hpost.symm
        exact ih hfirst
      | cons x u =>
        obtain ⟨rfl, rfl⟩ := List.cons.inj hpost
        rcases t.write_cases c with hmem | ⟨hno, hone⟩
        · obtain ⟨w, hw, hmark⟩ := h.marked _ hmem
          have hw : t.write c = mark :: w := hw
          rw [hw] at hu
          cases pre with
          | nil =>
            refine ⟨_, hmem, ?_⟩
            have hwu : t.write c = mark :: u := hw.trans hu
            simp only [hwu]
            exact List.prefix_append _ _
          | cons y pre =>
            have htail := (List.cons.inj hu).2
            exact absurd (htail ▸ List.mem_append_right pre List.mem_cons_self) hmark
        · have hmem : mark ∈ t.write c := hu ▸ List.mem_append_right pre List.mem_cons_self
          rw [hone, List.mem_singleton] at hmem
          exact absurd h.named (hmem ▸ hno)

end Table

end Entities
