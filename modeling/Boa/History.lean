import Mathlib

/-! Histories that only grow. Nothing here depends on the program. -/
namespace History

variable {α : Type*} {K K' : α → Prop} {t t' t'' : List α}

/-- `t'` continues `t` by events of the kind `K`. -/
def Adds (K : α → Prop) (t t' : List α) : Prop := ∃ es, t' = t ++ es ∧ ∀ e ∈ es, K e

lemma Adds.refl (t : List α) : Adds K t t := ⟨[], by simp, by simp⟩

lemma Adds.snoc {e : α} (he : K e) : Adds K t (t ++ [e]) := ⟨[e], rfl, by simpa using he⟩

lemma Adds.trans (h : Adds K t t') (h' : Adds K t' t'') : Adds K t t'' := by
  obtain ⟨es, rfl, hes⟩ := h
  obtain ⟨es', rfl, hes'⟩ := h'
  refine ⟨es ++ es', by simp, fun e he => ?_⟩
  exact (List.mem_append.mp he).elim (hes e) (hes' e)

lemma Adds.mono (h : Adds K t t') (hK : ∀ e, K e → K' e) : Adds K' t t' := by
  obtain ⟨es, rfl, hes⟩ := h
  exact ⟨es, rfl, fun e he => hK e (hes e he)⟩

lemma Adds.subset (h : Adds K t t') {e : α} (he : e ∈ t) : e ∈ t' := by
  obtain ⟨es, rfl, -⟩ := h
  exact List.mem_append_left _ he

lemma Adds.mem (h : Adds K t t') {e : α} (he : e ∈ t') : e ∈ t ∨ K e := by
  obtain ⟨es, rfl, hes⟩ := h
  exact (List.mem_append.mp he).imp id (hes e)

/-- An event of another kind was there before. -/
lemma Adds.mem_iff (h : Adds K t t') {e : α} (he : ¬ K e) : e ∈ t' ↔ e ∈ t :=
  ⟨fun hm => (h.mem hm).resolve_right he, h.subset⟩

/-- A projection does not see events of another kind. -/
lemma Adds.filter_eq (h : Adds K t t') {p : α → Bool} (hp : ∀ e, K e → p e = false) :
    t'.filter p = t.filter p := by
  obtain ⟨es, rfl, hes⟩ := h
  have hnil : es.filter p = [] :=
    List.filter_eq_nil_iff.mpr fun e he => by simp [hp e (hes e he)]
  rw [List.filter_append, hnil, List.append_nil]

/-- How often an event of another kind happened does not change. -/
lemma Adds.count_eq [BEq α] [LawfulBEq α] (h : Adds K t t') {e : α} (he : ¬ K e) :
    t'.count e = t.count e := by
  obtain ⟨es, rfl, hes⟩ := h
  have hnone : e ∉ es := fun hm => he (hes e hm)
  rw [List.count_append, List.count_eq_zero_of_not_mem hnone, Nat.add_zero]

lemma count_snoc [BEq α] [LawfulBEq α] {e x : α} (he : x ≠ e) : (t ++ [x]).count e = t.count e :=
  Adds.count_eq (K := (· ≠ e)) (.snoc he) fun h => h rfl

/-! ### Weights -/

section Total

variable {w : α → ℕ} {n n' n'' : ℕ}

/-- What the events weigh together. -/
def total (w : α → ℕ) (t : List α) : ℕ := (t.map w).sum

@[simp] lemma total_nil (w : α → ℕ) : total w [] = 0 := rfl

@[simp] lemma total_append (w : α → ℕ) (t t' : List α) : total w (t ++ t') = total w t + total w t' := by
  simp [total]

lemma total_eq_zero (h : ∀ e ∈ t, w e = 0) : total w t = 0 := by
  induction t with
  | nil => rfl
  | cons e t ih =>
    have hrest : total w t = 0 := ih fun x hx => h x (by simp [hx])
    have hfirst : w e = 0 := h e (by simp)
    simpa [total, hfirst] using hrest

/-- A counter that went from `n` to `n'` went up by as much as the history. -/
def KeepsUp (w : α → ℕ) (n : ℕ) (t : List α) (n' : ℕ) (t' : List α) : Prop :=
  n' + total w t = n + total w t'

lemma KeepsUp.refl (w : α → ℕ) (n : ℕ) (t : List α) : KeepsUp w n t n t := rfl

lemma KeepsUp.trans (h : KeepsUp w n t n' t') (h' : KeepsUp w n' t' n'' t'') : KeepsUp w n t n'' t'' := by
  unfold KeepsUp at h h' ⊢
  omega

lemma KeepsUp.append (w : α → ℕ) (n : ℕ) (t es : List α) : KeepsUp w n t (n + total w es) (t ++ es) := by
  unfold KeepsUp
  rw [total_append]
  omega

/-- A counter that was right is right. -/
lemma KeepsUp.eq_total (h : KeepsUp w n t n' t') (hn : n = total w t) : n' = total w t' := by
  unfold KeepsUp at h
  omega

end Total

end History
