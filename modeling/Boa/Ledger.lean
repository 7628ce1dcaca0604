import Mathlib

/-! Resources that are taken and given back: what is held after a run of moves, when none
of them gives back what is not held. -/
namespace Ledger

/-- A resource is taken, or given back. -/
inductive Move (α : Type*)
  | take (x : α)
  | give (x : α)
  deriving DecidableEq, Repr

variable {α : Type*} [DecidableEq α]

/-- What is held after one move; only what is held can be given back. -/
def step (held : Multiset α) : Move α → Option (Multiset α)
  | .take x => some (x ::ₘ held)
  | .give x => if x ∈ held then some (held.erase x) else none

/-- What is held after a run of moves. -/
def replay (moves : List (Move α)) (held : Multiset α) : Option (Multiset α) := moves.foldlM step held

variable {x : α} {held held' held'' : Multiset α} {moves moves' : List (Move α)}

@[simp] lemma replay_nil (held : Multiset α) : replay [] held = some held := rfl

@[simp] lemma replay_take (x : α) (held : Multiset α) : replay [.take x] held = some (x ::ₘ held) := rfl

lemma step_give (x : α) (held : Multiset α) : step (x ::ₘ held) (.give x) = some held := by
  simp [step]

@[simp] lemma replay_give (x : α) (held : Multiset α) : replay [.give x] (x ::ₘ held) = some held := by
  simp [replay, step_give]

lemma replay_append (moves moves' : List (Move α)) (held : Multiset α) :
    replay (moves ++ moves') held = (replay moves held).bind (replay moves') := by
  unfold replay
  exact List.foldlM_append

/-- Two runs, one behind the other. -/
lemma replay_trans (h : replay moves held = some held') (h' : replay moves' held' = some held'') :
    replay (moves ++ moves') held = some held'' := by
  rw [replay_append, h]
  exact h'

/-- What is given back and what is left are together what was held and what was taken. -/
theorem replay_count (x : α) (h : replay moves held = some held') :
    held.count x + moves.count (.take x) = held'.count x + moves.count (.give x) := by
  induction moves generalizing held with
  | nil =>
    obtain rfl : held = held' := Option.some.inj h
    rfl
  | cons move moves ih =>
    cases move with
    | take y =>
      have hrest : (y ::ₘ held).count x + _ = _ := ih h
      rw [Multiset.count_cons] at hrest
      rw [List.count_cons, List.count_cons_of_ne (by simp)]
      by_cases hxy : x = y
      · simp only [hxy, if_true, beq_self_eq_true] at hrest ⊢
        omega
      · simp only [hxy, Ne.symm hxy, if_false, beq_iff_eq, Move.take.injEq] at hrest ⊢
        omega
    | give y =>
      by_cases hy : y ∈ held
      · have hrest : (held.erase y).count x + _ = _ := ih (by simpa [replay, step, hy] using h)
        rw [List.count_cons_of_ne (by simp), List.count_cons]
        by_cases hxy : x = y
        · subst hxy
          have hpos : 0 < held.count x := Multiset.count_pos.mpr hy
          rw [Multiset.count_erase_self] at hrest
          simp only [beq_self_eq_true, if_true]
          omega
        · have hne : ¬ y = x := Ne.symm hxy
          rw [Multiset.count_erase_of_ne hxy] at hrest
          simp only [beq_iff_eq, Move.give.injEq, hne, if_false]
          omega
      · simp [replay, step, hy] at h

end Ledger
