import Mathlib

/-! Walking round a ring of places until one of them answers. Nothing here
depends on the program. -/
namespace Probe

variable {α : Type*} {n : ℕ}

/-- Ask the places from `i` on, one after the other, and give up on coming back
to `start`. -/
def scan (next : Fin n → Fin n) (visit : Fin n → Option α) (start : Fin n) : ℕ → Fin n → Option α
  | 0, _ => none
  | fuel + 1, i =>
    match visit i with
    | some a => some a
    | none => if next i = start then none else scan next visit start fuel (next i)

variable {next : Fin n → Fin n} {visit : Fin n → Option α} {start : Fin n}

lemma scan_sound {fuel : ℕ} {i : Fin n} {a : α} (h : scan next visit start fuel i = some a) :
    ∃ j, visit j = some a := by
  induction fuel generalizing i with
  | zero => simp [scan] at h
  | succ fuel ih =>
    rw [scan] at h
    split at h
    · next b hb =>
      obtain rfl : b = a := by simpa using h
      exact ⟨i, hb⟩
    · split at h
      · simp at h
      · exact ih h

/-- From `k` places past `start` the walk reaches a place that answers, `d` places further on. -/
lemma scan_isSome_of_ahead (hnext : ∀ i, (next i).val = (i.val + 1) % n) {j : Fin n}
    (hj : (visit j).isSome) (d : ℕ) {k fuel : ℕ} {i : Fin n} (hi : i.val = (start.val + k) % n)
    (hd : j.val = (start.val + k + d) % n) (hk : k + d < n) (hf : d < fuel) :
    (scan next visit start fuel i).isSome := by
  induction d generalizing k fuel i with
  | zero =>
    obtain ⟨fuel, rfl⟩ : ∃ f, fuel = f + 1 := ⟨fuel - 1, by omega⟩
    obtain rfl : i = j := Fin.ext (by simpa [hi] using hd.symm)
    obtain ⟨a, ha⟩ := Option.isSome_iff_exists.mp hj
    simp [scan, ha]
  | succ d ih =>
    obtain ⟨fuel, rfl⟩ : ∃ f, fuel = f + 1 := ⟨fuel - 1, by omega⟩
    rw [scan]
    split
    · simp
    · have hval : (next i).val = (start.val + (k + 1)) % n := by
        rw [hnext, hi, Nat.mod_add_mod, Nat.add_assoc]
      have hne : next i ≠ start := by
        intro he
        have hmod : (start.val + (k + 1)) % n = start.val % n := by
          rw [← hval, he, Nat.mod_eq_of_lt start.isLt]
        have hdvd : n ∣ k + 1 :=
          Nat.modEq_zero_iff_dvd.mp (Nat.ModEq.add_left_cancel' start.val hmod)
        exact absurd (Nat.le_of_dvd (by omega) hdvd) (by omega)
      rw [if_neg hne]
      exact ih hval (by rw [hd]; congr 1; omega) (by omega) (by omega)

/-- A full turn finds an answer if there is one anywhere. -/
lemma scan_isSome (hnext : ∀ i, (next i).val = (i.val + 1) % n) {j : Fin n}
    (hj : (visit j).isSome) : (scan next visit start n start).isSome := by
  have hs := start.isLt
  have hlt := j.isLt
  apply scan_isSome_of_ahead hnext hj ((j.val + (n - start.val)) % n) (k := 0)
  · simp [Nat.mod_eq_of_lt hs]
  · rw [Nat.add_zero, Nat.add_mod_mod, show start.val + (j.val + (n - start.val)) = j.val + n by omega,
      Nat.add_mod_right, Nat.mod_eq_of_lt hlt]
  · simpa using Nat.mod_lt _ (by omega)
  · exact Nat.mod_lt _ (by omega)

end Probe
