import Mathlib

/-! Hash tables with chains, against the list of all that was put into them. Nothing here
depends on the program. -/
namespace Chains

variable {α κ : Type*} {hash : α → ℕ} {key : α → κ} {xs : List α} {t : List (List α)} {x : α}

/-- Put `x` at the end of chain `h`. -/
def put (t : List (List α)) (h : ℕ) (x : α) : List (List α) := t.set h (t.getD h [] ++ [x])

/-- The first element with a property of its key is, in each chain, the first of those in
`xs` that belong to the chain. -/
def Indexes (hash : α → ℕ) (key : α → κ) (xs : List α) (t : List (List α)) : Prop :=
  ∀ h < t.length, ∀ p : κ → Bool,
    (t.getD h []).find? (fun a => p (key a)) = xs.find? fun a => hash a == h && p (key a)

lemma length_put (t : List (List α)) (h : ℕ) (x : α) : (put t h x).length = t.length := by
  simp [put]

lemma getD_put (h h' : ℕ) (hlt : h' < t.length) :
    (put t h x).getD h' [] = if h = h' then t.getD h [] ++ [x] else t.getD h' [] := by
  simp only [put, List.getD_eq_getElem?_getD, List.getElem?_set]
  split_ifs with he hlen
  · rfl
  · exact absurd (he ▸ hlt) hlen
  · rfl

lemma indexes_empty (n : ℕ) : Indexes hash key [] (List.replicate n []) := by
  intro h hlt p
  rw [List.length_replicate] at hlt
  simp [List.getD_eq_getElem?_getD, hlt]

/-- An element that is appended to its chain. -/
lemma Indexes.put (h : Indexes hash key xs t) : Indexes hash key (xs ++ [x]) (put t (hash x) x) := by
  intro i hi p
  rw [length_put] at hi
  rw [getD_put _ _ hi, List.find?_append, ← h i hi p]
  split_ifs with hx
  · subst hx
    simp [List.find?_append]
  · have hne : (hash x == i) = false := by simpa using hx
    simp [hne]

/-- An element whose key is in its chain already need not be put there. -/
lemma Indexes.skip (h : Indexes hash key xs t)
    (hmem : ∃ y ∈ t.getD (hash x) [], key y = key x) : Indexes hash key (xs ++ [x]) t := by
  intro i hi p
  rw [List.find?_append, ← h i hi p]
  by_cases he : hash x = i
  · subst he
    obtain ⟨y, hy, hkey⟩ := hmem
    cases hfind : (t.getD (hash x) []).find? fun a => p (key a) with
    | some a => rfl
    | none =>
      have hp := List.find?_eq_none.mp hfind y hy
      rw [hkey] at hp
      simp [hp]
  · have hne : (hash x == i) = false := by simpa using he
    simp [hne]

/-- The table of `xs` in `n` chains: each lists elements of `xs` that belong to it, in the order of `xs`, and
the first of every key. -/
structure Holds (hash : α → ℕ) (key : α → κ) (n : ℕ) (xs : List α) (t : List (List α)) : Prop where
  length : t.length = n
  sub : ∀ h < n, (t.getD h []).Sublist (xs.filter (hash · == h))
  first : Indexes hash key xs t

lemma holds_empty (n : ℕ) : Holds hash key n [] (List.replicate n []) where
  length := List.length_replicate
  sub h hlt := by simp [List.getD_eq_getElem?_getD, hlt]
  first := indexes_empty n

lemma Holds.put {n : ℕ} (h : Holds hash key n xs t) : Holds hash key n (xs ++ [x]) (put t (hash x) x) where
  length := (length_put t (hash x) x).trans h.length
  sub i hi := by
    rw [getD_put _ _ (h.length ▸ hi), List.filter_append]
    split_ifs with hx
    · subst hx
      refine (h.sub _ hi).append ?_
      simp
    · exact (h.sub i hi).trans (List.sublist_append_left _ _)
  first := h.first.put

lemma Holds.skip {n : ℕ} (h : Holds hash key n xs t) (hmem : ∃ y ∈ t.getD (hash x) [], key y = key x) :
    Holds hash key n (xs ++ [x]) t where
  length := h.length
  sub i hi := by
    rw [List.filter_append]
    exact (h.sub i hi).trans (List.sublist_append_left _ _)
  first := h.first.skip hmem

/-- Among the elements with `q`, the first with `p` is the first of all with `p` exactly if
that one has `q`. -/
lemma find?_and_eq_iff {p q : α → Bool} :
    (xs.find? fun a => q a && p a) = xs.find? p ↔ ∀ a, xs.find? p = some a → q a = true := by
  induction xs with
  | nil => simp
  | cons x xs ih =>
    cases hp : p x with
    | false => simpa [hp] using ih
    | true =>
      cases hq : q x with
      | true => simp [hp, hq]
      | false =>
        have hne : (xs.find? fun a => q a && p a) ≠ some x := by
          intro h
          have := List.find?_some h
          simp [hq] at this
        simp [hp, hq, hne]

end Chains
