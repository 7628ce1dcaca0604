import Mathlib

/-! Lists as flat memory: half-open windows, in-place stores and the bytes a
C string at an address denotes. Nothing here depends on the program. -/
namespace Memory

variable {α : Type*}

/-- The half-open window `[a, b)` of a memory. -/
def slice (m : List α) (a b : ℕ) : List α := (m.drop a).take (b - a)

/-- Copy `xs` to address `a`; a store beyond the written part pads the gap. -/
def store [Inhabited α] (m : List α) (a : ℕ) (xs : List α) : List α :=
  m.take a ++ List.replicate (a - m.length) default ++ xs ++ m.drop (a + xs.length)

@[simp] lemma slice_self (m : List α) (a : ℕ) : slice m a a = [] := by simp [slice]

lemma slice_eq_nil {m : List α} {a b : ℕ} (h : b ≤ a) : slice m a b = [] := by
  simp [slice, Nat.sub_eq_zero_of_le h]

lemma length_slice {m : List α} {a b : ℕ} (h : b ≤ m.length) : (slice m a b).length = b - a := by
  simp only [slice, List.length_take, List.length_drop]
  omega

lemma length_slice_le (m : List α) (a n : ℕ) : (slice m a (a + n)).length ≤ n := by
  simp only [slice, List.length_take]
  omega

lemma slice_append_slice {m : List α} {a b c : ℕ} (hab : a ≤ b) (hbc : b ≤ c) :
    slice m a b ++ slice m b c = slice m a c := by
  unfold slice
  rw [show c - a = (b - a) + (c - b) by omega, List.take_add, List.drop_drop,
    show a + (b - a) = b by omega]

section Store
variable [Inhabited α]

lemma store_of_le {m : List α} {a : ℕ} (xs : List α) (h : a ≤ m.length) :
    store m a xs = m.take a ++ xs ++ m.drop (a + xs.length) := by
  simp [store, Nat.sub_eq_zero_of_le h]

lemma length_store {m : List α} {a : ℕ} (xs : List α) (h : a ≤ m.length) :
    (store m a xs).length = max m.length (a + xs.length) := by
  simp only [store_of_le xs h, List.length_append, List.length_take, List.length_drop]
  omega

/-- A window that ends before the stored block does not see the store. -/
lemma slice_store_before {m : List α} {a b c : ℕ} (xs : List α) (h : c ≤ a) (ha : a ≤ m.length) :
    slice (store m a xs) b c = slice m b c := by
  rw [store_of_le xs ha]
  by_cases hb : b ≤ c
  · have hlen : (m.take a).length = a := by simp [ha]
    unfold slice
    rw [List.append_assoc, List.drop_append_of_le_length (by omega),
      List.take_append_of_le_length (by simp only [List.length_drop]; omega), List.drop_take,
      List.take_take]
    congr 1
    omega
  · rw [slice_eq_nil (by omega), slice_eq_nil (by omega)]

lemma drop_store (m xs : List α) {a k : ℕ} (h : a + xs.length ≤ k) : (store m a xs).drop k = m.drop k := by
  have hlen : (m.take a ++ List.replicate (a - m.length) default ++ xs).length = a + xs.length := by
    simp only [List.length_append, List.length_take, List.length_replicate]
    omega
  rw [store, List.drop_append, List.drop_eq_nil_of_le (hlen.le.trans h), List.nil_append, hlen,
    List.drop_drop, Nat.add_sub_cancel' h]

/-- A window that starts after the stored block does not see the store. -/
lemma slice_store_after {m : List α} {a b c : ℕ} (xs : List α) (h : a + xs.length ≤ b) :
    slice (store m a xs) b c = slice m b c := by
  unfold slice
  rw [drop_store m xs h]

lemma slice_store_self {m : List α} {a : ℕ} (xs : List α) (ha : a ≤ m.length) :
    slice (store m a xs) a (a + xs.length) = xs := by
  rw [store_of_le xs ha]
  have hlen : (m.take a).length = a := by simp [ha]
  unfold slice
  rw [List.append_assoc, List.drop_append, List.drop_eq_nil_of_le (by omega), List.nil_append, hlen]
  simp

/-- Storing right behind a window appends to it. -/
lemma slice_store_append {m : List α} {a b : ℕ} (xs : List α) (hb : b ≤ a) (ha : a ≤ m.length) :
    slice (store m a xs) b (a + xs.length) = slice m b a ++ xs := by
  rw [← slice_append_slice hb (Nat.le_add_right a xs.length), slice_store_before xs le_rfl ha,
    slice_store_self xs ha]

lemma store_zero (m xs : List α) : store m 0 xs = xs ++ m.drop xs.length := by
  simp [store]

/-- A copy that starts at the end of a text goes on with it, over what stood there. -/
lemma store_store {m xs zs ys : List α} (h : zs.length ≤ ys.length) :
    store (store m 0 (xs ++ zs)) xs.length ys = store m 0 (xs ++ ys) := by
  have hlen : xs.length + zs.length + (ys.length - zs.length) = xs.length + ys.length := by omega
  rw [store_zero, store_zero, store_of_le ys (by simp), List.append_assoc xs zs, List.take_left,
    List.drop_length_add_append, List.drop_append, List.drop_eq_nil_of_le h, List.nil_append,
    List.drop_drop, List.length_append, List.length_append, hlen]

/-- Each copy starts where the one before it ends. -/
def Abut : ℕ → List (ℕ × List α) → Prop
  | _, [] => True
  | n, w :: ws => w.1 = n ∧ Abut (n + w.2.length) ws

/-- Such copies write one text. -/
lemma foldl_store_abut (m xs : List α) {ws : List (ℕ × List α)} (h : Abut xs.length ws) :
    ws.foldl (fun m w => store m w.1 w.2) (store m 0 xs) = store m 0 (xs ++ ws.flatMap Prod.snd) := by
  induction ws generalizing xs with
  | nil => simp
  | cons w ws ih =>
    obtain ⟨h1, h2⟩ := h
    have hstep : store (store m 0 xs) w.1 w.2 = store m 0 (xs ++ w.2) := by
      have hcopy : store (store m 0 (xs ++ [])) xs.length w.2 = store m 0 (xs ++ w.2) := store_store (Nat.zero_le _)
      rwa [List.append_nil, ← h1] at hcopy
    rw [List.foldl_cons, hstep, ih _ (by rwa [List.length_append]), List.flatMap_cons, List.append_assoc]

end Store

/-- None of them ends behind the text. -/
lemma Abut.end_le {n : ℕ} {ws : List (ℕ × List α)} (h : Abut n ws) {w : ℕ × List α} (hw : w ∈ ws) :
    w.1 + w.2.length ≤ n + (ws.flatMap Prod.snd).length := by
  induction ws generalizing n with
  | nil => simp at hw
  | cons v ws ih =>
    obtain ⟨h1, h2⟩ := h
    rw [List.flatMap_cons, List.length_append]
    rcases List.mem_cons.mp hw with rfl | hw
    · omega
    · have := ih h2 hw
      omega

/-- The string a pointer to `m` denotes: everything before the terminator. -/
def cstr [BEq α] [Zero α] (m : List α) : List α := m.takeWhile (fun x => !(x == 0))

/-- A string ends at the first terminator at the latest. -/
lemma length_cstr_le [BEq α] [LawfulBEq α] [Zero α] {m : List α} {i : ℕ} (h : m[i]? = some 0) :
    (cstr m).length ≤ i := by
  induction m generalizing i with
  | nil => simp at h
  | cons x m ih =>
    cases i with
    | zero =>
      obtain rfl : x = 0 := by simpa using h
      simp [cstr]
    | succ i =>
      have h1 := ih (by simpa using h)
      unfold cstr at h1 ⊢
      rw [List.takeWhile_cons]
      split_ifs <;> simp only [List.length_cons, List.length_nil] <;> omega

section CString
variable [BEq α] [LawfulBEq α] [Zero α] {m : List α}

lemma cstr_nul (m : List α) : 0 ∉ cstr m := by
  intro h
  have hp := List.mem_takeWhile_imp h
  simp at hp

lemma cstr_of_not_mem (h : 0 ∉ m) : cstr m = m := by
  refine List.takeWhile_eq_self_iff.mpr fun x hx => ?_
  have hne : x ≠ 0 := fun he => h (he ▸ hx)
  simpa using hne

/-- A text with its terminator. -/
lemma cstr_append_nul (h : 0 ∉ m) (t : List α) : cstr (m ++ 0 :: t) = m := by
  have hm := cstr_of_not_mem h
  unfold cstr at hm ⊢
  rw [List.takeWhile_append_of_pos, List.takeWhile_cons]
  · simp
  · intro x hx
    have hne : x ≠ 0 := fun he => h (he ▸ hx)
    simpa using hne

/-- The terminator stands behind the string. -/
lemma exists_cstr_append (h : 0 ∈ m) : ∃ t, m = cstr m ++ 0 :: t := by
  obtain ⟨s, t, rfl, hs⟩ := List.eq_append_cons_of_mem h
  exact ⟨t, by rw [cstr_append_nul hs]⟩

end CString

/-- Reading one cell after a store. -/
lemma getD_store (m : List (Option α)) (a : ℕ) (xs : List (Option α)) (i : ℕ) :
    (store m a xs).getD i none =
      if a ≤ i ∧ i < a + xs.length then xs.getD (i - a) none else m.getD i none := by
  simp only [store, List.append_assoc, List.getD_eq_getElem?_getD]
  by_cases h1 : i < a
  · rw [if_neg (by omega)]
    by_cases h2 : i < m.length
    · rw [List.getElem?_append_left (by simp; omega), List.getElem?_take_of_lt h1]
    · rw [List.getElem?_append_right (by simp; omega), List.getElem?_append_left (by simp; omega)]
      simp only [List.getElem?_replicate, List.getElem?_eq_none (not_lt.1 h2)]
      split <;> rfl
  · have hpad : (m.take a ++ List.replicate (a - m.length) (default : Option α)).length = a := by
      simp
      omega
    rw [← List.append_assoc, List.getElem?_append_right (by omega), hpad]
    by_cases h2 : i < a + xs.length
    · rw [if_pos (by omega), List.getElem?_append_left (by omega)]
    · rw [if_neg (by omega), List.getElem?_append_right (by omega), List.getElem?_drop]
      congr 2
      omega

lemma getElem?_store_self [Inhabited α] {m : List α} {a : ℕ} (x : α) (h : a ≤ m.length) :
    (store m a [x])[a]? = some x := by
  have hlen : (m.take a).length = a := by simp [h]
  rw [store_of_le [x] h, List.append_assoc, List.getElem?_append_right hlen.le, hlen]
  simp

end Memory
