import Boa.Memory

/-! A string that is rewritten in the array it lies in, by a writer that stays behind the reader.
Nothing here depends on the program. -/
namespace Memory

variable {α : Type*} {m m' m'' s t : List α} {x d : α} {i j k n : ℕ}

lemma getElem?_of_drop (h : m.drop i = x :: s) : m[i]? = some x := by
  rw [← Nat.add_zero i, ← List.getElem?_drop, h]
  rfl

lemma getD_of_drop (h : m.drop i = x :: s) : m.getD i d = x := by
  rw [List.getD_eq_getElem?_getD, getElem?_of_drop h]
  rfl

lemma drop_succ (h : m.drop i = x :: s) : m.drop (i + 1) = s := by
  rw [← List.drop_drop, h]
  rfl

lemma lt_length_of_drop (h : m.drop i = x :: s) : i < m.length := by
  by_contra hle
  rw [List.drop_eq_nil_of_le (not_lt.mp hle)] at h
  cases h

/-- Comparing one character after the other. -/
lemma cons_prefix_drop {w : List α} (hx : x ≠ d) :
    x :: w <+: m.drop i ↔ m.getD i d = x ∧ w <+: m.drop (i + 1) := by
  cases h : m.drop i with
  | nil =>
    have hlen : m.length ≤ i := List.drop_eq_nil_iff.mp h
    rw [List.getD_eq_getElem?_getD, List.getElem?_eq_none hlen]
    exact iff_of_false (fun hp => List.cons_ne_nil _ _ (List.prefix_nil.mp hp)) fun hd => hx hd.1.symm
  | cons y u => rw [getD_of_drop h, drop_succ h, List.cons_prefix_cons, eq_comm]

/-- A text without a terminator in it that fits a terminated one. -/
lemma prefix_append_cons {w : List α} (hw : x ∉ w) : w <+: s ++ x :: t ↔ w <+: s := by
  refine ⟨fun h => ?_, fun h => h.trans (List.prefix_append _ _)⟩
  rcases List.prefix_or_prefix_of_prefix h (List.prefix_append s (x :: t)) with hle | ⟨u, rfl⟩
  · exact hle
  · rw [List.prefix_append_right_inj] at h
    cases u with
    | nil => exact ⟨[], by simp⟩
    | cons y u =>
      have hy := (List.cons_prefix_cons.mp h).1
      exact absurd (hy ▸ List.mem_append_right s List.mem_cons_self) hw

/-- A terminated text that lies in front of `n` is the same in two arrays that agree up to there. -/
lemma drop_of_take {u : List α} (h : m'.take n = m.take n) (hs : m.drop i = s ++ x :: u)
    (hle : i + s.length + 1 ≤ n) : ∃ u', m'.drop i = s ++ x :: u' := by
  have hpre : s ++ [x] <+: (m.take n).drop i := by
    rw [List.drop_take, hs]
    refine (List.prefix_take_iff).mpr ⟨⟨u, by simp⟩, ?_⟩
    rw [List.length_append, List.length_singleton]
    omega
  rw [← h, List.drop_take] at hpre
  obtain ⟨u', hu⟩ := hpre.trans (List.take_prefix _ _)
  exact ⟨u', by rw [← hu]; simp⟩

/-- The offset of the first `x`, as `strchr` and `memchr` find it. -/
def strchr [BEq α] (x : α) (m : List α) : Option ℕ := m.findIdx? (· == x)

lemma strchr_of_not_mem [BEq α] [LawfulBEq α] (h : x ∉ m) : strchr x m = none :=
  List.findIdx?_eq_none_iff.mpr fun _ hy => beq_eq_false_iff_ne.mpr (fun heq => h (heq ▸ hy))

lemma strchr_append [BEq α] [LawfulBEq α] (h : x ∉ m) (t : List α) : strchr x (m ++ x :: t) = some m.length := by
  have hfst := strchr_of_not_mem h
  unfold strchr at hfst ⊢
  rw [List.findIdx?_append, hfst, List.findIdx?_cons, beq_self_eq_true]
  simp

/-- A pointer that is advanced over the elements with `p`; `d` is what would be read behind the array. -/
def scanWhile (d : α) (p : α → Bool) : ℕ → List α → ℕ → ℕ
  | 0, _, i => i
  | fuel + 1, m, i => if p (m.getD i d) then scanWhile d p fuel m (i + 1) else i

lemma scanWhile_spec {p : α → Bool} {fuel : ℕ} (h : m.drop i = s ++ x :: t) (hx : p x = false)
    (hfuel : s.length < fuel) : scanWhile d p fuel m i = i + (s.takeWhile p).length ∧
      m.drop (scanWhile d p fuel m i) = s.dropWhile p ++ x :: t := by
  induction s generalizing fuel i with
  | nil =>
    obtain ⟨fuel, rfl⟩ := Nat.exists_eq_succ_of_ne_zero (Nat.ne_zero_of_lt hfuel)
    have hstop : scanWhile d p (fuel + 1) m i = i := by
      unfold scanWhile
      rw [getD_of_drop h, if_neg (by rw [hx]; exact Bool.false_ne_true)]
    rw [hstop]
    exact ⟨rfl, h⟩
  | cons y s ih =>
    obtain ⟨fuel, rfl⟩ := Nat.exists_eq_succ_of_ne_zero (Nat.ne_zero_of_lt hfuel)
    have hread : m.getD i d = y := getD_of_drop h
    by_cases hy : p y = true
    · have hlen : s.length < fuel := Nat.lt_of_succ_lt_succ hfuel
      obtain ⟨h1, h2⟩ := ih (drop_succ h) hlen
      have hgo : scanWhile d p (fuel + 1) m i = scanWhile d p fuel m (i + 1) := by
        conv_lhs => unfold scanWhile
        rw [hread, if_pos hy]
      rw [hgo, List.takeWhile_cons_of_pos hy, List.dropWhile_cons_of_pos hy, h2, h1, List.length_cons]
      exact ⟨by omega, rfl⟩
    · have hstop : scanWhile d p (fuel + 1) m i = i := by
        conv_lhs => unfold scanWhile
        rw [hread, if_neg hy]
      rw [hstop, List.takeWhile_cons_of_neg hy, List.dropWhile_cons_of_neg hy]
      exact ⟨rfl, h⟩

section Write
variable [Inhabited α]

/-- A write behind the reader is not seen by it. -/
lemma drop_store_one (h : j < k) : (store m j [x]).drop k = m.drop k := drop_store m [x] h

/-- Storing what is there already changes nothing. -/
lemma store_prefix (h : s <+: m) : store m 0 s = m := by
  obtain ⟨t, rfl⟩ := h
  simp [store]

/-- A block goes on where the one before it ended. -/
lemma store_cons {ys : List α} (h : j < m.length) :
    store (store m j [x]) (j + 1) ys = store m j (x :: ys) := by
  have hlen : (m.take j ++ [x]).length = j + 1 := by
    rw [List.length_append, List.length_take, Nat.min_eq_left h.le]
    rfl
  have hone : store m j [x] = (m.take j ++ [x]) ++ m.drop (j + 1) := store_of_le [x] h.le
  have hle : j + 1 ≤ (store m j [x]).length := by
    rw [length_store [x] h.le]
    exact le_max_right _ _
  rw [store_of_le ys hle, drop_store_one (by omega), hone, ← hlen, List.take_left, hlen,
    store_of_le (x :: ys) h.le, List.length_cons]
  simp only [List.append_assoc, List.cons_append, List.nil_append]
  congr 4
  omega

lemma take_store (xs : List α) (h : k ≤ j) (hj : j ≤ m.length) : (store m j xs).take k = m.take k := by
  rw [store_of_le xs hj, List.append_assoc, List.take_append_of_le_length (by rw [List.length_take]; omega),
    List.take_take, Nat.min_eq_left h]

/-- One cell is replaced. -/
lemma store_one (s t : List α) (x y : α) : store (s ++ x :: t) s.length [y] = s ++ y :: t := by
  have hle : s.length ≤ (s ++ x :: t).length := by simp
  rw [store_of_le [y] hle, List.take_left, List.length_singleton, List.drop_length_add_append]
  simp

lemma drop_store_inside {y : α} (h : m.drop i = s ++ x :: t) : (store m (i + s.length) [y]).drop i = s ++ y :: t := by
  obtain ⟨pre, rfl, rfl⟩ : ∃ pre, m = pre ++ s ++ x :: t ∧ pre.length = i := by
    refine ⟨m.take i, by rw [List.append_assoc, ← h, List.take_append_drop], ?_⟩
    have hlen := congrArg List.length h
    rw [List.length_drop, List.length_append, List.length_cons] at hlen
    rw [List.length_take]
    omega
  rw [← List.length_append, store_one, List.append_assoc, List.drop_left]

end Write

section CString
variable [BEq α] [Zero α]

/-- With a terminator behind it a text is read up to its own first one. -/
lemma cstr_terminated [LawfulBEq α] (s t : List α) : cstr (s ++ 0 :: t) = cstr s := by
  induction s with
  | nil => simp [cstr]
  | cons x s ih =>
    unfold cstr at ih ⊢
    rw [List.cons_append, List.takeWhile_cons, List.takeWhile_cons, ih]

/-- A step from one content of an array to another that touches nothing behind the first `n` cells and
leaves a string that ends there. -/
structure Stays (n : ℕ) (m m' : List α) : Prop where
  term : 0 ∈ m'
  short : (cstr m').length ≤ n
  kept : ∀ k, n < k → m'.drop k = m.drop k

lemma Stays.refl (h : 0 ∈ m) : Stays (cstr m).length m m := ⟨h, le_rfl, fun _ _ => rfl⟩

lemma Stays.trans (h : Stays n m m') (h' : Stays (cstr m').length m' m'') : Stays n m m'' where
  term := h'.term
  short := h'.short.trans h.short
  kept k hk := (h'.kept k (h.short.trans_lt hk)).trans (h.kept k hk)

variable [LawfulBEq α] [Inhabited α]

/-- A string no longer than the one in the array is written over it. -/
lemma stays_store (h : 0 ∉ s) (hlen : s.length ≤ n) : Stays n m (store m 0 (s ++ [0])) where
  term := by
    rw [store_zero]
    simp
  short := by
    rw [store_zero, List.append_assoc, List.singleton_append, cstr_append_nul h]
    exact hlen
  kept k hk := by
    apply drop_store
    rw [List.length_append, List.length_singleton]
    omega

lemma cstr_store (h : 0 ∉ s) : cstr (store m 0 (s ++ [0])) = s := by
  rw [store_zero, List.append_assoc, List.singleton_append, cstr_append_nul h]

end CString

end Memory
