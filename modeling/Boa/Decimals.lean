import Boa.Memory
import Boa.Bytes

/-! Decimal numerals: what `simple_itoa` leaves in its buffer, and the strings `boa_atoi` reads. -/
namespace Boa
open Memory

/-- The numeral of `n`: digits only, and no zero in front of others. -/
structure Canonical (n : ℕ) (s : Bytes) : Prop where
  nonempty : s ≠ []
  digits : ∀ d ∈ s, isdigit d = true
  lead : s.head? = some 48 → s = [48]
  value : decimal s = n

/-- The `do` loop of `simple_itoa`: one character below the other, down from `p`. -/
def itoaStores (mem : ℤ → UInt8) (p : ℤ) (i : ℕ) : (ℤ → UInt8) × ℤ :=
  let mem := Function.update mem (p - 1) (UInt8.ofNat (48 + i % 10))
  if i / 10 = 0 then (mem, p - 1) else itoaStores mem (p - 1) (i / 10)
termination_by i
decreasing_by omega

/-- `simple_itoa` on the memory around its static buffer, whose first character has the
address 0; `i` is a `uint64_t`. -/
def simpleItoaIn (mem : ℤ → UInt8) (i : ℕ) : (ℤ → UInt8) × ℤ :=
  itoaStores (Function.update mem 21 0) 21 (i % 2 ^ 64)

/-- `memcmp(s, p, strlen(s)) == 0`. -/
def sameBytes (mem : ℤ → UInt8) (p : ℤ) : Bytes → Bool
  | [] => true
  | c :: s => c == mem p && sameBytes mem (p + 1) s

/-- `boa_atoi` on the string at `s`, with the buffer of `simple_itoa` and the memory behind it. -/
def boaAtoiIn (mem : ℤ → UInt8) (s : Bytes) : ℤ :=
  if !isdigit (s.headD 0) then -1
  else if atoi s < 0 then -1
  else
    let reconv := simpleItoaIn mem (atoi s % 2 ^ 32).toNat
    if !sameBytes reconv.1 reconv.2 (cstr s) then -1 else atoi s

/-- The value of a digit character. -/
def digitVal (d : UInt8) : ℕ := d.toNat - 48

lemma digitVal_lt {d : UInt8} (h : isdigit d = true) : digitVal d < 10 := by
  simp only [isdigit, decide_eq_true_eq] at h
  simp only [digitVal]
  omega

lemma digitVal_inj {c d : UInt8} (hc : isdigit c = true) (hd : isdigit d = true)
    (h : digitVal c = digitVal d) : c = d := by
  simp only [isdigit, decide_eq_true_eq] at hc hd
  simp only [digitVal] at h
  exact UInt8.toNat_inj.1 (by omega)

/-- A string of digits is the number whose digits it lists, the last one first. -/
lemma decimal_eq_ofDigits (s : Bytes) : decimal s = Nat.ofDigits 10 (s.map digitVal).reverse := by
  induction s using List.reverseRecOn with
  | nil => simp [decimal]
  | append_singleton s d ih =>
    simp [decimal_append_digit, ih, Nat.ofDigits_cons, digitVal, Nat.add_comm]

lemma decimal_append (s t : Bytes) : decimal (s ++ t) = decimal t + 10 ^ t.length * decimal s := by
  simp [decimal_eq_ofDigits, Nat.ofDigits_append]

lemma decimal_singleton (d : UInt8) : decimal [d] = digitVal d := by simp [decimal, digitVal]

/-- What stands behind a run of digits only makes it a greater number. -/
lemma decimal_prefix_le {s t : Bytes} (h : t <+: s) : decimal t ≤ decimal s := by
  obtain ⟨u, rfl⟩ := h
  rw [decimal_append]
  have hpow : 1 ≤ 10 ^ u.length := Nat.one_le_pow _ _ (by omega)
  calc decimal t ≤ 10 ^ u.length * decimal t := Nat.le_mul_of_pos_left _ hpow
    _ ≤ decimal u + 10 ^ u.length * decimal t := Nat.le_add_left _ _

namespace Canonical

variable {n : ℕ} {s t : Bytes}

/-- The first digit is worth something, unless there is no other. -/
lemma head_pos {d : UInt8} (h : Canonical n (d :: s)) (hs : s ≠ []) : digitVal d ≠ 0 := by
  intro hd
  have hzero : d = 48 := digitVal_inj (h.digits d (by simp)) (by decide) (by simpa [digitVal] using hd)
  have := h.lead (by simp [hzero])
  simp [hs] at this

lemma ne_zero {d : UInt8} (h : Canonical n (d :: s)) (hs : s ≠ []) : n ≠ 0 := by
  have hval := h.value
  rw [← List.singleton_append, decimal_append, decimal_singleton] at hval
  have := Nat.mul_pos (Nat.pow_pos (n := s.length) (show 0 < 10 by omega))
    (Nat.pos_of_ne_zero (h.head_pos hs))
  omega

/-- A numeral is its number's list of digits, the last one first; only zero has none. -/
lemma digits_eq (h : Canonical n s) (hn : n ≠ 0) : Nat.digits 10 n = (s.map digitVal).reverse := by
  rw [← h.value, decimal_eq_ofDigits]
  refine Nat.digits_ofDigits 10 (by omega) _ ?_ ?_
  · intro l hl
    simp only [List.mem_reverse, List.mem_map] at hl
    obtain ⟨d, hd, rfl⟩ := hl
    exact digitVal_lt (h.digits d hd)
  · intro hne
    cases s with
    | nil => exact absurd rfl h.nonempty
    | cons d s =>
      by_cases hs : s = []
      · subst hs
        have hval := h.value
        rw [decimal_singleton] at hval
        simpa [hval] using hn
      · simpa using h.head_pos hs

/-- A number has one numeral. -/
lemma unique (hs : Canonical n s) (ht : Canonical n t) : s = t := by
  by_cases hn : n = 0
  · have hzero : ∀ u, Canonical n u → u = [48] := by
      intro u hu
      cases u with
      | nil => exact absurd rfl hu.nonempty
      | cons d u =>
        by_cases hne : u = []
        · subst hne
          have hval := hu.value
          rw [decimal_singleton, hn] at hval
          simpa using digitVal_inj (hu.digits d (by simp)) (by decide) (by simpa [digitVal] using hval)
        · exact absurd hn (hu.ne_zero hne)
    rw [hzero s hs, hzero t ht]
  · have hmap : s.map digitVal = t.map digitVal :=
      List.reverse_injective ((hs.digits_eq hn).symm.trans (ht.digits_eq hn))
    have hval : ∀ u, Canonical n u → (u.map digitVal).map (fun k => UInt8.ofNat (48 + k)) = u := by
      intro u hu
      rw [List.map_map]
      refine (List.map_congr_left fun d hd => ?_).trans (List.map_id u)
      obtain ⟨hdigit, hval⟩ := isdigit_ofNat (digitVal_lt (hu.digits d hd))
      exact digitVal_inj hdigit (hu.digits d hd) hval
    rw [← hval s hs, ← hval t ht, hmap]

/-- The beginning of a numeral is the numeral of the digits it has. -/
lemma beginning (h : Canonical n s) (hpre : t <+: s) (ht : t ≠ []) : Canonical (decimal t) t where
  nonempty := ht
  digits d hd := h.digits d (hpre.subset hd)
  lead := by
    obtain ⟨u, rfl⟩ := hpre
    intro hlead
    cases t with
    | nil => simp at hlead
    | cons d t =>
      have hs := h.lead (by simpa using hlead)
      simp at hs
      simp [hs]
  value := rfl

end Canonical

/-- The numeral of a number, its last digit last. -/
def numeral (i : ℕ) : Bytes :=
  if i / 10 = 0 then [UInt8.ofNat (48 + i % 10)] else numeral (i / 10) ++ [UInt8.ofNat (48 + i % 10)]
termination_by i
decreasing_by omega

lemma canonical_numeral (i : ℕ) : Canonical i (numeral i) := by
  induction i using numeral.induct with
  | case1 i h =>
    obtain ⟨hdigit, hval⟩ := isdigit_ofNat (Nat.mod_lt i (show 0 < 10 by omega))
    rw [numeral, if_pos h]
    exact {
      nonempty := by simp
      digits := by
        intro d hd
        rwa [List.mem_singleton.1 hd]
      lead := by simp
      value := by
        rw [decimal_singleton, digitVal, hval]
        omega }
  | case2 i h ih =>
    obtain ⟨hdigit, hval⟩ := isdigit_ofNat (Nat.mod_lt i (show 0 < 10 by omega))
    rw [numeral, if_neg h]
    exact {
      nonempty := by simp
      digits := by
        intro d hd
        rcases List.mem_append.1 hd with hd | hd
        · exact ih.digits d hd
        · rwa [List.mem_singleton.1 hd]
      lead := by
        intro hlead
        rw [List.head?_append_of_ne_nil _ ih.nonempty] at hlead
        have hzero := ih.value
        simp [ih.lead hlead, decimal] at hzero
        omega
      value := by
        rw [decimal_append_digit, ih.value, hval]
        omega }

section Memory

variable {mem : ℤ → UInt8} {p q : ℤ} {s t : Bytes}

/-- A store in front of a string does not change it. -/
lemma sameBytes_update (h : q < p) (c : UInt8) : sameBytes (Function.update mem q c) p s = sameBytes mem p s := by
  induction s generalizing p with
  | nil => rfl
  | cons d s ih => simp [sameBytes, ih (show q < p + 1 by omega), Function.update_of_ne (show p ≠ q by omega)]

/-- The loop writes the numeral in front of what stands at `p`. -/
lemma itoaStores_same (i : ℕ) (h : sameBytes mem p s = true) :
    sameBytes (itoaStores mem p i).1 (itoaStores mem p i).2 (numeral i ++ s) = true := by
  induction i using numeral.induct generalizing mem p s with
  | case1 i hi =>
    simp [itoaStores, numeral, hi, sameBytes, sameBytes_update (show p - 1 < p by omega), h]
  | case2 i hi ih =>
    rw [itoaStores, numeral, if_neg hi, if_neg hi, List.append_assoc]
    exact ih (by simp [sameBytes, sameBytes_update (show p - 1 < p by omega), h])

/-- Comparing a string with a text and the NUL behind it, for the length of the string. -/
lemma sameBytes_prefix (h : sameBytes mem p (s ++ [0]) = true) (ht : 0 ∉ t) :
    sameBytes mem p t = true ↔ t <+: s := by
  induction s generalizing p t with
  | nil =>
    cases t with
    | nil => simp [sameBytes]
    | cons c t =>
      simp only [List.nil_append, sameBytes, Bool.and_true, beq_iff_eq] at h
      simp only [List.mem_cons, not_or] at ht
      simp [sameBytes, ← h, Ne.symm ht.1]
  | cons d s ih =>
    cases t with
    | nil => simp [sameBytes]
    | cons c t =>
      simp only [List.cons_append, sameBytes, Bool.and_eq_true, beq_iff_eq] at h
      simp only [List.mem_cons, not_or] at ht
      simp [sameBytes, ih h.2 ht.2, ← h.1, List.cons_prefix_cons]

/-- `simple_itoa` returns the place of the numeral, which ends with the buffer. -/
lemma simpleItoaIn_same (mem : ℤ → UInt8) {i : ℕ} (h : i < 2 ^ 64) :
    sameBytes (simpleItoaIn mem i).1 (simpleItoaIn mem i).2 (numeral i ++ [0]) = true := by
  rw [simpleItoaIn, Nat.mod_eq_of_lt h]
  exact itoaStores_same i (by simp [sameBytes])

/-- The loop leaves alone what is not right below `p`. -/
lemma itoaStores_frame (mem : ℤ → UInt8) (p : ℤ) (i : ℕ) :
    (itoaStores mem p i).2 = p - (numeral i).length ∧
      ∀ q, q < (itoaStores mem p i).2 ∨ p ≤ q → (itoaStores mem p i).1 q = mem q := by
  induction i using numeral.induct generalizing mem p with
  | case1 i hi =>
    rw [itoaStores, numeral, if_pos hi, if_pos hi]
    refine ⟨by simp, fun q hq => Function.update_of_ne ?_ _ _⟩
    rcases hq with hq | hq <;> omega
  | case2 i hi ih =>
    obtain ⟨hend, hframe⟩ := ih (Function.update mem (p - 1) (UInt8.ofNat (48 + i % 10))) (p - 1)
    rw [itoaStores, numeral, if_neg hi, if_neg hi]
    refine ⟨by rw [hend]; simp; omega, fun q hq => ?_⟩
    have hq' : q ≠ p - 1 := by
      rcases hq with hq | hq
      · simp only [hend] at hq
        omega
      · omega
    rw [hframe q (by omega), Function.update_of_ne hq']

lemma numeral_length {k i : ℕ} (h : i < 10 ^ (k + 1)) : (numeral i).length ≤ k + 1 := by
  induction k generalizing i with
  | zero => simp [numeral, show i / 10 = 0 by omega]
  | succ k ih =>
    rw [numeral]
    split_ifs
    · simp
    · have := ih (i := i / 10) (by omega)
      simpa using this

/-- No 64-bit number has more digits than the buffer has room for. -/
lemma simpleItoaIn_within (mem : ℤ → UInt8) (i : ℕ) :
    1 ≤ (simpleItoaIn mem i).2 ∧ ∀ q, q < 0 ∨ 21 < q → (simpleItoaIn mem i).1 q = mem q := by
  obtain ⟨hend, hframe⟩ := itoaStores_frame (Function.update mem 21 0) 21 (i % 2 ^ 64)
  have hlen := numeral_length (k := 19) (i := i % 2 ^ 64) (by omega)
  refine ⟨by simp only [simpleItoaIn]; omega, fun q hq => ?_⟩
  rw [simpleItoaIn, hframe q (by omega), Function.update_of_ne (by omega)]

end Memory

lemma itoaLoop_eq {fuel i : ℕ} (h : i < 10 ^ (fuel + 1)) (acc : Bytes) :
    itoaLoop (fuel + 1) i acc = numeral i ++ acc := by
  induction fuel generalizing i acc with
  | zero => simp [itoaLoop, numeral, show i / 10 = 0 by omega]
  | succ fuel ih =>
    rw [itoaLoop, numeral]
    split_ifs
    · simp
    · simp [ih (i := i / 10) (by omega)]

lemma isdigit_zero : isdigit 0 = false := by decide

/-- The digits a string starts with end at its terminator at the latest. -/
lemma takeWhile_cstr (s : Bytes) : (cstr s).takeWhile isdigit = s.takeWhile isdigit := by
  induction s with
  | nil => rfl
  | cons d s ih =>
    by_cases hd : d = 0
    · simp [cstr, hd, isdigit_zero]
    · simp only [cstr] at ih
      simp [cstr, hd, List.takeWhile_cons, ih]

lemma headD_cstr (s : Bytes) : (cstr s).headD 0 = s.headD 0 := by
  cases s with
  | nil => rfl
  | cons d s => by_cases hd : d = 0 <;> simp [cstr, hd]

lemma atoi_cstr (s : Bytes) : atoi (cstr s) = atoi s := by rw [atoi, atoi, takeWhile_cstr]

/-- On a string of digits `atoi` is their value, cut to an `int`. -/
lemma atoi_digits {s : Bytes} (h : ∀ d ∈ s, isdigit d = true) :
    atoi s = (BitVec.ofNat 32 (decimal s)).toInt := by
  rw [atoi, List.takeWhile_eq_self_iff.2 h]

lemma atoi_of_lt {s : Bytes} (h : ∀ d ∈ s, isdigit d = true) (hlt : decimal s < 2 ^ 31) :
    atoi s = decimal s := by
  rw [atoi_digits h, BitVec.toInt_eq_toNat_of_lt] <;> simp <;> omega

lemma atoi_lt (s : Bytes) : atoi s < 2 ^ 31 := by
  have := BitVec.toInt_lt (x := BitVec.ofNat 32 (decimal (s.takeWhile isdigit)))
  simpa [atoi] using this

/-- What `boa_atoi` compares: the string has to begin the numeral of its own value. -/
lemma boaAtoiIn_eq (mem : ℤ → UInt8) (s : Bytes) :
    boaAtoiIn mem s =
      if isdigit ((cstr s).headD 0) = true ∧ 0 ≤ atoi (cstr s) ∧ cstr s <+: numeral (atoi (cstr s)).toNat
      then atoi (cstr s) else -1 := by
  have hlt := atoi_lt s
  rw [boaAtoiIn, headD_cstr, atoi_cstr]
  by_cases hneg : atoi s < 0
  · simp [hneg, show ¬ 0 ≤ atoi s by omega]
  · have hval : (atoi s % 2 ^ 32).toNat = (atoi s).toNat := by omega
    have hsame := sameBytes_prefix (simpleItoaIn_same mem (i := (atoi s).toNat) (by omega))
      (cstr_nul s)
    simp only [hval, ← hsame]
    have hpos : 0 ≤ atoi s := by omega
    split_ifs <;> simp_all

/-- A numeral of an `int` is read as its number. -/
lemma Canonical.boaAtoiIn {n : ℕ} {s : Bytes} (h : Canonical n (cstr s)) (hn : n ≤ 2 ^ 31 - 1)
    (mem : ℤ → UInt8) : boaAtoiIn mem s = n := by
  have hval : atoi (cstr s) = n := by
    rw [atoi_of_lt h.digits (by rw [h.value]; omega), h.value]
  have hdigit : isdigit ((cstr s).headD 0) = true := by
    cases hs : cstr s with
    | nil => exact absurd hs h.nonempty
    | cons d t => exact h.digits d (by simp [hs])
  have hpre : cstr s <+: numeral (n : ℤ).toNat := by
    rw [Int.toNat_natCast, h.unique (canonical_numeral n)]
  rw [boaAtoiIn_eq, hval, if_pos ⟨hdigit, by omega, hpre⟩]

/-- What is read as a number is its numeral: the value cannot have been cut to an `int`, for
the string would be no shorter than the numeral of the value before the cut. -/
lemma boaAtoiIn_canonical (mem : ℤ → UInt8) (s : Bytes) :
    boaAtoiIn mem s = -1 ∨ ∃ n : ℕ, boaAtoiIn mem s = n ∧ Canonical n (cstr s) ∧ n ≤ 2 ^ 31 - 1 := by
  rw [boaAtoiIn_eq]
  split_ifs with h
  · obtain ⟨hdigit, hpos, hpre⟩ := h
    have hlt := atoi_lt (cstr s)
    have hne : cstr s ≠ [] := by
      rintro hs
      simp [hs, isdigit_zero] at hdigit
    have hcan := (canonical_numeral (atoi (cstr s)).toNat).beginning hpre hne
    have hle : decimal (cstr s) ≤ (atoi (cstr s)).toNat := by
      calc decimal (cstr s) ≤ decimal (numeral (atoi (cstr s)).toNat) := decimal_prefix_le hpre
        _ = (atoi (cstr s)).toNat := (canonical_numeral _).value
    have hval := atoi_of_lt hcan.digits (by omega)
    exact .inr ⟨decimal (cstr s), hval, hcan, by omega⟩
  · exact .inl rfl

/-- The requests are handled with the same function, told as one on strings. -/
lemma boaAtoi_iff (s : Bytes) (n : ℕ) : boaAtoi s = some n ↔ Canonical n s ∧ n ≤ 2 ^ 31 - 1 := by
  have hlt := atoi_lt s
  have hnum : simpleItoa (atoi s).toNat = numeral (atoi s).toNat := by
    rw [simpleItoa, Nat.mod_eq_of_lt (by omega), itoaLoop_eq (by omega), List.append_nil]
  constructor
  · intro h
    cases s with
    | nil => simp [boaAtoi] at h
    | cons d s =>
      rw [boaAtoi, hnum] at h
      split_ifs at h with _ _ heq
      obtain rfl := Option.some.inj h
      have hcan := canonical_numeral (atoi (d :: s)).toNat
      rw [← heq] at hcan
      exact ⟨hcan, by omega⟩
  · rintro ⟨hcan, hle⟩
    have hval : atoi s = n := by
      rw [atoi_of_lt hcan.digits (by rw [hcan.value]; omega), hcan.value]
    rw [hval, Int.toNat_natCast] at hnum
    cases s with
    | nil => exact absurd rfl hcan.nonempty
    | cons d s =>
      have hdigit := hcan.digits d (by simp)
      have hs : d :: s = simpleItoa n := (hcan.unique (canonical_numeral n)).trans hnum.symm
      simp [boaAtoi, hval, hdigit, ← hs]

/-- `boa_atoi` is exact: the numerals of the non-negative `int`s give their number, whatever
the buffer held before and stands behind it; everything else gives -1. -/
theorem boaAtoiIn_exact (mem : ℤ → UInt8) (s : Bytes) :
    (∀ n : ℕ, boaAtoiIn mem s = n ↔ Canonical n (cstr s) ∧ n ≤ 2 ^ 31 - 1) ∧
      ((∀ n : ℕ, Canonical n (cstr s) → 2 ^ 31 - 1 < n) → boaAtoiIn mem s = -1) := by
  have hcases := boaAtoiIn_canonical mem s
  refine ⟨fun n => ⟨fun hn => ?_, fun h => h.1.boaAtoiIn h.2 mem⟩, fun hno => ?_⟩
  · rcases hcases with h | ⟨m, hm, hcan, hle⟩
    · omega
    · obtain rfl : m = n := by omega
      exact ⟨hcan, hle⟩
  · rcases hcases with h | ⟨m, hm, hcan, hle⟩
    · exact h
    · have := hno m hcan
      omega

end Boa
