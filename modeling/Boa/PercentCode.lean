import Boa.Bytes

/-! Percent-encoded texts: which are well formed, what they stand for, and how any text is
written as one. Nothing here depends on the program. -/
namespace Boa

/-- The value of a hexadecimal digit. -/
def hexValue (b : UInt8) : Option ℕ :=
  if 48 ≤ b.toNat ∧ b.toNat ≤ 57 then some (b.toNat - 48)
  else if 65 ≤ b.toNat ∧ b.toNat ≤ 70 then some (b.toNat - 55)
  else if 97 ≤ b.toNat ∧ b.toNat ≤ 102 then some (b.toNat - 87)
  else none

def IsHex (b : UInt8) : Prop := (hexValue b).isSome

instance (b : UInt8) : Decidable (IsHex b) := inferInstanceAs (Decidable (_ = true))

/-- The byte that two digits stand for. -/
def hexByte (a b : UInt8) : UInt8 := UInt8.ofNat (16 * (hexValue a).getD 0 + (hexValue b).getD 0)

/-- Every `%` is followed by two hexadecimal digits. -/
def Escaped (s : Bytes) : Prop :=
  ∀ pre t, s = pre ++ percent :: t → ∃ a b u, t = a :: b :: u ∧ IsHex a ∧ IsHex b

/-- The text without its escapes. -/
def percentDecode : Bytes → Bytes
  | [] => []
  | c :: s =>
    if c = percent then
      match s with
      | a :: b :: s => hexByte a b :: percentDecode s
      | _ => c :: s
    else c :: percentDecode s

variable {c a b : UInt8} {s t : Bytes}

@[simp] lemma not_isHex_percent : ¬ IsHex percent := by decide

lemma escaped_nil : Escaped [] := fun pre _ h => absurd h.symm (List.append_ne_nil_of_right_ne_nil pre (List.cons_ne_nil _ _))

lemma escaped_cons (hc : c ≠ percent) : Escaped (c :: s) ↔ Escaped s := by
  constructor
  · rintro h pre _ rfl
    exact h (c :: pre) _ rfl
  · rintro h pre t heq
    cases pre with
    | nil => exact absurd (List.cons.inj heq).1 hc
    | cons x pre =>
      obtain ⟨rfl, rfl⟩ := List.cons.inj heq
      exact h pre t rfl

lemma escaped_percent : Escaped (percent :: a :: b :: s) ↔ IsHex a ∧ IsHex b ∧ Escaped s := by
  constructor
  · intro h
    obtain ⟨x, y, u, heq, hx, hy⟩ := h [] (a :: b :: s) rfl
    simp only [List.cons.injEq] at heq
    obtain ⟨rfl, rfl, -⟩ := heq
    refine ⟨hx, hy, ?_⟩
    rintro pre t rfl
    exact h (percent :: a :: b :: pre) t rfl
  · rintro ⟨ha, hb, h⟩ pre t heq
    have hne : ∀ {x}, IsHex x → x ≠ percent := by
      rintro x hx rfl
      exact not_isHex_percent hx
    rcases pre with _ | ⟨x, _ | ⟨y, _ | ⟨z, pre⟩⟩⟩
    · exact ⟨a, b, s, (List.cons.inj heq).2.symm, ha, hb⟩
    · exact absurd (List.cons.inj (List.cons.inj heq).2).1 (hne ha)
    · exact absurd (List.cons.inj (List.cons.inj (List.cons.inj heq).2).2).1 (hne hb)
    · obtain ⟨-, heq⟩ := List.cons.inj heq
      obtain ⟨-, heq⟩ := List.cons.inj heq
      obtain ⟨-, heq⟩ := List.cons.inj heq
      exact h pre t heq

lemma not_escaped_short (hs : s.length < 2) : ¬ Escaped (percent :: s) := by
  intro h
  obtain ⟨a, b, u, rfl, -, -⟩ := h [] s rfl
  rw [List.length_cons, List.length_cons] at hs
  omega

/-- The same, digit by digit. -/
def checkEscapes : Bytes → Bool
  | [] => true
  | c :: s =>
    if c = percent then
      match s with
      | a :: b :: s => decide (IsHex a) && decide (IsHex b) && checkEscapes s
      | _ => false
    else checkEscapes s

lemma checkEscapes_cons (hc : c ≠ percent) (s : Bytes) : checkEscapes (c :: s) = checkEscapes s := by
  conv_lhs => unfold checkEscapes
  exact if_neg hc

lemma checkEscapes_iff (s : Bytes) : checkEscapes s = true ↔ Escaped s := by
  induction s using checkEscapes.induct with
  | case1 => exact iff_of_true rfl escaped_nil
  | case2 a b s ih =>
    rw [checkEscapes, if_pos rfl, escaped_percent, ← ih]
    simp [and_assoc]
  | case3 s hs =>
    have hshort : s.length < 2 := by
      rcases s with _ | ⟨a, _ | ⟨b, s⟩⟩
      · decide
      · simp
      · exact (hs a b s rfl).elim
    refine iff_of_false ?_ (not_escaped_short hshort)
    rcases s with _ | ⟨a, _ | ⟨b, s⟩⟩
    · decide
    · exact Bool.false_ne_true
    · exact (hs a b s rfl).elim
  | case4 c s hc ih => rw [checkEscapes_cons hc, escaped_cons hc, ih]

instance (s : Bytes) : Decidable (Escaped s) := decidable_of_iff _ (checkEscapes_iff s)

lemma percentDecode_cons (hc : c ≠ percent) (s : Bytes) : percentDecode (c :: s) = c :: percentDecode s := by
  conv_lhs => unfold percentDecode
  exact if_neg hc

lemma percentDecode_percent (a b : UInt8) (s : Bytes) :
    percentDecode (percent :: a :: b :: s) = hexByte a b :: percentDecode s := by
  rw [percentDecode, if_pos rfl]

/-- A text is kept apart from the escapes in front of it. -/
lemma percentDecode_append (hs : Escaped s) (t : Bytes) :
    percentDecode (s ++ t) = percentDecode s ++ percentDecode t := by
  induction s using checkEscapes.induct with
  | case1 => rfl
  | case2 a b s ih =>
    have ih := ih (escaped_percent.mp hs).2.2
    simp only [List.cons_append, percentDecode_percent, ih]
  | case3 s hs' =>
    obtain ⟨a, b, u, heq, -, -⟩ := hs [] s rfl
    exact (hs' a b u heq).elim
  | case4 c s hc ih =>
    have ih := ih ((escaped_cons hc).mp hs)
    simp only [List.cons_append, percentDecode_cons hc, ih]

section Encode

variable {digit : ℕ → UInt8} {keep : UInt8 → Bool}

/-- A text with escapes for the characters that are not to be kept. -/
def percentEncode (digit : ℕ → UInt8) (keep : UInt8 → Bool) (s : Bytes) : Bytes :=
  s.flatMap fun c => if keep c then [c] else [percent, digit (c.toNat / 16), digit (c.toNat % 16)]

lemma hexByte_digits (hdigit : ∀ n < 16, hexValue (digit n) = some n) (c : UInt8) :
    hexByte (digit (c.toNat / 16)) (digit (c.toNat % 16)) = c := by
  have hbyte := c.toNat_lt
  rw [hexByte, hdigit _ (by omega), hdigit _ (by omega)]
  have hval : 16 * (c.toNat / 16) + c.toNat % 16 = c.toNat := Nat.div_add_mod _ _
  simp only [Option.getD_some, hval, UInt8.ofNat_toNat]

/-- What is encoded is well formed. -/
lemma escaped_percentEncode (hdigit : ∀ n < 16, hexValue (digit n) = some n) (hkeep : ¬ keep percent)
    (s : Bytes) : Escaped (percentEncode digit keep s) := by
  induction s with
  | nil => exact escaped_nil
  | cons c s ih =>
    have hbyte := c.toNat_lt
    rw [percentEncode, List.flatMap_cons]
    split_ifs with hc
    · have hne : c ≠ percent := fun h => hkeep (h ▸ hc)
      exact (escaped_cons hne).mpr ih
    · refine escaped_percent.mpr ⟨?_, ?_, ih⟩
      · rw [IsHex, hdigit _ (by omega)]
        rfl
      · rw [IsHex, hdigit _ (by omega)]
        rfl

/-- Decoding gives the text back. -/
lemma percentDecode_percentEncode (hdigit : ∀ n < 16, hexValue (digit n) = some n) (hkeep : ¬ keep percent)
    (s : Bytes) : percentDecode (percentEncode digit keep s) = s := by
  induction s with
  | nil => rfl
  | cons c s ih =>
    rw [percentEncode, List.flatMap_cons]
    split_ifs with hc
    · have hne : c ≠ percent := fun h => hkeep (h ▸ hc)
      show percentDecode (c :: percentEncode digit keep s) = c :: s
      rw [percentDecode_cons hne, ih]
    · show percentDecode (percent :: _ :: _ :: percentEncode digit keep s) = c :: s
      rw [percentDecode_percent, ih, hexByte_digits hdigit]

lemma mem_percentEncode (h : b ∈ percentEncode digit keep s) :
    (b ∈ s ∧ keep b = true) ∨ b = percent ∨ ∃ n < 16, b = digit n := by
  obtain ⟨c, hc, hb⟩ := List.mem_flatMap.mp h
  have hbyte := c.toNat_lt
  split_ifs at hb with hkeep
  · obtain rfl := List.mem_singleton.mp hb
    exact .inl ⟨hc, hkeep⟩
  · simp only [List.mem_cons, List.not_mem_nil, or_false] at hb
    obtain rfl | rfl | rfl := hb
    · exact .inr (.inl rfl)
    · exact .inr (.inr ⟨_, by omega, rfl⟩)
    · exact .inr (.inr ⟨_, by omega, rfl⟩)

lemma percentEncode_append (s t : Bytes) :
    percentEncode digit keep (s ++ t) = percentEncode digit keep s ++ percentEncode digit keep t :=
  List.flatMap_append

/-- Each escape takes two bytes more. -/
lemma length_percentEncode (s : Bytes) :
    (percentEncode digit keep s).length = s.length + 2 * s.countP (fun c => !keep c) := by
  induction s with
  | nil => rfl
  | cons c s ih =>
    rw [percentEncode, List.flatMap_cons, List.length_append, List.countP_cons, List.length_cons]
    have ih : (List.flatMap (fun c => if keep c then [c]
      else [percent, digit (c.toNat / 16), digit (c.toNat % 16)]) s).length = _ := ih
    rw [ih]
    by_cases hc : keep c = true <;> simp [hc] <;> omega

end Encode

end Boa
