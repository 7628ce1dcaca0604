import Boa.Delivery
import Boa.PercentCode

/-! What `unescape_uri` makes of a URI: the path without its escapes, and what it accepts besides. -/
namespace Boa
open Memory

/-- A URI up to its query string or fragment. -/
def pathPart (uri : Bytes) : Bytes := uri.takeWhile fun b => b ≠ question ∧ b ≠ hash

/-- Neither a `%` nor a character that ends the path. -/
def IsPlain (c : UInt8) : Prop := c ≠ percent ∧ c ≠ question ∧ c ≠ hash

instance (c : UInt8) : Decidable (IsPlain c) := inferInstanceAs (Decidable (_ ∧ _))

section Loop

variable {c a b : UInt8} {s uri : Bytes}

lemma hexDigit_eq (a : UInt8) (ha : IsHex a) : hexDigit a = UInt8.ofNat ((hexValue a).getD 0) := by
  have hall : ∀ n < 256, IsHex (UInt8.ofNat n) →
      hexDigit (UInt8.ofNat n) = UInt8.ofNat ((hexValue (UInt8.ofNat n)).getD 0) := by decide +kernel
  have h := hall a.toNat a.toNat_lt
  rw [UInt8.ofNat_toNat] at h
  exact h ha

/-- The macro computes the byte that two hexadecimal digits stand for. -/
lemma hexToDecimal_eq (ha : IsHex a) (hb : IsHex b) : hexToDecimal a b = hexByte a b := by
  rw [hexToDecimal, hexByte, hexDigit_eq a ha, hexDigit_eq b hb, Nat.mul_comm, UInt8.ofNat_add,
    UInt8.ofNat_mul]
  rfl

lemma unescapeLoop_plain (hc : IsPlain c) (s : Bytes) :
    unescapeLoop (c :: s) = (c :: (unescapeLoop s).1, (unescapeLoop s).2) := by
  conv_lhs => unfold unescapeLoop
  rw [if_neg hc.1, if_neg hc.2.1, if_neg hc.2.2]

lemma unescapeLoop_percent (a b : UInt8) (s : Bytes) :
    unescapeLoop (percent :: a :: b :: s) = (hexToDecimal a b :: (unescapeLoop s).1, (unescapeLoop s).2) := by
  conv_lhs => unfold unescapeLoop
  rw [if_pos rfl]

lemma unescapeLoop_short (hs : s.length < 2) : unescapeLoop (percent :: s) = ([], none, false) := by
  rcases s with _ | ⟨a, _ | ⟨b, s⟩⟩
  · rfl
  · rfl
  · simp only [List.length_cons] at hs
    omega

lemma unescapeLoop_question (s : Bytes) : unescapeLoop (question :: s) = ([], some s, true) := by
  unfold unescapeLoop
  rw [if_neg (by decide), if_pos rfl]

lemma unescapeLoop_hash (s : Bytes) : unescapeLoop (hash :: s) = ([], queryAfter s, true) := by
  unfold unescapeLoop
  rw [if_neg (by decide), if_neg (by decide), if_pos rfl]

lemma pathPart_plain (hc : IsPlain c) (s : Bytes) : pathPart (c :: s) = c :: pathPart s :=
  List.takeWhile_cons_of_pos (by simpa using hc.2)

lemma pathPart_percent (s : Bytes) : pathPart (percent :: s) = percent :: pathPart s :=
  List.takeWhile_cons_of_pos (by decide)

lemma pathPart_end (hc : c = question ∨ c = hash) (s : Bytes) : pathPart (c :: s) = [] :=
  List.takeWhile_cons_of_neg (by obtain rfl | rfl := hc <;> decide)

lemma isHex_plain : ∀ {a}, IsHex a → IsPlain a := by
  intro a ha
  refine ⟨?_, ?_, ?_⟩ <;> rintro rfl <;> exact absurd ha (by decide)

lemma queryAfter_cons (hc : c ≠ question) (s : Bytes) : queryAfter (c :: s) = queryAfter s := by
  unfold queryAfter
  rw [List.dropWhile_cons_of_pos (by simpa using hc)]

/-- The two digits behind a `%` are part of the path. -/
lemma escaped_pathPart_percent (h : Escaped (pathPart (percent :: s))) :
    ∃ a b u, s = a :: b :: u ∧ IsHex a ∧ IsHex b ∧ Escaped (pathPart u) := by
  rw [pathPart_percent] at h
  obtain ⟨a, b, v, heq, ha, hb⟩ := h [] (pathPart s) rfl
  obtain ⟨t, rfl⟩ : a :: b :: v <+: s := heq ▸ List.takeWhile_prefix _
  refine ⟨a, b, v ++ t, rfl, ha, hb, ?_⟩
  rw [List.cons_append, List.cons_append, pathPart_plain (isHex_plain ha), pathPart_plain (isHex_plain hb),
    escaped_percent] at h
  exact h.2.2

/-- `unescape_uri` decodes a path with well-formed escapes, and finds the first `?`. -/
lemma unescapeLoop_eq (h : Escaped (pathPart uri)) :
    unescapeLoop uri = (percentDecode (pathPart uri), queryAfter uri, true) := by
  induction uri using unescapeLoop.induct with
  | case1 => rfl
  | case2 a b s ih =>
    obtain ⟨x, y, u, heq, ha, hb, hu⟩ := escaped_pathPart_percent h
    simp only [List.cons.injEq] at heq
    obtain ⟨rfl, rfl, rfl⟩ := heq
    have hpa := isHex_plain ha
    have hpb := isHex_plain hb
    rw [unescapeLoop_percent, ih hu, hexToDecimal_eq ha hb, pathPart_percent, pathPart_plain hpa,
      pathPart_plain hpb, percentDecode_percent, queryAfter_cons (by decide), queryAfter_cons hpa.2.1,
      queryAfter_cons hpb.2.1]
  | case3 s hs =>
    obtain ⟨a, b, u, heq, -, -, -⟩ := escaped_pathPart_percent h
    exact (hs a b u heq).elim
  | case4 s hp =>
    rw [unescapeLoop_question, pathPart_end (.inl rfl)]
    rfl
  | case5 s hp hq =>
    rw [unescapeLoop_hash, pathPart_end (.inr rfl), queryAfter_cons (by decide)]
    rfl
  | case6 c s hp hq hh ih =>
    have hc : IsPlain c := ⟨hp, hq, hh⟩
    rw [pathPart_plain hc, escaped_cons hp] at h
    rw [unescapeLoop_plain hc, ih h, pathPart_plain hc, percentDecode_cons hp, queryAfter_cons hq]

/-- A text that the loop reads to its end: characters and pairs behind a `%`. -/
inductive ReadThrough : Bytes → Prop
  | nil : ReadThrough []
  | char {c : UInt8} {s : Bytes} (hc : IsPlain c) (hs : ReadThrough s) : ReadThrough (c :: s)
  | pair (a b : UInt8) {s : Bytes} (hs : ReadThrough s) : ReadThrough (percent :: a :: b :: s)

/-- The URI ends in the middle of an escape. -/
def EndsInEscape (uri : Bytes) : Prop :=
  ∃ pre tail, uri = pre ++ percent :: tail ∧ ReadThrough pre ∧ tail.length < 2

lemma ReadThrough.endsInEscape (hs : ReadThrough s) (ht : uri.length < 2) : EndsInEscape (s ++ percent :: uri) :=
  ⟨s, uri, rfl, hs, ht⟩

/-- Only such a URI is refused. -/
lemma unescapeLoop_refuses_iff (uri : Bytes) : (unescapeLoop uri).2.2 = false ↔ EndsInEscape uri := by
  constructor
  · intro h
    induction uri using unescapeLoop.induct with
    | case1 => cases h
    | case2 a b s ih =>
      rw [unescapeLoop_percent] at h
      obtain ⟨pre, tail, rfl, hpre, htail⟩ := ih h
      exact ⟨percent :: a :: b :: pre, tail, rfl, .pair a b hpre, htail⟩
    | case3 s hs =>
      refine ⟨[], s, rfl, .nil, ?_⟩
      rcases s with _ | ⟨a, _ | ⟨b, s⟩⟩
      · decide
      · exact Nat.one_lt_two
      · exact (hs a b s rfl).elim
    | case4 s hp =>
      rw [unescapeLoop_question] at h
      cases h
    | case5 s hp hq =>
      rw [unescapeLoop_hash] at h
      cases h
    | case6 c s hp hq hh ih =>
      have hc : IsPlain c := ⟨hp, hq, hh⟩
      rw [unescapeLoop_plain hc] at h
      obtain ⟨pre, tail, rfl, hpre, htail⟩ := ih h
      exact ⟨c :: pre, tail, rfl, .char hc hpre, htail⟩
  · rintro ⟨pre, tail, rfl, hpre, htail⟩
    induction hpre with
    | nil => rw [List.nil_append, unescapeLoop_short htail]
    | char hc _ ih => rw [List.cons_append, unescapeLoop_plain hc, ih]
    | pair a b _ ih => rw [List.cons_append, List.cons_append, List.cons_append, unescapeLoop_percent, ih]

end Loop

/-- A control character. -/
def IsControl (b : UInt8) : Prop := b.toNat < 32 ∨ b.toNat = 127

instance (b : UInt8) : Decidable (IsControl b) := inferInstanceAs (Decidable (_ ∨ _))

/-- The path has well-formed escapes, and no control characters when it is decoded. -/
structure CleanPath (uri : Bytes) : Prop where
  escaped : Escaped (pathPart uri)
  clean : ∀ b ∈ percentDecode (pathPart uri), ¬ IsControl b

lemma cleanPath_iff (uri : Bytes) : CleanPath uri ↔
    Escaped (pathPart uri) ∧ ∀ b ∈ percentDecode (pathPart uri), ¬ IsControl b :=
  ⟨fun h => ⟨h.escaped, h.clean⟩, fun h => ⟨h.1, h.2⟩⟩

instance (uri : Bytes) : Decidable (CleanPath uri) := decidable_of_iff _ (cleanPath_iff uri).symm

/-- A path that is not clean is refused, and the answer is 400. -/
structure Request.RefusesEscapes (env : Env) (c : Request) : Prop where
  legal : (unescapeUri c.requestUri).2.2 = true → CleanPath c.requestUri
  answer : ¬ CleanPath c.requestUri →
    (c.processHeaderEnd env).1.responseStatus = 400 ∧ (c.processHeaderEnd env).2 = .done

/-- What `unescape_uri` refuses is answered with 400. -/
lemma Request.processHeaderEnd_refuses (env : Env) {c : Request} (hl : c.logline = true)
    (h : (unescapeUri c.requestUri).2.2 = false) :
    (c.processHeaderEnd env).1.responseStatus = 400 ∧ (c.processHeaderEnd env).2 = .done := by
  have hanswer : ∀ d : Request, (d.sendRBadRequest env).responseStatus = 400 := by
    intro d
    unfold sendRBadRequest sendR
    dsimp only
    split_ifs <;> rfl
  have hlog : (c.log .headerEnd).logline = true := hl
  have hno : (unescapeUri (c.log .headerEnd).requestUri).2.2 = false := h
  unfold processHeaderEnd acceptUri
  simp only [hlog, hno, Bool.not_true, Bool.false_eq_true, if_false, Bool.not_false, if_true]
  exact ⟨hanswer _, trivial⟩

/-- Paths that are not clean are refused exactly if they end in the middle of an escape. -/
theorem Request.refusesEscapes_iff (env : Env) {c : Request} (hl : c.logline = true) :
    c.RefusesEscapes env ↔ CleanPath c.requestUri ∨ EndsInEscape c.requestUri := by
  have hlegal : (unescapeUri c.requestUri).2.2 = false ↔ EndsInEscape c.requestUri :=
    unescapeLoop_refuses_iff c.requestUri
  constructor
  · intro h
    by_cases hend : EndsInEscape c.requestUri
    · exact .inr hend
    · rw [← hlegal, Bool.not_eq_false] at hend
      exact .inl (h.legal hend)
  · rintro (hclean | hend)
    · exact ⟨fun _ => hclean, fun hno => absurd hclean hno⟩
    · have hno := hlegal.mpr hend
      exact ⟨fun h => absurd (h.symm.trans hno) (by decide), fun _ => processHeaderEnd_refuses env hl hno⟩

/-- A request for `/%zz`. -/
def badEscape (uri : String) : Request := { logline := true, requestUri := text uri }

theorem Request.refusesEscapes_iff_cut : (badEscape "/%2").RefusesEscapes tinyEnv ↔
    CleanPath (text "/%2") ∨ EndsInEscape (text "/%2") :=
  refusesEscapes_iff tinyEnv rfl

/-- `/%0a` is decoded to a line feed, and `/%zz` to some byte. -/
theorem bad_escapes_pass : ¬ (badEscape "/%0a").RefusesEscapes tinyEnv ∧
    ¬ (badEscape "/%zz").RefusesEscapes tinyEnv ∧
    unescapeUri (text "/%0a") = ([slash, lf], none, true) := by
  refine ⟨fun h => ?_, fun h => ?_, by decide +kernel⟩
  · exact absurd (h.legal (by decide +kernel)) (by decide +kernel)
  · exact absurd (h.legal (by decide +kernel)) (by decide +kernel)

end Boa
