import Boa.Unescape

/-! The links of the two directory listings: the one of get.c, and that of the program
boa_indexer (index_dir.c). -/
namespace Boa
open Memory

/-- The name of a directory entry. -/
structure IsEntryName (name : Bytes) : Prop where
  ne : name ≠ []
  noSlash : slash ∉ name
  noNul : 0 ∉ name

lemma hexValue_intToHex : ∀ n < 16, hexValue (intToHex n) = some n := by decide

lemma isPlain_intToHex : ∀ n < 16, IsPlain (intToHex n) := by decide

/-- The characters that are left as they are have no meaning in a path, but for `?`. -/
lemma isPlain_of_not_needsEscape {c : UInt8} (h : needsEscape c = false) (hq : c ≠ question) : IsPlain c := by
  have hall : ∀ c ∈ unescaped, c ≠ question → IsPlain c := by decide +kernel
  unfold needsEscape at h
  simp only [Bool.or_eq_false_iff, Bool.not_eq_false'] at h
  exact hall c (List.contains_iff_mem.mp h.2) hq

lemma needsEscape_marks : needsEscape question = false ∧ needsEscape colon = false ∧ needsEscape 34 = true := by
  decide +kernel

section Encoded

variable {digit : ℕ → UInt8} {keep : UInt8 → Bool} {s t uri : Bytes} {c : UInt8}

/-- The loop reads an encoded text back, and goes on behind it. -/
lemma unescapeLoop_percentEncode (hdigit : ∀ n < 16, hexValue (digit n) = some n)
    (hkeep : ∀ c ∈ s, keep c = true → IsPlain c) (t : Bytes) :
    unescapeLoop (percentEncode digit keep s ++ t) = (s ++ (unescapeLoop t).1, (unescapeLoop t).2) := by
  induction s with
  | nil => rfl
  | cons c s ih =>
    have ih := ih fun d hd => hkeep d (List.mem_cons_of_mem _ hd)
    have hbyte := c.toNat_lt
    have hcons : percentEncode digit keep (c :: s) = (if keep c then [c]
      else [percent, digit (c.toNat / 16), digit (c.toNat % 16)]) ++ percentEncode digit keep s := rfl
    rw [hcons]
    split_ifs with hk
    · rw [List.append_assoc, List.singleton_append, unescapeLoop_plain (hkeep c List.mem_cons_self hk), ih]
      rfl
    · have hhex : ∀ n < 16, IsHex (digit n) := by
        intro n hn
        rw [IsHex, hdigit n hn]
        rfl
      have hdigits : hexToDecimal (digit (c.toNat / 16)) (digit (c.toNat % 16)) = c := by
        rw [hexToDecimal_eq (hhex _ (by omega)) (hhex _ (by omega)), hexByte_digits hdigit]
      rw [List.append_assoc, List.cons_append, List.cons_append, List.cons_append, List.nil_append,
        unescapeLoop_percent, ih, hdigits]
      rfl

/-- Without NULs `unescape_uri` gives back all of it. -/
lemma unescapeUri_percentEncode (hdigit : ∀ n < 16, hexValue (digit n) = some n)
    (hkeep : ∀ c ∈ s, keep c = true → IsPlain c) (hnul : 0 ∉ s) :
    unescapeUri (percentEncode digit keep s) = (s, none, true) := by
  have h := unescapeLoop_percentEncode hdigit hkeep []
  rw [List.append_nil] at h
  unfold unescapeUri
  rw [h]
  simp only [unescapeLoop, List.append_nil, cstr_of_not_mem hnul]

end Encoded

/-! ### The listing of the server -/

lemma escapeString_eq (name : Bytes) :
    escapeString name = percentEncode intToHex (fun c => !needsEscape c) name := by
  unfold escapeString percentEncode
  congr 1
  funext c
  cases h : needsEscape c <;> simp [h]

/-- The link in the listing leads back to the entry. -/
def LeadsBack (name : Bytes) : Prop := unescapeUri (escapeString name) = (name, none, true)

instance (name : Bytes) : Decidable (LeadsBack name) := inferInstanceAs (Decidable (_ = _))

/-- A link leads back to its entry exactly if the name has no `?`, which is not escaped. -/
theorem leadsBack_iff {name : Bytes} (h : IsEntryName name) : LeadsBack name ↔ question ∉ name := by
  unfold LeadsBack
  rw [escapeString_eq]
  constructor
  · intro heq hq
    obtain ⟨a, b, rfl, ha⟩ := List.eq_append_cons_of_mem hq
    have hkeep : ∀ c ∈ a, (!needsEscape c) = true → IsPlain c := by
      intro c hc hk
      exact isPlain_of_not_needsEscape (by simpa using hk) fun hcq => ha (hcq ▸ hc)
    have hcons : percentEncode intToHex (fun c => !needsEscape c) (question :: b) =
        question :: percentEncode intToHex (fun c => !needsEscape c) b := by
      rw [percentEncode, List.flatMap_cons, needsEscape_marks.1]
      rfl
    rw [percentEncode_append, hcons] at heq
    unfold unescapeUri at heq
    rw [unescapeLoop_percentEncode hexValue_intToHex hkeep, unescapeLoop_question] at heq
    exact Option.some_ne_none _ (congrArg (fun r => r.2.1) heq)
  · intro hq
    apply unescapeUri_percentEncode hexValue_intToHex _ h.noNul
    intro c hc hk
    exact isPlain_of_not_needsEscape (by simpa using hk) fun hcq => hq (hcq ▸ hc)

lemma isEntryName_dotfile : IsEntryName (text "a b%.txt") :=
  ⟨by decide +kernel, by decide +kernel, by decide +kernel⟩

theorem leadsBack_iff_blank : LeadsBack (text "a b%.txt") ↔ question ∉ text "a b%.txt" :=
  leadsBack_iff isEntryName_dotfile

/-- The file `what?` is listed with a link to `what`. -/
theorem question_misleads : IsEntryName (text "what?") ∧ ¬ LeadsBack (text "what?") ∧
    unescapeUri (escapeString (text "what?")) = (text "what", some [], true) :=
  ⟨⟨by decide +kernel, by decide +kernel, by decide +kernel⟩, by decide +kernel, by decide +kernel⟩

end Boa
