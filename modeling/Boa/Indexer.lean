import Boa.Links

/-! The program boa_indexer (index_dir.c): its two escapers, and the strings that
`index_directory` keeps in its arrays. -/
namespace Boa
open Memory

/-- `INT_TO_HEX` as index_dir.c has it, with upper-case letters. -/
def Indexer.intToHex (x : ℕ) : UInt8 := if 10 ≤ x then UInt8.ofNat (65 + (x - 10)) else UInt8.ofNat (48 + x)

/-- The loop of `http_escape_string`. `found` says that `./` is in front of the text; it goes
there at the first colon behind the start. -/
def httpEscapeLoop : Bool → Bytes → Bytes → Bytes
  | _, out, [] => out
  | found, out, c :: s =>
    if c = colon ∧ found = false ∧ out ≠ [] then httpEscapeLoop true (dot :: slash :: out ++ [colon]) s
    else if needsEscape c ∨ c = question then
      httpEscapeLoop found (out ++ [percent, Indexer.intToHex (c.toNat / 16), Indexer.intToHex (c.toNat % 16)]) s
    else httpEscapeLoop found (out ++ [c]) s

/-- `http_escape_string`. -/
def httpEscapeString (inp : Bytes) : Bytes := httpEscapeLoop false [] inp

/-- The `switch` of `html_escape_string`. -/
def htmlEscapeChar (c : UInt8) : Bytes :=
  if c = 62 then text "&gt;"
  else if c = 60 then text "&lt;"
  else if c = 38 then text "&amp;"
  else if c = 34 then text "&quot;"
  else [c]

/-- `html_escape_string`. -/
def htmlEscapeString (inp : Bytes) : Bytes := inp.flatMap htmlEscapeChar

/-- A colon behind the first character. -/
def InnerColon (name : Bytes) : Prop := colon ∈ name.drop 1

instance (name : Bytes) : Decidable (InnerColon name) := inferInstanceAs (Decidable (_ ∈ _))

/-! ### Links -/

lemma hexValue_upper : ∀ n < 16, hexValue (Indexer.intToHex n) = some n := by decide

/-- What `http_escape_string` leaves as it is. -/
def httpKeeps (c : UInt8) : Bool := !(needsEscape c || c == question)

lemma isPlain_of_httpKeeps {c : UInt8} (h : httpKeeps c = true) : IsPlain c := by
  unfold httpKeeps at h
  simp only [Bool.not_eq_true', Bool.or_eq_false_iff, beq_eq_false_iff_ne] at h
  exact isPlain_of_not_needsEscape h.1 h.2

/-- A character that is no colon to take note of. -/
lemma httpEscapeLoop_char {found : Bool} {out : Bytes} {c : UInt8}
    (h : ¬ (c = colon ∧ found = false ∧ out ≠ [])) (s : Bytes) : httpEscapeLoop found out (c :: s) =
      httpEscapeLoop found (out ++ percentEncode Indexer.intToHex httpKeeps [c]) s := by
  have hkeep : httpKeeps c = true ↔ ¬ (needsEscape c = true ∨ c = question) := by simp [httpKeeps]
  have hone : percentEncode Indexer.intToHex httpKeeps [c] = if httpKeeps c then [c]
    else [percent, Indexer.intToHex (c.toNat / 16), Indexer.intToHex (c.toNat % 16)] := List.append_nil _
  rw [httpEscapeLoop, if_neg h, hone]
  by_cases hc : needsEscape c = true ∨ c = question
  · rw [if_pos hc, if_neg fun hk => hkeep.mp hk hc]
  · rw [if_neg hc, if_pos (hkeep.mpr hc)]

lemma percentEncode_cons (c : UInt8) (s : Bytes) : percentEncode Indexer.intToHex httpKeeps (c :: s) =
    percentEncode Indexer.intToHex httpKeeps [c] ++ percentEncode Indexer.intToHex httpKeeps s :=
  percentEncode_append [c] s

lemma percentEncode_one (c : UInt8) : percentEncode Indexer.intToHex httpKeeps [c] =
    if httpKeeps c then [c] else [percent, Indexer.intToHex (c.toNat / 16), Indexer.intToHex (c.toNat % 16)] :=
  List.append_nil _

lemma percentEncode_one_ne (c : UInt8) : percentEncode Indexer.intToHex httpKeeps [c] ≠ [] := by
  rw [percentEncode_one]
  split_ifs <;> exact List.cons_ne_nil _ _

lemma httpKeeps_colon : httpKeeps colon = true := by
  rw [httpKeeps, needsEscape_marks.2.1]
  rfl

lemma httpKeeps_quote : httpKeeps 34 = false := by
  rw [httpKeeps, needsEscape_marks.2.2]
  rfl

lemma dotSlash : text "./" = [dot, slash] ∧
    percentEncode Indexer.intToHex httpKeeps (text "./") = [dot, slash] := by
  decide +kernel

/-- Once `./` is there, or without another colon, the rest is encoded behind the text. -/
lemma httpEscapeLoop_rest {found : Bool} {s : Bytes} (out : Bytes) (h : found = true ∨ colon ∉ s) :
    httpEscapeLoop found out s = out ++ percentEncode Indexer.intToHex httpKeeps s := by
  induction s generalizing out with
  | nil => exact (List.append_nil out).symm
  | cons c s ih =>
    have hno : ¬ (c = colon ∧ found = false ∧ out ≠ []) := by
      rintro ⟨rfl, hf, -⟩
      obtain ht | hm := h
      · rw [hf] at ht
        cases ht
      · exact hm List.mem_cons_self
    rw [httpEscapeLoop_char hno, ih _ (h.imp_right fun hm hs => hm (List.mem_cons_of_mem _ hs)),
      percentEncode_cons c s, List.append_assoc]

/-- The first colon behind the start puts `./` in front. -/
lemma httpEscapeLoop_colon {out s : Bytes} (t : Bytes) (hs : colon ∉ s) (hne : out ≠ []) :
    httpEscapeLoop false out (s ++ colon :: t) =
      dot :: slash :: (out ++ percentEncode Indexer.intToHex httpKeeps (s ++ colon :: t)) := by
  induction s generalizing out with
  | nil =>
    have hcolon : percentEncode Indexer.intToHex httpKeeps [colon] = [colon] := by
      rw [percentEncode_one, if_pos httpKeeps_colon]
    rw [List.nil_append, httpEscapeLoop, if_pos ⟨rfl, rfl, hne⟩, httpEscapeLoop_rest _ (.inl rfl),
      percentEncode_cons, hcolon]
    simp
  | cons c s ih =>
    have hc : c ≠ colon := fun h => hs (h ▸ List.mem_cons_self)
    have hne' : out ++ percentEncode Indexer.intToHex httpKeeps [c] ≠ [] := List.append_ne_nil_of_left_ne_nil hne _
    rw [List.cons_append, httpEscapeLoop_char fun h => hc h.1,
      ih (fun hm => hs (List.mem_cons_of_mem _ hm)) hne', percentEncode_cons c (s ++ colon :: t),
      List.append_assoc]

/-- The text that `http_escape_string` writes. -/
lemma httpEscapeString_eq (name : Bytes) : httpEscapeString name =
    percentEncode Indexer.intToHex httpKeeps (if InnerColon name then text "./" ++ name else name) := by
  cases name with
  | nil => rfl
  | cons c s =>
    have hfirst : httpEscapeString (c :: s) =
        httpEscapeLoop false (percentEncode Indexer.intToHex httpKeeps [c]) s :=
      httpEscapeLoop_char (fun h => h.2.2 rfl) s
    rw [hfirst]
    split_ifs with hin
    · have hin : colon ∈ s := hin
      obtain ⟨a, b, rfl, ha⟩ := List.eq_append_cons_of_mem hin
      rw [httpEscapeLoop_colon b ha (percentEncode_one_ne c), percentEncode_append (text "./"), dotSlash.2,
        percentEncode_cons c (a ++ colon :: b)]
      rfl
    · have hin : colon ∉ s := hin
      rw [httpEscapeLoop_rest _ (.inr hin), percentEncode_cons c s]

/-- A colon makes up for the two bytes that come in front. -/
lemma length_httpEscapeString_le (name : Bytes) : (httpEscapeString name).length ≤ 3 * name.length := by
  have hle := List.countP_le_length (p := fun c => !httpKeeps c) (l := name)
  rw [httpEscapeString_eq]
  split_ifs with hin
  · have hlt : name.countP (fun c => !httpKeeps c) < name.length := by
      apply lt_of_le_of_ne hle
      intro heq
      have hall := List.countP_eq_length.mp heq colon (List.mem_of_mem_drop hin)
      rw [httpKeeps_colon] at hall
      cases hall
    rw [percentEncode_append, dotSlash.2, List.length_append, length_percentEncode]
    simp only [List.length_cons, List.length_nil]
    omega
  · rw [length_percentEncode]
    omega

/-- The link leads back to the file, by its name or by `./` and its name, and is at most three times as
long as the name. -/
theorem httpEscapeString_leadsBack {name : Bytes} (h : IsEntryName name) :
    unescapeUri (httpEscapeString name) = (if InnerColon name then text "./" ++ name else name, none, true) ∧
      (httpEscapeString name).length ≤ 3 * name.length := by
  have hkeep : ∀ c, httpKeeps c = true → IsPlain c := fun _ => isPlain_of_httpKeeps
  refine ⟨?_, length_httpEscapeString_le name⟩
  rw [httpEscapeString_eq]
  apply unescapeUri_percentEncode hexValue_upper fun c _ => hkeep c
  have hdot : 0 ∉ text "./" := by
    rw [dotSlash.1]
    decide
  split_ifs
  · simp only [List.mem_append, not_or]
    exact ⟨hdot, h.noNul⟩
  · exact h.noNul

lemma isEntryName_colon : IsEntryName (text "a:b?") :=
  ⟨by decide +kernel, by decide +kernel, by decide +kernel⟩

theorem httpEscapeString_leadsBack_colon :
    unescapeUri (httpEscapeString (text "a:b?")) =
        (if InnerColon (text "a:b?") then text "./" ++ text "a:b?" else text "a:b?", none, true) ∧
      (httpEscapeString (text "a:b?")).length ≤ 3 * (text "a:b?").length :=
  httpEscapeString_leadsBack isEntryName_colon

/-! ### Arrays -/

/-- `MAXNAMLEN`, the longest name of a directory entry. -/
def maxNameLen : ℕ := 255

/-- The arrays of `index_directory`. -/
inductive IndexArray
  | httpFilename | htmlFilename | escapedFilename
  deriving DecidableEq

/-- Their sizes, in multiples of `MAX_FILE_LENGTH`. -/
def IndexArray.size : IndexArray → ℕ
  | .httpFilename => maxNameLen * 3
  | .htmlFilename => maxNameLen * 6
  | .escapedFilename => maxNameLen * 18

/-- A directory entry, and what `stat` says about it: nothing, or whether it is a directory. -/
structure IndexEntry where
  name : Bytes
  isDir : Option Bool

/-- `select_files`. -/
def IndexEntry.selected (e : IndexEntry) : Bool := e.name.head? != some dot

/-- The link of an entry: without the extension if that is `.gz`. -/
def linkText (gunzip : Bool) (e : IndexEntry) : Bytes :=
  let http := httpEscapeString e.name
  if gunzip ∧ e.isDir = some false ∧ 3 < http.length ∧ http.drop (http.length - 3) = text ".gz"
  then http.take (http.length - 3) else http

/-- The strings that are stored for an entry. -/
def entryStrings (gunzip : Bool) (e : IndexEntry) : List (IndexArray × Bytes) :=
  [(.htmlFilename, htmlEscapeString e.name), (.httpFilename, httpEscapeString e.name),
    (.escapedFilename, htmlEscapeString (linkText gunzip e))]

/-- The strings that `index_directory` stores: the title, those of the directories and those of the files. -/
def indexStrings (gunzip : Bool) (title : Bytes) (entries : List IndexEntry) : List (IndexArray × Bytes) :=
  let array := entries.filter IndexEntry.selected
  (.htmlFilename, htmlEscapeString title) ::
    ((array.filter fun e => e.isDir = some true).flatMap (entryStrings gunzip) ++
      (array.filter fun e => e.isDir = some false).flatMap (entryStrings gunzip))

/-- A string and its NUL fit the array. -/
def StringFits (w : IndexArray × Bytes) : Prop := w.2.length + 1 ≤ w.1.size

instance (w : IndexArray × Bytes) : Decidable (StringFits w) := inferInstanceAs (Decidable (_ ≤ _))

/-- The room a title takes, entities included, is less than what `html_filename` has. -/
def TitleFits (title : Bytes) : Prop :=
  title.length + 3 * title.count 62 + 3 * title.count 60 + 4 * title.count 38 + 5 * title.count 34 <
    maxNameLen * 6

/-- The room a name takes, escapes and `./` included, is less than what `http_filename` has. -/
def NameFits (name : Bytes) : Prop :=
  name.length + 2 * name.countP (fun c => !httpKeeps c) + (if InnerColon name then 2 else 0) < maxNameLen * 3

instance (title : Bytes) : Decidable (TitleFits title) := inferInstanceAs (Decidable (_ < _))
instance (name : Bytes) : Decidable (NameFits name) := inferInstanceAs (Decidable (_ < _))

/-- An entry that is listed. -/
def IndexEntry.Listed (e : IndexEntry) : Prop := e.selected = true ∧ e.isDir ≠ none

instance (e : IndexEntry) : Decidable e.Listed := inferInstanceAs (Decidable (_ ∧ _))

lemma length_htmlEscapeChar (c : UInt8) : (htmlEscapeChar c).length =
    1 + (if c = 62 then 3 else 0) + (if c = 60 then 3 else 0) + (if c = 38 then 4 else 0) +
      (if c = 34 then 5 else 0) := by
  have hgt : (text "&gt;").length = 4 := by decide +kernel
  have hlt : (text "&lt;").length = 4 := by decide +kernel
  have hamp : (text "&amp;").length = 5 := by decide +kernel
  have hquot : (text "&quot;").length = 6 := by decide +kernel
  unfold htmlEscapeChar
  by_cases h62 : c = 62
  · subst h62
    simp [hgt]
  by_cases h60 : c = 60
  · subst h60
    simp [hlt]
  by_cases h38 : c = 38
  · subst h38
    simp [hamp]
  by_cases h34 : c = 34
  · subst h34
    simp [hquot]
  simp [h62, h60, h38, h34]

lemma length_htmlEscapeString (s : Bytes) : (htmlEscapeString s).length =
    s.length + 3 * s.count 62 + 3 * s.count 60 + 4 * s.count 38 + 5 * s.count 34 := by
  induction s with
  | nil => rfl
  | cons c s ih =>
    have hcons : htmlEscapeString (c :: s) = htmlEscapeChar c ++ htmlEscapeString s := rfl
    simp only [hcons, List.length_append, ih, length_htmlEscapeChar, List.length_cons, List.count_cons,
      beq_iff_eq]
    split_ifs <;> omega

lemma length_httpEscapeString (name : Bytes) : (httpEscapeString name).length =
    name.length + 2 * name.countP (fun c => !httpKeeps c) + (if InnerColon name then 2 else 0) := by
  rw [httpEscapeString_eq]
  split_ifs
  · rw [percentEncode_append, dotSlash.2, List.length_append, length_percentEncode]
    simp only [List.length_cons, List.length_nil]
    omega
  · exact length_percentEncode name

lemma length_htmlEscapeChar_le (c : UInt8) : (htmlEscapeChar c).length ≤ 5 + (if c = 34 then 1 else 0) := by
  have hone : (if c = 62 then 3 else 0) + (if c = 60 then 3 else 0) + (if c = 38 then 4 else 0) ≤ 4 := by
    by_cases h62 : c = 62
    · subst h62
      decide
    by_cases h60 : c = 60
    · subst h60
      decide
    simp only [h62, h60, if_false]
    split_ifs <;> omega
  rw [length_htmlEscapeChar]
  by_cases h34 : c = 34
  · subst h34
    decide
  · simp only [h34, if_false]
    omega

/-- Every character takes five bytes at most, and a quotation mark six. -/
lemma length_htmlEscapeString_le (s : Bytes) : (htmlEscapeString s).length ≤ 5 * s.length + s.count 34 := by
  induction s with
  | nil => exact le_rfl
  | cons c s ih =>
    have hcons : htmlEscapeString (c :: s) = htmlEscapeChar c ++ htmlEscapeString s := rfl
    have hchar := length_htmlEscapeChar_le c
    simp only [hcons, List.length_append, List.length_cons, List.count_cons, beq_iff_eq]
    omega

/-- A name that fits as a link fits as text. -/
lemma length_html_of_nameFits {name : Bytes} (hlen : name.length ≤ maxNameLen) (h : NameFits name) :
    (htmlEscapeString name).length < maxNameLen * 6 := by
  have hle := length_htmlEscapeString_le name
  have hquotes : name.count 34 ≤ name.countP (fun c => !httpKeeps c) := by
    apply List.countP_mono_left
    intro c _ hc
    rw [beq_iff_eq.mp hc, httpKeeps_quote]
    rfl
  unfold NameFits at h
  omega

/-- A link has no quotation marks, so its entities take five bytes at most. -/
lemma length_linkText_le (gunzip : Bool) (e : IndexEntry) :
    (htmlEscapeString (linkText gunzip e)).length ≤ 15 * e.name.length := by
  have hpre : linkText gunzip e <+: httpEscapeString e.name := by
    unfold linkText
    dsimp only
    split_ifs
    · exact List.take_prefix _ _
    · exact List.prefix_refl _
  have hno : 34 ∉ linkText gunzip e := by
    intro hm
    have hm := hpre.subset hm
    rw [httpEscapeString_eq] at hm
    obtain ⟨-, hkeep⟩ | h | ⟨n, hn, h⟩ := mem_percentEncode hm
    · exact absurd (httpKeeps_quote.symm.trans hkeep) Bool.false_ne_true
    · exact absurd h (by decide)
    · have hall : ∀ n < 16, (34 : UInt8) ≠ Indexer.intToHex n := by decide
      exact hall n hn h
  have h34 := List.count_eq_zero_of_not_mem hno
  have h5 := length_htmlEscapeString_le (linkText gunzip e)
  have h3 := length_httpEscapeString_le e.name
  have hlen := hpre.length_le
  omega

lemma mem_indexStrings {gunzip : Bool} {title : Bytes} {entries : List IndexEntry} (w : IndexArray × Bytes) :
    w ∈ indexStrings gunzip title entries ↔ w = (.htmlFilename, htmlEscapeString title) ∨
      ∃ e ∈ entries, e.Listed ∧ w ∈ entryStrings gunzip e := by
  simp only [indexStrings, List.mem_cons, List.mem_append, List.mem_flatMap, List.mem_filter,
    decide_eq_true_eq, IndexEntry.Listed]
  refine or_congr_right ⟨?_, ?_⟩
  · rintro (⟨e, ⟨⟨he, hs⟩, hd⟩, hw⟩ | ⟨e, ⟨⟨he, hs⟩, hd⟩, hw⟩)
    · exact ⟨e, he, ⟨hs, by rw [hd]; exact Option.some_ne_none _⟩, hw⟩
    · exact ⟨e, he, ⟨hs, by rw [hd]; exact Option.some_ne_none _⟩, hw⟩
  · rintro ⟨e, he, ⟨hs, hd⟩, hw⟩
    rcases hdir : e.isDir with _ | _ | _
    · exact absurd hdir hd
    · exact .inr ⟨e, ⟨⟨he, hs⟩, hdir⟩, hw⟩
    · exact .inl ⟨e, ⟨⟨he, hs⟩, hdir⟩, hw⟩

lemma titleFits_iff (title : Bytes) :
    StringFits (.htmlFilename, htmlEscapeString title) ↔ TitleFits title := by
  unfold StringFits TitleFits
  rw [length_htmlEscapeString]
  exact Iff.rfl

lemma nameFits_iff (name : Bytes) : StringFits (.httpFilename, httpEscapeString name) ↔ NameFits name := by
  unfold StringFits NameFits
  rw [length_httpEscapeString]
  exact Iff.rfl

/-- Everything fits exactly if the title does, and each listed name as a link. -/
theorem indexStrings_fit_iff (gunzip : Bool) (title : Bytes) {entries : List IndexEntry}
    (h : ∀ e ∈ entries, e.name.length ≤ maxNameLen) :
    (∀ w ∈ indexStrings gunzip title entries, StringFits w) ↔
      TitleFits title ∧ ∀ e ∈ entries, e.Listed → NameFits e.name := by
  constructor
  · intro hall
    refine ⟨(titleFits_iff title).mp (hall _ ((mem_indexStrings _).mpr (.inl rfl))), fun e he hl => ?_⟩
    exact (nameFits_iff _).mp (hall _ ((mem_indexStrings _).mpr (.inr ⟨e, he, hl, by simp [entryStrings]⟩)))
  · rintro ⟨ht, hnames⟩ w hw
    obtain rfl | ⟨e, he, hl, hw⟩ := (mem_indexStrings w).mp hw
    · exact (titleFits_iff title).mpr ht
    · have hfit := hnames e he hl
      have hlen := h e he
      simp only [entryStrings, List.mem_cons, List.not_mem_nil, or_false] at hw
      obtain rfl | rfl | rfl := hw
      · exact length_html_of_nameFits hlen hfit
      · exact (nameFits_iff _).mpr hfit
      · have h15 := length_linkText_le gunzip e
        have hpos : 0 < maxNameLen := by decide
        show (htmlEscapeString (linkText gunzip e)).length + 1 ≤ maxNameLen * 18
        omega

/-- A directory with the file `a&b` and a title of one character. -/
theorem indexStrings_fit_iff_root :
    (∀ w ∈ indexStrings true (text "/") [⟨text "a&b", some false⟩], StringFits w) ↔
      TitleFits (text "/") ∧ ∀ e ∈ [(⟨text "a&b", some false⟩ : IndexEntry)], e.Listed → NameFits e.name :=
  indexStrings_fit_iff true (text "/") (by decide +kernel)

/-- A name of 255 blanks does not fit `http_filename`, nor does a title of 1530 letters fit
`html_filename`. -/
theorem long_strings_escape :
    ¬ (∀ w ∈ indexStrings true (text "/") [⟨List.replicate maxNameLen space, some false⟩], StringFits w) ∧
      ¬ (∀ w ∈ indexStrings true (List.replicate 1530 97) [], StringFits w) ∧ 1530 ≤ maxHeaderLength := by
  refine ⟨fun h => ?_, fun h => ?_, by decide⟩
  · have hlisted : (⟨List.replicate maxNameLen space, some false⟩ : IndexEntry).Listed := by decide
    have hin := h _ ((mem_indexStrings _).mpr (.inr ⟨_, List.mem_singleton_self _, hlisted,
      List.mem_cons_of_mem _ List.mem_cons_self⟩))
    exact absurd ((nameFits_iff _).mp hin) (by decide +kernel)
  · exact absurd ((titleFits_iff _).mp (h _ ((mem_indexStrings _).mpr (.inl rfl)))) (by decide +kernel)

end Boa
