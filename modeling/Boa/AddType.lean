import Boa.Chains
import Boa.ConfigLine

/-! AddType from the configuration file to `get_mime_type`: the rest of a line is one key of the
hash table. -/
namespace Boa

/-- `fgets(buf, 1024, f)`: up to the end of the line, 1023 bytes at most. -/
def fgets (f : Bytes) : Bytes :=
  let line := f.take (lineBufferSize - 2)
  match line.findIdx? (· == lf) with
  | some i => line.take (i + 1)
  | none => line

/-- What the calls of `fgets` return, one for each byte at most. -/
def readLines : ℕ → Bytes → List Bytes
  | 0, _ => []
  | n + 1, f => if f = [] then [] else fgets f :: readLines n (f.drop (fgets f).length)

/-- The directive of a call, for the actions that need nothing but their strings. -/
def Call.directive : Call → Option Directive
  | .action p _ (some v1) v2 =>
    match p.action with
    | .addMimeType => some (.addMimeType v1 v2)
    | .setString v => some (.setString v v1)
    | .addCgiEnv => some (.addCgiEnv v1 v2)
    | _ => none
  | _ => none

/-- One round of `parse` with its action. -/
def parseRound (b : Boot) (root : Bool) (x : Server × Bytes) (line : Bytes) : Option (Server × Bytes) :=
  let r := parseLine line x.2
  if r.call = .skipped then some (x.1, r.buf)
  else (r.call.directive.bind fun d => d.apply b root x.1).map (·, r.buf)

/-- `parse`; `none` when the server exits. -/
def parseFile (b : Boot) (root : Bool) (s : Server) (buf f : Bytes) : Option Server :=
  ((readLines f.length f).foldlM (parseRound b root) (s, buf)).map (·.1)

/-- `hash_find`. -/
def hashFind (table : HashTable) (key : Bytes) (hash : ℕ) : Option (Bytes × Bytes) :=
  if key = [] then none else (table.getD hash []).find? (·.1 == key)

/-- `get_mime_type`, over the hash table. -/
def getMimeTypeIn (table : HashTable) (defaultType name : Bytes) : Bytes :=
  match extension name with
  | none | some [] => defaultType
  | some ext =>
    match hashFind table ext (getMimeHashValue ext) with
    | some e => e.2
    | none => defaultType

/-- A word of a line. -/
structure Word where
  val : Bytes
  ne : val ≠ []
  spaceless : ∀ b ∈ val, isspace b = false
  noNul : 0 ∉ val

/-- The white space between two words. -/
structure Gap where
  val : Bytes
  ne : val ≠ []
  space : ∀ b ∈ val, isspace b
  noLf : lf ∉ val

/-- The text `AddType type ext1 ... extn`, with the white space in it and before its line end. -/
structure TypeText where
  gap : Gap
  type : Word
  gap' : Gap
  ext : Word
  more : List (Gap × Word) := []
  tail : Bytes := []
  tail_space : ∀ b ∈ tail, isspace b := by decide
  tail_noLf : lf ∉ tail := by decide

namespace TypeText

/-- The extensions of the line. -/
def exts (t : TypeText) : List Bytes := t.ext.val :: t.more.map (·.2.val)

/-- The extensions as they stand in the line. -/
def extText (t : TypeText) : Bytes := t.ext.val ++ t.more.flatMap fun x => x.1.val ++ x.2.val

def body (t : TypeText) : Bytes :=
  text "AddType" ++ (t.gap.val ++ (t.type.val ++ (t.gap'.val ++ t.extText)))

def encode (t : TypeText) : Bytes := t.body ++ (t.tail ++ [lf])

end TypeText

/-- A line that one call of `fgets` reads. -/
structure TypeLine extends TypeText where
  short : toTypeText.encode.length ≤ lineBufferSize - 2

/-- The configuration file of such lines. -/
def typeFile (lines : List TypeLine) : Bytes := lines.flatMap fun l => l.encode

/-- What the manual says: the type of the first line that lists the extension. -/
def documentedType (lines : List TypeLine) (defaultType name : Bytes) : Bytes :=
  match extension name with
  | none | some [] => defaultType
  | some ext => ((lines.find? fun l => decide (ext ∈ l.exts)).map (·.type.val)).getD defaultType

/-- The first line with nothing but the extension behind its type gives the type of the first
line that lists it. -/
def ListedAlone (lines : List TypeLine) (defaultType name : Bytes) : Prop :=
  ∀ ext, extension name = some ext → ext ≠ [] →
    ((lines.find? fun l => l.extText == ext).map (·.type.val)).getD defaultType =
      ((lines.find? fun l => decide (ext ∈ l.exts)).map (·.type.val)).getD defaultType

/-! ### The hash table -/

/-- The entries that were added, in their order. -/
def Holding (table : HashTable) (entries : List (Bytes × Bytes)) : Prop :=
  table.length = mimeHashtableSize ∧
    Chains.Indexes (fun e : Bytes × Bytes => getMimeHashValue e.1) Prod.fst entries table

lemma holding_empty : Holding (List.replicate mimeHashtableSize []) [] :=
  ⟨List.length_replicate, Chains.indexes_empty _⟩

lemma getMimeHashValue_lt (ext : Bytes) : getMimeHashValue ext < mimeHashtableSize :=
  Nat.mod_lt _ (by decide)

/-- A key that is there stays, so that the first entry counts. -/
lemma Holding.add {table : HashTable} {entries : List (Bytes × Bytes)} {ext type : Bytes}
    (h : Holding table entries) (hext : ext ≠ []) (htype : type ≠ []) :
    ∃ table', addMimeType table ext type = some table' ∧ Holding table' (entries ++ [(ext, type)]) := by
  unfold addMimeType hashInsert
  rw [if_neg (by simp [hext, htype])]
  dsimp only
  split_ifs with hany
  · refine ⟨table, rfl, h.1, h.2.skip ?_⟩
    obtain ⟨e, he, hkey⟩ := List.any_eq_true.mp hany
    exact ⟨e, he, beq_iff_eq.mp hkey⟩
  · refine ⟨_, rfl, ?_, h.2.put⟩
    rw [List.length_set]
    exact h.1

lemma Holding.find {table : HashTable} {entries : List (Bytes × Bytes)} (h : Holding table entries)
    {ext : Bytes} (hext : ext ≠ []) :
    hashFind table ext (getMimeHashValue ext) = entries.find? (·.1 == ext) := by
  have hlt : getMimeHashValue ext < table.length := h.1 ▸ getMimeHashValue_lt ext
  unfold hashFind
  rw [if_neg hext, h.2 _ hlt (· == ext)]
  refine (Chains.find?_and_eq_iff (p := fun e : Bytes × Bytes => e.1 == ext)).mpr fun e he => ?_
  have hkey := List.find?_some (p := fun e : Bytes × Bytes => e.1 == ext) he
  rw [beq_iff_eq] at hkey ⊢
  exact congrArg getMimeHashValue hkey

/-! ### The lines -/

lemma firstWord_append {k r : Bytes} {b : UInt8} (hk : ∀ x ∈ k, isspace x = false) (hb : isspace b) :
    firstWord (k ++ b :: r) = k ∧ behindWord (k ++ b :: r) = r := by
  have hpos : ∀ x ∈ k, (!isspace x) = true := by simpa using hk
  constructor
  · unfold firstWord
    rw [List.takeWhile_append_of_pos hpos, List.takeWhile_cons_of_neg (by simp [hb]), List.append_nil]
  · unfold behindWord
    rw [List.dropWhile_append_of_pos hpos, List.dropWhile_cons_of_neg (by simp [hb])]
    rfl

lemma dropWhile_blanks {g w : Bytes} (hg : ∀ b ∈ g, isspace b) (hw : ∀ b ∈ w.head?, isspace b = false) :
    (g ++ w).dropWhile isspace = w := by
  rw [List.dropWhile_append_of_pos hg]
  rcases w with _ | ⟨b, w⟩
  · rfl
  · exact List.dropWhile_cons_of_neg (by simp [hw b rfl])

namespace Word

lemma head?_append (w : Word) (s : Bytes) : ∀ b ∈ (w.val ++ s).head?, isspace b = false := by
  intro b hb
  obtain ⟨x, rest, hx⟩ := List.exists_cons_of_ne_nil w.ne
  have hfree := w.spaceless
  rw [hx] at hb hfree
  rw [← Option.some.inj hb]
  exact hfree x List.mem_cons_self

/-- A word behind other text ends it without white space. -/
lemma rdropWhile_append (w : Word) (s : Bytes) : (s ++ w.val).rdropWhile isspace = s ++ w.val := by
  obtain ⟨rest, b, hb⟩ := (List.eq_nil_or_concat' w.val).resolve_left w.ne
  have hfree := w.spaceless b (by rw [hb]; simp)
  rw [hb, ← List.append_assoc]
  exact List.rdropWhile_concat_neg _ _ _ (by simp [hfree])

end Word

namespace TypeText

variable (t : TypeText)

lemma extText_ne : t.extText ≠ [] := by
  unfold extText
  exact List.append_ne_nil_of_left_ne_nil t.ext.ne _

/-- The text of the line ends with a word. -/
lemma body_ends : ∃ (s : Bytes) (w : Word), t.body = s ++ w.val := by
  have hext : ∃ (s : Bytes) (w : Word), t.extText = s ++ w.val := by
    unfold extText
    rcases List.eq_nil_or_concat' t.more with hnil | ⟨more, x, hx⟩
    · rw [hnil]
      exact ⟨[], t.ext, by simp⟩
    · rw [hx]
      refine ⟨t.ext.val ++ (more.flatMap (fun x => x.1.val ++ x.2.val) ++ x.1.val), x.2, ?_⟩
      simp
  obtain ⟨s, w, hs⟩ := hext
  refine ⟨text "AddType" ++ (t.gap.val ++ (t.type.val ++ (t.gap'.val ++ s))), w, ?_⟩
  unfold body
  rw [hs]
  simp only [List.append_assoc]

lemma noNul_of_space {s : Bytes} (h : ∀ b ∈ s, isspace b) : 0 ∉ s := fun h0 => absurd (h 0 h0) (by decide)

lemma encode_noNul : 0 ∉ t.encode := by
  have hname : (0 : UInt8) ∉ text "AddType" := by decide +kernel
  have hlf : (0 : UInt8) ≠ lf := by decide
  have hmore : ∀ x ∈ t.more, 0 ∉ x.1.val ∧ 0 ∉ x.2.val :=
    fun x _ => ⟨noNul_of_space x.1.space, x.2.noNul⟩
  simp only [encode, body, extText, List.mem_append, List.mem_flatMap, List.mem_singleton, not_or, not_exists,
    not_and]
  exact ⟨⟨hname, noNul_of_space t.gap.space, t.type.noNul, noNul_of_space t.gap'.space, t.ext.noNul, hmore⟩,
    noNul_of_space t.tail_space, hlf⟩

lemma lineText_encode : lineText t.encode = t.body := by
  obtain ⟨s, w, hbody⟩ := t.body_ends
  have hspace : ∀ b ∈ t.tail ++ [lf], isspace b := by
    intro b hb
    rcases List.mem_append.mp hb with hb | hb
    · exact t.tail_space b hb
    · rw [List.mem_singleton.mp hb]
      decide
  have hdrop : t.encode.rdropWhile isspace = t.body := by
    have hend := w.rdropWhile_append s
    rw [← hbody] at hend
    unfold encode
    generalize t.tail ++ [lf] = u at hspace
    induction u using List.reverseRecOn with
    | nil => rw [List.append_nil, hend]
    | append_singleton u b ih =>
      rw [← List.append_assoc, List.rdropWhile_concat_pos _ _ _ (hspace b (by simp))]
      exact ih fun x hx => hspace x (List.mem_append_left _ hx)
  have hpos : 1 ≤ t.body.length := by
    rw [hbody, List.length_append]
    have := List.length_pos_iff.mpr w.ne
    omega
  unfold lineText
  rw [Memory.cstr_of_not_mem t.encode_noNul, hdrop, max_eq_right hpos]
  unfold encode
  exact List.take_left

/-- The keyword's entry of the table. -/
def command : Command := ⟨"AddType", .twoArgs, .addMimeType⟩

lemma lookupKeyword_addType : lookupKeyword (text "AddType") = some command := by decide +kernel

/-- The text of the line, word for word. -/
lemma parts : firstWord t.body = text "AddType" ∧
    (behindWord t.body).dropWhile isspace = t.type.val ++ (t.gap'.val ++ t.extText) ∧
    firstWord (t.type.val ++ (t.gap'.val ++ t.extText)) = t.type.val ∧
    (behindWord (t.type.val ++ (t.gap'.val ++ t.extText))).dropWhile isspace = t.extText := by
  have hname : ∀ x ∈ text "AddType", isspace x = false := by decide +kernel
  obtain ⟨b, g, hg⟩ := List.exists_cons_of_ne_nil t.gap.ne
  obtain ⟨b', g', hg'⟩ := List.exists_cons_of_ne_nil t.gap'.ne
  have hspace := t.gap.space
  have hspace' := t.gap'.space
  rw [hg] at hspace
  rw [hg'] at hspace'
  have hext : ∀ x ∈ t.extText.head?, isspace x = false := t.ext.head?_append _
  obtain ⟨hfirst, hbehind⟩ := firstWord_append (r := g ++ (t.type.val ++ (t.gap'.val ++ t.extText))) hname
    (hspace b List.mem_cons_self)
  obtain ⟨hfirst', hbehind'⟩ := firstWord_append (r := g' ++ t.extText) t.type.spaceless
    (hspace' b' List.mem_cons_self)
  have hbody : t.body = text "AddType" ++ b :: (g ++ (t.type.val ++ (t.gap'.val ++ t.extText))) := by
    unfold body
    rw [hg]
    rfl
  have hargs : t.type.val ++ (t.gap'.val ++ t.extText) = t.type.val ++ b' :: (g' ++ t.extText) := by
    rw [hg']
    rfl
  refine ⟨hbody ▸ hfirst, ?_, hargs ▸ hfirst', ?_⟩
  · rw [hbody, hbehind]
    exact dropWhile_blanks (fun x hx => hspace x (List.mem_cons_of_mem _ hx)) (t.type.head?_append _)
  · rw [hargs, hbehind']
    exact dropWhile_blanks (fun x hx => hspace' x (List.mem_cons_of_mem _ hx)) hext

lemma not_skipped : ¬ Skipped t.encode := by
  have hname : text "AddType" = 65 :: text "ddType" := by decide +kernel
  have hhead : t.encode.head? = some 65 := by
    unfold encode body
    rw [hname]
    rfl
  unfold Skipped
  rw [hhead]
  decide

lemma wellSpaced : WellSpaced t.encode := by
  obtain ⟨hfirst, hargs, -⟩ := t.parts
  unfold WellSpaced
  rw [t.lineText_encode, hfirst, hargs]
  obtain ⟨b, g, hg⟩ := List.exists_cons_of_ne_nil t.gap.ne
  obtain ⟨b', g', hg'⟩ := List.exists_cons_of_ne_nil t.gap'.ne
  refine ⟨⟨b, ?_, t.gap.space b (by rw [hg]; simp)⟩, fun _ _ _ _ => ⟨b', ?_, t.gap'.space b' (by rw [hg']; simp)⟩⟩
  · unfold body
    simp [hg]
  · simp [hg']

/-- The line calls the action with its type and all of its extensions in one string. -/
lemma parseLine_call (buf : Bytes) : ∃ args, (parseLine t.encode buf).call =
    .action command args (some t.type.val) (some t.extText) := by
  obtain ⟨hfirst, hargs, hfirst', hsecond⟩ := t.parts
  have hne : t.type.val ++ (t.gap'.val ++ t.extText) ≠ [] := List.append_ne_nil_of_left_ne_nil t.type.ne _
  refine ⟨some (behindWord t.body), ?_⟩
  rw [(parseLine_wellSpaced t.not_skipped t.wellSpaced buf).1, t.lineText_encode]
  unfold textCall
  rw [hfirst, lookupKeyword_addType]
  unfold argsCall command
  dsimp only
  rw [hargs, if_neg hne, hfirst', hsecond, if_neg t.extText_ne]

/-- A round over the line adds one entry. -/
lemma parseRound_eq (b : Boot) (root : Bool) (s : Server) (buf : Bytes) :
    ∃ buf', parseRound b root (s, buf) t.encode =
      (addMimeType s.mimeHashtable t.extText t.type.val).map fun h => ({ s with mimeHashtable := h }, buf') := by
  obtain ⟨args, hcall⟩ := t.parseLine_call buf
  refine ⟨(parseLine t.encode buf).buf, ?_⟩
  unfold parseRound
  dsimp only
  rw [hcall, if_neg nofun]
  unfold Call.directive command
  dsimp only
  rw [Option.bind_some]
  exact Option.map_map _ _ _

end TypeText

/-- A line end within reach ends what `fgets` reads. -/
lemma fgets_line {s rest : Bytes} (hs : lf ∉ s) (hlen : (s ++ [lf]).length ≤ lineBufferSize - 2) :
    fgets (s ++ [lf] ++ rest) = s ++ [lf] := by
  have htake : (s ++ [lf] ++ rest).take (lineBufferSize - 2) =
      s ++ lf :: rest.take (lineBufferSize - 2 - (s ++ [lf]).length) := by
    rw [List.take_append, List.take_of_length_le hlen, List.append_assoc]
    rfl
  have hfind : (s ++ lf :: rest.take (lineBufferSize - 2 - (s ++ [lf]).length)).findIdx? (· == lf) =
      some s.length := by
    rw [List.findIdx?_append, List.findIdx?_eq_none_iff.mpr, Option.none_or, List.findIdx?_cons]
    · simp
    · intro b hb
      exact beq_eq_false_iff_ne.mpr fun he => hs (he ▸ hb)
  unfold fgets
  rw [htake]
  dsimp only
  rw [hfind]
  dsimp only
  rw [List.take_append, List.take_of_length_le (Nat.le_succ _), Nat.add_sub_cancel_left]
  rfl

namespace TypeText

variable (t : TypeText)

/-- The line has no other line end than its last character. -/
lemma encode_line : ∃ s, t.encode = s ++ [lf] ∧ lf ∉ s := by
  have hname : lf ∉ text "AddType" := by decide +kernel
  have hword (w : Word) : lf ∉ w.val := fun h => absurd (w.spaceless lf h) (by decide)
  have hmore : ∀ x ∈ t.more, lf ∉ x.1.val ∧ lf ∉ x.2.val := fun x _ => ⟨x.1.noLf, hword x.2⟩
  refine ⟨t.body ++ t.tail, by rw [encode, List.append_assoc], ?_⟩
  simp only [body, extText, List.mem_append, List.mem_flatMap, not_or, not_exists, not_and]
  exact ⟨⟨hname, t.gap.noLf, hword _, t.gap'.noLf, hword _, hmore⟩, t.tail_noLf⟩

end TypeText

/-- The lines of a file are read one by one. -/
lemma readLines_typeFile (lines : List TypeLine) (n : ℕ) (hn : (typeFile lines).length ≤ n) :
    readLines n (typeFile lines) = lines.map fun l => l.encode := by
  induction lines generalizing n with
  | nil =>
    cases n with
    | zero => rfl
    | succ n => rfl
  | cons l lines ih =>
    obtain ⟨s, hs, hlf⟩ := l.toTypeText.encode_line
    have hfile : typeFile (l :: lines) = s ++ [lf] ++ typeFile lines := by
      unfold typeFile
      rw [List.flatMap_cons, hs]
    have hshort := l.short
    rw [hs] at hshort
    have hlen : (typeFile (l :: lines)).length = (s ++ [lf]).length + (typeFile lines).length := by
      rw [hfile, List.length_append]
    rw [List.length_append, List.length_singleton] at hlen
    cases n with
    | zero => omega
    | succ n =>
      have hne : s ++ [lf] ++ typeFile lines ≠ [] := by simp
      rw [hfile, readLines, if_neg hne, fgets_line hlf hshort, List.drop_left, List.map_cons, hs,
        ih n (by omega)]

/-- A run over the lines fills the table with an entry for each. -/
lemma foldlM_typeLines (b : Boot) (root : Bool) (lines : List TypeLine) (s : Server) (buf : Bytes)
    {entries : List (Bytes × Bytes)} (h : Holding s.mimeHashtable entries) :
    ∃ table buf', (lines.map fun l => l.encode).foldlM (parseRound b root) (s, buf) =
        some ({ s with mimeHashtable := table }, buf') ∧
      Holding table (entries ++ lines.map fun l => (l.extText, l.type.val)) := by
  induction lines generalizing s buf entries with
  | nil => exact ⟨s.mimeHashtable, buf, rfl, by simpa using h⟩
  | cons l lines ih =>
    obtain ⟨buf', hround⟩ := l.toTypeText.parseRound_eq b root s buf
    obtain ⟨table, htable, hold⟩ := h.add l.extText_ne l.type.ne
    obtain ⟨table', buf'', hrun, hold'⟩ := ih { s with mimeHashtable := table } buf' hold
    refine ⟨table', buf'', ?_, by simpa using hold'⟩
    rw [List.map_cons, List.foldlM_cons, hround, htable]
    exact hrun

/-- `get_mime_type` gives the type of the first entry with the extension. -/
lemma getMimeTypeIn_eq {table : HashTable} {lines : List TypeLine}
    (h : Holding table (lines.map fun l => (l.extText, l.type.val))) {defaultType name ext : Bytes}
    (he : extension name = some ext) (hne : ext ≠ []) : getMimeTypeIn table defaultType name =
      ((lines.find? fun l => l.extText == ext).map (·.type.val)).getD defaultType := by
  obtain ⟨b, rest, rfl⟩ := List.exists_cons_of_ne_nil hne
  unfold getMimeTypeIn
  rw [he]
  dsimp only
  rw [h.find hne, List.find?_map]
  unfold Function.comp
  cases lines.find? fun l => l.extText == b :: rest <;> rfl

/-- A file of AddType lines is read to its end, with one entry for each line. -/
lemma parseFile_typeFile (b : Boot) (root : Bool) (settings : Settings) (buf : Bytes) (lines : List TypeLine) :
    ∃ table, parseFile b root { settings } buf (typeFile lines) = some { settings, mimeHashtable := table } ∧
      Holding table (lines.map fun l => (l.extText, l.type.val)) := by
  obtain ⟨table, buf', hrun, hold⟩ := foldlM_typeLines b root lines { settings } buf holding_empty
  refine ⟨table, ?_, hold⟩
  unfold parseFile
  rw [readLines_typeFile lines _ le_rfl, hrun]
  rfl

/-- A file of AddType lines gives a name the documented type exactly where the first line for
its extension alone has the type of the first that lists it. -/
theorem addType_documented_iff (b : Boot) (root : Bool) (settings : Settings) (buf : Bytes)
    (lines : List TypeLine) (defaultType name : Bytes) :
    (∃ s, parseFile b root { settings } buf (typeFile lines) = some s ∧
      getMimeTypeIn s.mimeHashtable defaultType name = documentedType lines defaultType name) ↔
    ListedAlone lines defaultType name := by
  obtain ⟨table, hparse, hold⟩ := parseFile_typeFile b root settings buf lines
  have hone : (∃ s, parseFile b root { settings } buf (typeFile lines) = some s ∧
      getMimeTypeIn s.mimeHashtable defaultType name = documentedType lines defaultType name) ↔
      getMimeTypeIn table defaultType name = documentedType lines defaultType name := by
    rw [hparse]
    simp
  rw [hone]
  unfold documentedType ListedAlone
  cases he : extension name with
  | none =>
    unfold getMimeTypeIn
    rw [he]
    simp
  | some ext =>
    by_cases hne : ext = []
    · subst hne
      unfold getMimeTypeIn
      rw [he]
      simp
    · rw [getMimeTypeIn_eq hold he hne]
      obtain ⟨x, rest, rfl⟩ := List.exists_cons_of_ne_nil hne
      simp

def wordOf (s : String) (h : text s ≠ [] ∧ (∀ b ∈ text s, isspace b = false) ∧ 0 ∉ text s) : Word :=
  ⟨text s, h.1, h.2.1, h.2.2⟩

def oneGap : Gap := ⟨[space], by decide, by decide +kernel, by decide +kernel⟩

/-- `AddType text/x a b` -/
def twoExts : TypeLine where
  gap := oneGap
  type := wordOf "text/x" (by decide +kernel)
  gap' := oneGap
  ext := wordOf "a" (by decide +kernel)
  more := [(oneGap, wordOf "b" (by decide +kernel))]
  tail_space := by decide +kernel
  tail_noLf := by decide +kernel
  short := by decide +kernel

def bareSettings : Settings := ⟨fun _ => none, fun _ => 0⟩

/-- Neither extension of the line is known afterwards. -/
theorem addType_misses_two : twoExts.encode = text "AddType text/x a b\n" ∧
    documentedType [twoExts] (text "text/plain") (text "f.a") = text "text/x" ∧
    ¬ ∃ s, parseFile { settings := bareSettings } true { settings := bareSettings } [] (typeFile [twoExts]) = some s ∧
      getMimeTypeIn s.mimeHashtable (text "text/plain") (text "f.a") =
        documentedType [twoExts] (text "text/plain") (text "f.a") := by
  refine ⟨by decide +kernel, by decide +kernel, ?_⟩
  rintro ⟨s, hs, hright⟩
  obtain ⟨table, hparse, hold⟩ := parseFile_typeFile { settings := bareSettings } true bareSettings [] [twoExts]
  have hext : extension (text "f.a") = some (text "a") := by decide +kernel
  rw [hparse] at hs
  rw [← Option.some.inj hs, getMimeTypeIn_eq hold hext (by decide +kernel)] at hright
  exact absurd hright (by decide +kernel)

end Boa
