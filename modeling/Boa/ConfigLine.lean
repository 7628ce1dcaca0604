import Boa.InPlace
import Boa.Script
import Boa.Tables

/-! `parse` and `apply_command` (config.c) over their line buffer, which keeps what earlier
lines left in it. -/
namespace Boa
open Memory

/-- How many arguments a command takes. -/
inductive StmtType
  | noArgs | oneArg | twoArgs
  deriving DecidableEq, Repr

/-- The action of a command with its object. -/
inductive Action
  | addCgiEnv | setUser | setGroup | addMimeTypesFile | addMimeType
  | setString (v : StringVar) | setInt (v : IntVar) | setUnity (v : IntVar)
  | addAlias (t : AliasType) | addAccess (allow : Bool)
  deriving DecidableEq

structure Command where
  name : String
  type : StmtType
  action : Action
  deriving DecidableEq

/-- The table of config.c. -/
def clist : List Command := [
  ⟨"Port", .oneArg, .setInt .serverPort⟩, ⟨"Listen", .oneArg, .setString .serverIp⟩,
  ⟨"BackLog", .oneArg, .setInt .backlog⟩, ⟨"User", .oneArg, .setUser⟩,
  ⟨"Group", .oneArg, .setGroup⟩, ⟨"ServerAdmin", .oneArg, .setString .serverAdmin⟩,
  ⟨"ServerRoot", .oneArg, .setString .serverRoot⟩,
  ⟨"UseLocaltime", .noArgs, .setUnity .useLocaltime⟩,
  ⟨"ErrorLog", .oneArg, .setString .errorLogName⟩,
  ⟨"AccessLog", .oneArg, .setString .accessLogName⟩,
  ⟨"CgiLog", .oneArg, .setString .cgiLogName⟩, ⟨"CGILog", .oneArg, .setString .cgiLogName⟩,
  ⟨"VerboseCGILogs", .noArgs, .setUnity .verboseCgiLogs⟩,
  ⟨"LogXFF", .noArgs, .setUnity .logForwardedFor⟩,
  ⟨"ServerName", .oneArg, .setString .serverName⟩,
  ⟨"VirtualHost", .noArgs, .setUnity .virtualhost⟩,
  ⟨"LangRewrite", .noArgs, .setUnity .useLangRewrite⟩,
  ⟨"CaudiumHack", .noArgs, .setUnity .useCaudiumHack⟩,
  ⟨"EnableHSTS", .oneArg, .setString .hstsHeader⟩,
  ⟨"NoRedirectPort", .noArgs, .setUnity .noRedirectPort⟩,
  ⟨"VHostRoot", .oneArg, .setString .vhostRoot⟩,
  ⟨"DefaultVHost", .oneArg, .setString .defaultVhost⟩,
  ⟨"DocumentRoot", .oneArg, .setString .documentRoot⟩,
  ⟨"UserDir", .oneArg, .setString .userDir⟩,
  ⟨"DirectoryIndex", .oneArg, .setString .directoryIndex⟩,
  ⟨"DirectoryMaker", .oneArg, .setString .dirmaker⟩,
  ⟨"DirectoryCache", .oneArg, .setString .cachedir⟩, ⟨"PidFile", .oneArg, .setString .pidFile⟩,
  ⟨"KeepAliveMax", .oneArg, .setInt .kaMax⟩, ⟨"KeepAliveTimeout", .oneArg, .setInt .kaTimeout⟩,
  ⟨"MimeTypes", .oneArg, .addMimeTypesFile⟩, ⟨"DefaultType", .oneArg, .setString .defaultType⟩,
  ⟨"DefaultCharset", .oneArg, .setString .defaultCharset⟩, ⟨"AddType", .twoArgs, .addMimeType⟩,
  ⟨"ScriptAlias", .twoArgs, .addAlias .scriptalias⟩, ⟨"Redirect", .twoArgs, .addAlias .redirect⟩,
  ⟨"Alias", .twoArgs, .addAlias .alias⟩, ⟨"SinglePostLimit", .oneArg, .setInt .singlePostLimit⟩,
  ⟨"CGIPath", .oneArg, .setString .cgiPath⟩, ⟨"CGIumask", .oneArg, .setInt .cgiUmask⟩,
  ⟨"MaxConnections", .oneArg, .setInt .maxConnections⟩,
  ⟨"ConcealServerIdentity", .noArgs, .setUnity .concealServerIdentity⟩,
  ⟨"Allow", .oneArg, .addAccess true⟩, ⟨"Deny", .oneArg, .addAccess false⟩,
  ⟨"CGIRlimitCpu", .twoArgs, .setInt .cgiRlimitCpu⟩,
  ⟨"CGIRlimitData", .twoArgs, .setInt .cgiRlimitData⟩,
  ⟨"CGINice", .twoArgs, .setInt .cgiNice⟩, ⟨"CGIEnv", .twoArgs, .addCgiEnv⟩]

/-- `lookup_keyword`, with `strcasecmp`. -/
def lookupKeyword (c : Bytes) : Option Command :=
  clist.find? fun p => c.map tolower == (text p.name).map tolower

/-- What a line comes to: the command with the string `apply_command` is given and the two
that its action is given. -/
inductive Call
  | skipped
  | unknown (keyword : Bytes)
  | missing (p : Command)
  | action (p : Command) (args v1 v2 : Option Bytes)
  /-- a NULL pointer is read, or the array is left -/
  | fault
  deriving DecidableEq

/-- A line's call, where the scanning loops stopped, and the buffer after it. -/
structure LineRun where
  call : Call
  stops : List ℕ
  buf : Bytes

/-- `sizeof(buf)` in `parse`. -/
def lineBufferSize : ℕ := 1025

/-- `while (!isspace(*c)) ++c`. -/
def scanWord (buf : Bytes) (i : ℕ) : ℕ := i + ((buf.drop i).takeWhile (!isspace ·)).length

/-- `while (isspace(*c)) ++c`. -/
def skipBlank (buf : Bytes) (i : ℕ) : ℕ := i + ((buf.drop i).takeWhile isspace).length

def stringAt (buf : Bytes) (i : ℕ) : Bytes := cstr (buf.drop i)

/-- The loop of `trim`, from index `c` down. -/
def trimLoop (buf : Bytes) : ℕ → Bytes
  | 0 => buf
  | c + 1 => if isspace (buf.getD (c + 1) 0) then trimLoop (buf.set (c + 1) 0) c else buf

/-- `trim`, for a string that is not empty. -/
def trim (buf : Bytes) : Bytes := trimLoop buf ((cstr buf).length - 1)

/-- `apply_command`, for the arguments at an index of the line buffer. -/
def applyCommand (p : Command) (buf : Bytes) (args : Option ℕ) : LineRun :=
  let given := args.map (stringAt buf)
  match p.type with
  | .noArgs => ⟨.action p given none none, [], buf⟩
  | .oneArg => ⟨.action p given given none, [], buf⟩
  | .twoArgs =>
    match args with
    | none => ⟨.fault, [], buf⟩
    | some args =>
      let args := skipBlank buf args
      match buf[args]? with
      | none => ⟨.fault, [args], buf⟩
      | some b =>
        if b = 0 then ⟨.missing p, [args], buf⟩
        else
          let second := scanWord buf args
          match buf[second]? with
          | none => ⟨.fault, [args, second], buf⟩
          | some b =>
            if b = 0 then ⟨.action p given (some (stringAt buf args)) none, [args, second], buf⟩
            else
              let buf := buf.set second 0
              let v1 := stringAt buf args
              let rest := skipBlank buf (second + 1)
              match buf[rest]? with
              | none => ⟨.fault, [args, second, rest], buf⟩
              | some b =>
                ⟨.action p given (some v1) (if b = 0 then none else some (stringAt buf rest)),
                  [args, second, rest], buf⟩

/-- The part of `parse` behind `trim`. -/
def scanLine (buf : Bytes) : LineRun :=
  let c := scanWord buf 0
  match buf[c]? with
  | none => ⟨.fault, [c], buf⟩
  | some b =>
    let args := if b = 0 then none else some (c + 1)
    let buf := if b = 0 then buf else buf.set c 0
    match lookupKeyword (cstr buf) with
    | none => ⟨.unknown (cstr buf), [c], buf⟩
    | some p =>
      let r := applyCommand p buf args
      { r with stops := c :: r.stops }

/-- One round of `parse`: `fgets` puts the line into the buffer. -/
def parseLine (line buf : Bytes) : LineRun :=
  let buf := store buf 0 (line ++ [0])
  if buf.head? = some 0 ∨ buf.head? = some 35 ∨ buf.head? = some lf then ⟨.skipped, [], buf⟩
  else
    let buf := trim buf
    if buf.head? = some 0 then ⟨.skipped, [], buf⟩ else scanLine buf

/-- The text of a line without its white space at the end; the first character stays. -/
def lineText (line : Bytes) : Bytes :=
  (cstr line).take (max 1 ((cstr line).rdropWhile isspace).length)

/-- The first word of a text, and what follows the character behind it. -/
def firstWord (s : Bytes) : Bytes := s.takeWhile (!isspace ·)

def behindWord (s : Bytes) : Bytes := (s.dropWhile (!isspace ·)).drop 1

def Skipped (line : Bytes) : Prop :=
  line.head? = none ∨ line.head? = some 0 ∨ line.head? = some 35 ∨ line.head? = some lf

/-- A line whose scanning loops find the white space they look for. -/
def WellSpaced (line : Bytes) : Prop :=
  (∃ b ∈ lineText line, isspace b) ∧
    ∀ p, lookupKeyword (firstWord (lineText line)) = some p → p.type = .twoArgs →
      (behindWord (lineText line)).dropWhile isspace ≠ [] →
        ∃ b ∈ (behindWord (lineText line)).dropWhile isspace, isspace b

/-- A line means the same whatever is left in the buffer: the same command with the same
arguments, none where the line has none, and no loop goes past the end of the line. -/
structure Independent (line : Bytes) : Prop where
  same : ∀ buf buf' : Bytes, buf.length = lineBufferSize → buf'.length = lineBufferSize →
    (parseLine line buf).call = (parseLine line buf').call
  bare : ∀ buf : Bytes, buf.length = lineBufferSize → (∀ b ∈ lineText line, isspace b = false) →
    ∀ p args v1 v2, (parseLine line buf).call = .action p args v1 v2 → args = none
  second : ∀ buf : Bytes, buf.length = lineBufferSize →
    ∀ p args v1 v2, (parseLine line buf).call = .action p (some args) v1 v2 → p.type = .twoArgs →
      (∀ b ∈ args.dropWhile isspace, isspace b = false) → v2 = none
  stays : ∀ buf : Bytes, buf.length = lineBufferSize →
    ∀ i ∈ (parseLine line buf).stops, i ≤ (lineText line).length

/-- What a command and the text of its arguments come to. -/
def argsCall (p : Command) (args : Bytes) : Call :=
  match p.type with
  | .noArgs => .action p (some args) none none
  | .oneArg => .action p (some args) (some args) none
  | .twoArgs =>
    let words := args.dropWhile isspace
    if words = [] then .missing p
    else
      let second := (behindWord words).dropWhile isspace
      .action p (some args) (some (firstWord words)) (if second = [] then none else some second)

/-- What a well spaced text comes to. -/
def textCall (s : Bytes) : Call :=
  match lookupKeyword (firstWord s) with
  | none => .unknown (firstWord s)
  | some p => argsCall p (behindWord s)

/-! ### Texts with a NUL behind them -/

section Scan

variable {s t w tail buf : Bytes} {b : UInt8}

lemma scanWord_append (i : ℕ) (hi : buf.drop i = w ++ b :: tail) (hw : ∀ x ∈ w, isspace x = false)
    (hb : isspace b) : scanWord buf i = i + w.length := by
  unfold scanWord
  rw [hi, List.takeWhile_append_of_pos (by simpa using hw), List.takeWhile_cons_of_neg (by simp [hb]),
    List.append_nil]

/-- Without white space in the text the loop passes its NUL. -/
lemma scanWord_passes (i : ℕ) (hi : buf.drop i = s ++ 0 :: tail) (hs : ∀ x ∈ s, isspace x = false) :
    i + s.length < scanWord buf i := by
  have hzero : isspace 0 = false := by decide
  unfold scanWord
  rw [hi, List.takeWhile_append_of_pos (by simpa using hs), List.takeWhile_cons_of_pos (by simp [hzero]),
    List.length_append, List.length_cons]
  omega

lemma skipBlank_append (i : ℕ) (hi : buf.drop i = s ++ 0 :: tail) :
    skipBlank buf i = i + (s.takeWhile isspace).length ∧
      buf.drop (skipBlank buf i) = s.dropWhile isspace ++ 0 :: tail := by
  have hzero : isspace 0 = false := by decide
  have htake : (s ++ 0 :: tail).takeWhile isspace = s.takeWhile isspace := by
    rw [List.takeWhile_append]
    split_ifs with hall
    · rw [List.takeWhile_cons_of_neg (by simp [hzero]), List.append_nil]
      exact ((List.takeWhile_prefix _).eq_of_length hall).symm
    · rfl
  have hlen : skipBlank buf i = i + (s.takeWhile isspace).length := by
    unfold skipBlank
    rw [hi, htake]
  refine ⟨hlen, ?_⟩
  have hdrop : (s.takeWhile isspace ++ s.dropWhile isspace).drop (s.takeWhile isspace).length =
      s.dropWhile isspace := List.drop_left
  rw [List.takeWhile_append_dropWhile] at hdrop
  rw [hlen, ← List.drop_drop, hi, List.drop_append_of_le_length (List.takeWhile_prefix _).length_le, hdrop]

lemma trimLoop_append (hs : s ≠ []) (tail : Bytes) : ∃ tail', trimLoop (s ++ 0 :: tail) (s.length - 1) =
    s.take (max 1 (s.rdropWhile isspace).length) ++ 0 :: tail' := by
  induction s using List.reverseRecOn generalizing tail with
  | nil => exact absurd rfl hs
  | append_singleton s b ih =>
    by_cases hnil : s = []
    · subst hnil
      refine ⟨tail, ?_⟩
      have htake : ([] ++ [b]).take (max 1 (([] ++ [b]).rdropWhile isspace).length) = [] ++ [b] :=
        List.take_of_length_le (le_max_left _ _)
      rw [htake]
      rfl
    · obtain ⟨n, hn⟩ := Nat.exists_eq_succ_of_ne_zero (List.length_pos_iff.mpr hnil).ne'
      have hlast : (s ++ [b] ++ 0 :: tail).getD (n + 1) 0 = b := by
        rw [List.getD_eq_getElem?_getD, ← Nat.succ_eq_add_one, ← hn, List.append_assoc]
        simp
      have hc : (s ++ [b]).length - 1 = n + 1 := by
        rw [List.length_append, hn, List.length_singleton]
        rfl
      rw [hc, trimLoop, hlast]
      by_cases hb : isspace b
      · have hset : (s ++ [b] ++ 0 :: tail).set (n + 1) 0 = s ++ 0 :: 0 :: tail := by
          rw [← Nat.succ_eq_add_one, ← hn, List.append_assoc, List.set_append_right _ _ le_rfl, Nat.sub_self]
          rfl
        obtain ⟨tail', htail⟩ := ih hnil (0 :: tail)
        have hle : max 1 (s.rdropWhile isspace).length ≤ s.length :=
          max_le (List.length_pos_iff.mpr hnil) (List.rdropWhile_prefix _ s).length_le
        rw [hn] at htail
        refine ⟨tail', ?_⟩
        rw [if_pos hb, hset, List.rdropWhile_concat_pos _ _ _ hb, List.take_append_of_le_length hle]
        exact htail
      · refine ⟨tail, ?_⟩
        rw [if_neg hb, List.rdropWhile_concat_neg _ _ _ hb, List.take_of_length_le (le_max_right _ _)]

lemma stringAt_append {i : ℕ} (hi : buf.drop i = s ++ 0 :: tail) (hs : 0 ∉ s) : stringAt buf i = s := by
  unfold stringAt
  rw [hi, cstr_append_nul hs]

/-- A text with white space is its first word, a white space and the rest. -/
lemma split_word (h : ∃ b ∈ s, isspace b) : ∃ b, isspace b ∧ s = firstWord s ++ b :: behindWord s := by
  unfold firstWord behindWord
  cases hd : s.dropWhile (!isspace ·) with
  | nil =>
    obtain ⟨b, hb, hspace⟩ := h
    have hno := List.dropWhile_eq_nil_iff.mp hd b hb
    rw [hspace] at hno
    cases hno
  | cons b rest =>
    have hsplit := List.takeWhile_append_dropWhile (p := (!isspace ·)) (l := s)
    have hhead := List.head?_dropWhile_not (!isspace ·) s
    rw [hd] at hsplit hhead
    exact ⟨b, by simpa using hhead, hsplit.symm⟩

lemma firstWord_spaceless (s : Bytes) : ∀ x ∈ firstWord s, isspace x = false := by
  intro x hx
  have hp := List.mem_takeWhile_imp hx
  simpa using hp

lemma dropWhile_sublist_nul (hs : 0 ∉ s) (p : UInt8 → Bool) : 0 ∉ s.dropWhile p :=
  fun h => hs ((List.dropWhile_suffix p).subset h)

/-- The two arguments of a text that has the white space they need. -/
lemma applyCommand_twoArgs {p : Command} (hp : p.type = .twoArgs) {i : ℕ}
    (hi : buf.drop i = s ++ 0 :: tail) (hs : 0 ∉ s)
    (hspace : s.dropWhile isspace ≠ [] → ∃ b ∈ s.dropWhile isspace, isspace b) :
    (applyCommand p buf (some i)).call = argsCall p s ∧
      ∀ j ∈ (applyCommand p buf (some i)).stops, j ≤ i + s.length := by
  obtain ⟨hskip, hwords⟩ := skipBlank_append i hi
  have hgiven := stringAt_append hi hs
  have hwnul := dropWhile_sublist_nul hs isspace
  have hlen : (s.takeWhile isspace).length + (s.dropWhile isspace).length = s.length := by
    rw [← List.length_append, List.takeWhile_append_dropWhile]
  generalize hw : s.dropWhile isspace = words at *
  unfold applyCommand argsCall
  rw [hp]
  dsimp only [Option.map_some]
  rw [hgiven, hw]
  by_cases hnil : words = []
  · rw [hnil] at hwords hlen
    rw [getElem?_of_drop hwords, if_pos hnil]
    dsimp only
    rw [if_pos rfl]
    refine ⟨rfl, fun j hj => ?_⟩
    rw [List.mem_singleton.mp hj]
    omega
  · obtain ⟨b, hb, hsplit⟩ := split_word (hspace hnil)
    have hb0 : b ≠ 0 := by
      rintro rfl
      exact absurd hb (by decide)
    have hfree := firstWord_spaceless words
    generalize firstWord words = f at hsplit hfree ⊢
    generalize behindWord words = r at hsplit ⊢
    generalize skipBlank buf i = k at hskip hwords ⊢
    have hwlen : f.length + (r.length + 1) = words.length := by
      rw [hsplit, List.length_append, List.length_cons]
    obtain ⟨x, words', hx⟩ := List.exists_cons_of_ne_nil hnil
    have hx0 : x ≠ 0 := by
      rintro rfl
      exact hwnul (hx ▸ List.mem_cons_self)
    have hfnul : 0 ∉ f := fun h => hwnul (hsplit ▸ List.mem_append_left _ h)
    have hrnul : 0 ∉ r := fun h => hwnul (hsplit ▸ List.mem_append_right _ (List.mem_cons_of_mem _ h))
    have hk : buf[k]? = some x := getElem?_of_drop (hx ▸ hwords)
    have hbuf : buf.drop k = f ++ b :: (r ++ 0 :: tail) := by
      rw [hwords, hsplit, List.append_assoc]
      rfl
    have hend : buf.drop (k + f.length) = b :: (r ++ 0 :: tail) := by
      rw [← List.drop_drop, hbuf, List.drop_left]
    have hset : (buf.set (k + f.length) 0).drop k = f ++ 0 :: (r ++ 0 :: tail) := by
      rw [List.drop_set, if_neg (by omega), hbuf, Nat.add_sub_cancel_left, List.set_append_right _ _ le_rfl,
        Nat.sub_self]
      rfl
    have hrest : (buf.set (k + f.length) 0).drop (k + f.length + 1) = r ++ 0 :: tail := by
      rw [List.drop_set_of_lt (by omega), ← List.drop_drop, hend]
      rfl
    obtain ⟨hskip', hsecond⟩ := skipBlank_append _ hrest
    have hsnul := dropWhile_sublist_nul hrnul isspace
    have hrlen : (r.takeWhile isspace).length ≤ r.length := (List.takeWhile_prefix _).length_le
    have hsecondAt := stringAt_append hsecond hsnul
    rw [if_neg hnil, hk]
    dsimp only
    rw [if_neg hx0, scanWord_append k hbuf hfree hb, getElem?_of_drop hend]
    dsimp only
    rw [if_neg hb0, stringAt_append hset hfnul]
    have hstops : ∀ j ∈ [k, k + f.length, skipBlank (buf.set (k + f.length) 0) (k + f.length + 1)],
        j ≤ i + s.length := by
      simp only [List.mem_cons, List.not_mem_nil, or_false]
      omega
    by_cases hr : r.dropWhile isspace = []
    · rw [hr] at hsecond
      rw [getElem?_of_drop hsecond, if_pos hr]
      exact ⟨rfl, hstops⟩
    · obtain ⟨y, rest, hy⟩ := List.exists_cons_of_ne_nil hr
      have hy0 : y ≠ 0 := by
        rintro rfl
        exact hsnul (hy ▸ List.mem_cons_self)
      rw [if_neg hr, getElem?_of_drop (hy ▸ hsecond)]
      dsimp only
      rw [if_neg hy0, hsecondAt]
      exact ⟨rfl, hstops⟩

/-- With one argument only, the second scan leaves the text. -/
lemma applyCommand_passes {p : Command} (hp : p.type = .twoArgs) {i : ℕ}
    (hi : buf.drop i = s ++ 0 :: tail) (hs : 0 ∉ s) (hword : s.dropWhile isspace ≠ [])
    (hfree : ∀ b ∈ s.dropWhile isspace, isspace b = false) :
    ∃ j ∈ (applyCommand p buf (some i)).stops, i + s.length < j := by
  obtain ⟨hskip, hwords⟩ := skipBlank_append i hi
  have hwnul := dropWhile_sublist_nul hs isspace
  have hlen : (s.takeWhile isspace).length + (s.dropWhile isspace).length = s.length := by
    rw [← List.length_append, List.takeWhile_append_dropWhile]
  generalize s.dropWhile isspace = words at *
  have hpass := scanWord_passes _ hwords hfree
  obtain ⟨x, words', hx⟩ := List.exists_cons_of_ne_nil hword
  have hx0 : x ≠ 0 := by
    rintro rfl
    exact hwnul (hx ▸ List.mem_cons_self)
  have hk : buf[skipBlank buf i]? = some x := getElem?_of_drop (hx ▸ hwords)
  have hmem : scanWord buf (skipBlank buf i) ∈ (applyCommand p buf (some i)).stops := by
    unfold applyCommand
    rw [hp]
    dsimp only
    rw [hk]
    dsimp only
    rw [if_neg hx0]
    split
    · simp
    · split_ifs
      · simp
      · split <;> simp
  exact ⟨_, hmem, by omega⟩

lemma applyCommand_call {p : Command} {i : ℕ} (hi : buf.drop i = s ++ 0 :: tail) (hs : 0 ∉ s)
    (hspace : p.type = .twoArgs → s.dropWhile isspace ≠ [] → ∃ b ∈ s.dropWhile isspace, isspace b) :
    (applyCommand p buf (some i)).call = argsCall p s ∧
      ∀ j ∈ (applyCommand p buf (some i)).stops, j ≤ i + s.length := by
  have hgiven := stringAt_append hi hs
  cases hp : p.type with
  | noArgs =>
    unfold applyCommand argsCall
    rw [hp, Option.map_some, hgiven]
    exact ⟨rfl, nofun⟩
  | oneArg =>
    unfold applyCommand argsCall
    rw [hp, Option.map_some, hgiven]
    exact ⟨rfl, nofun⟩
  | twoArgs => exact applyCommand_twoArgs hp hi hs (hspace hp)

end Scan

/-! ### Lines -/

section Line

variable {line buf : Bytes}

lemma lineText_nul (line : Bytes) : 0 ∉ lineText line := fun h => cstr_nul line (List.mem_of_mem_take h)

/-- The first NUL of a line, or the one behind it, ends its text. -/
lemma line_append (line tail : Bytes) : ∃ tail', line ++ [0] ++ tail = cstr line ++ 0 :: tail' := by
  have hsplit := List.takeWhile_append_dropWhile (p := fun x : UInt8 => !x == 0) (l := line)
  have hhead := List.head?_dropWhile_not (fun x : UInt8 => !x == 0) line
  cases hd : line.dropWhile (fun x : UInt8 => !x == 0) with
  | nil =>
    rw [hd, List.append_nil] at hsplit
    refine ⟨tail, ?_⟩
    unfold cstr
    rw [hsplit, List.append_assoc]
    rfl
  | cons b rest =>
    rw [hd] at hsplit hhead
    have hb : b = 0 := by simpa using hhead
    subst hb
    refine ⟨rest ++ [0] ++ tail, ?_⟩
    unfold cstr
    conv_lhs => rw [← hsplit]
    simp

lemma head?_of_not_skipped (h : ¬ Skipped line) : ∃ b rest, line = b :: rest ∧ b ≠ 0 ∧ b ≠ 35 ∧ b ≠ lf := by
  unfold Skipped at h
  rcases line with _ | ⟨b, rest⟩
  · exact absurd (.inl rfl) h
  · simp only [List.head?_cons, Option.some.injEq, reduceCtorEq, false_or, not_or] at h
    exact ⟨b, rest, rfl, h⟩

lemma cstr_ne_nil (h : ¬ Skipped line) : cstr line ≠ [] := by
  obtain ⟨b, rest, rfl, hb, -⟩ := head?_of_not_skipped h
  unfold cstr
  rw [List.takeWhile_cons_of_pos (by simpa using hb)]
  exact List.cons_ne_nil _ _

/-- The buffer of a line that is not skipped, once it is trimmed. -/
lemma trim_store (h : ¬ Skipped line) (buf : Bytes) :
    ∃ tail, trim (store buf 0 (line ++ [0])) = lineText line ++ 0 :: tail := by
  obtain ⟨tail, htail⟩ := line_append line (buf.drop (line ++ [0]).length)
  unfold trim
  rw [store_zero, htail, cstr_append_nul (cstr_nul line)]
  exact trimLoop_append (cstr_ne_nil h) tail

lemma lineText_cons (h : ¬ Skipped line) : ∃ b rest, lineText line = b :: rest ∧ b ≠ 0 := by
  have hpos := List.length_pos_iff.mpr (cstr_ne_nil h)
  have hne : lineText line ≠ [] := by
    intro he
    have hlen := congrArg List.length he
    unfold lineText at hlen
    rw [List.length_take, List.length_nil] at hlen
    omega
  obtain ⟨b, rest, hb⟩ := List.exists_cons_of_ne_nil hne
  refine ⟨b, rest, hb, ?_⟩
  rintro rfl
  exact lineText_nul line (hb ▸ List.mem_cons_self)

/-- A line that is not skipped, from its first scan on. -/
lemma parseLine_eq (h : ¬ Skipped line) (buf : Bytes) : ∃ tail,
    parseLine line buf = scanLine (lineText line ++ 0 :: tail) := by
  obtain ⟨tail, htail⟩ := trim_store h buf
  obtain ⟨b, rest, hline, h0, h35, hlf⟩ := head?_of_not_skipped h
  obtain ⟨b', rest', htext, hb'⟩ := lineText_cons h
  have hfirst : (store buf 0 (line ++ [0])).head? = some b := by
    rw [store_zero, hline]
    rfl
  have hsecond : (trim (store buf 0 (line ++ [0]))).head? = some b' := by
    rw [htail, htext]
    rfl
  refine ⟨tail, ?_⟩
  unfold parseLine
  dsimp only
  rw [hfirst, hsecond, htail, if_neg (by simp [h0, h35, hlf]), if_neg (by simp [hb'])]

/-- A text with white space is cut behind its first word. -/
lemma scanLine_split {k a tail : Bytes} {b : UInt8} (hb : isspace b) (hfree : ∀ x ∈ k, isspace x = false)
    (hnul : 0 ∉ k) : scanLine (k ++ b :: (a ++ 0 :: tail)) =
      match lookupKeyword k with
      | none => ⟨.unknown k, [k.length], k ++ 0 :: (a ++ 0 :: tail)⟩
      | some p =>
        let r := applyCommand p (k ++ 0 :: (a ++ 0 :: tail)) (some (k.length + 1))
        { r with stops := k.length :: r.stops } := by
  have hb0 : b ≠ 0 := by
    rintro rfl
    exact absurd hb (by decide)
  have hscan : scanWord (k ++ b :: (a ++ 0 :: tail)) 0 = k.length := by
    rw [scanWord_append 0 List.drop_zero hfree hb, Nat.zero_add]
  have hget : (k ++ b :: (a ++ 0 :: tail))[k.length]? = some b := getElem?_of_drop List.drop_left
  have hset : (k ++ b :: (a ++ 0 :: tail)).set k.length 0 = k ++ 0 :: (a ++ 0 :: tail) := by
    rw [List.set_append_right _ _ le_rfl, Nat.sub_self]
    rfl
  unfold scanLine
  dsimp only
  rw [hscan, hget]
  dsimp only
  rw [if_neg hb0, if_neg hb0, hset, cstr_append_nul hnul]

lemma drop_behind (k s : Bytes) : (k ++ 0 :: s).drop (k.length + 1) = s := by
  rw [List.drop_length_add_append]
  rfl

/-- A well spaced line comes to the same whatever is behind its text. -/
lemma parseLine_wellSpaced (h : ¬ Skipped line) (hw : WellSpaced line) (buf : Bytes) :
    (parseLine line buf).call = textCall (lineText line) ∧
      ∀ j ∈ (parseLine line buf).stops, j ≤ (lineText line).length := by
  obtain ⟨tail, he⟩ := parseLine_eq h buf
  obtain ⟨hspace, hargs⟩ := hw
  obtain ⟨b, hb, hsplit⟩ := split_word hspace
  have hnul := lineText_nul line
  have hfree := firstWord_spaceless (lineText line)
  rw [he]
  unfold textCall
  generalize firstWord (lineText line) = k at *
  generalize behindWord (lineText line) = a at *
  rw [hsplit] at hnul ⊢
  have hknul : 0 ∉ k := fun h => hnul (List.mem_append_left _ h)
  have hanul : 0 ∉ a := fun h => hnul (List.mem_append_right _ (List.mem_cons_of_mem _ h))
  rw [List.append_assoc, List.cons_append, scanLine_split hb hfree hknul, List.length_append,
    List.length_cons]
  cases hl : lookupKeyword k with
  | none => exact ⟨rfl, by simp⟩
  | some p =>
    obtain ⟨hcall, hstops⟩ := applyCommand_call (drop_behind k (a ++ 0 :: tail)) hanul (hargs p hl)
    refine ⟨hcall, fun j hj => ?_⟩
    rcases List.mem_cons.mp hj with rfl | hj
    · omega
    · exact (hstops j hj).trans (by omega)

/-- Else some loop goes past the end of the text. -/
lemma parseLine_passes (h : ¬ Skipped line) (hw : ¬ WellSpaced line) (buf : Bytes) :
    ∃ j ∈ (parseLine line buf).stops, (lineText line).length < j := by
  obtain ⟨tail, he⟩ := parseLine_eq h buf
  rw [he]
  by_cases hspace : ∃ b ∈ lineText line, isspace b
  · obtain ⟨p, hl, hp, hne, hone⟩ : ∃ p, lookupKeyword (firstWord (lineText line)) = some p ∧
        p.type = .twoArgs ∧ (behindWord (lineText line)).dropWhile isspace ≠ [] ∧
          ∀ b ∈ (behindWord (lineText line)).dropWhile isspace, isspace b = false := by
      by_contra hnot
      refine hw ⟨hspace, fun p hl hp hne => ?_⟩
      by_contra hno
      refine hnot ⟨p, hl, hp, hne, fun b hb => ?_⟩
      by_contra hb'
      exact hno ⟨b, hb, by simpa using hb'⟩
    obtain ⟨b, hb, hsplit⟩ := split_word hspace
    have hnul := lineText_nul line
    have hfree := firstWord_spaceless (lineText line)
    generalize firstWord (lineText line) = k at *
    generalize behindWord (lineText line) = a at *
    rw [hsplit] at hnul ⊢
    have hknul : 0 ∉ k := fun h => hnul (List.mem_append_left _ h)
    have hanul : 0 ∉ a := fun h => hnul (List.mem_append_right _ (List.mem_cons_of_mem _ h))
    obtain ⟨j, hj, hlt⟩ := applyCommand_passes hp (drop_behind k (a ++ 0 :: tail)) hanul hne hone
    rw [List.append_assoc, List.cons_append, scanLine_split hb hfree hknul, hl, List.length_append,
      List.length_cons]
    exact ⟨j, List.mem_cons_of_mem _ hj, by omega⟩
  · have hfree : ∀ b ∈ lineText line, isspace b = false := by
      intro b hb
      by_contra hb'
      exact hspace ⟨b, hb, by simpa using hb'⟩
    have hpass : 0 + (lineText line).length < scanWord (lineText line ++ 0 :: tail) 0 :=
      scanWord_passes 0 List.drop_zero hfree
    rw [Nat.zero_add] at hpass
    refine ⟨_, ?_, hpass⟩
    unfold scanLine
    dsimp only
    split
    · simp
    · split <;> simp

lemma parseLine_skipped (h : Skipped line) (buf : Bytes) :
    (parseLine line buf).call = .skipped ∧ (parseLine line buf).stops = [] := by
  have hhead : (store buf 0 (line ++ [0])).head? = some 0 ∨ (store buf 0 (line ++ [0])).head? = some 35 ∨
      (store buf 0 (line ++ [0])).head? = some lf := by
    rw [store_zero]
    rcases line with _ | ⟨b, rest⟩
    · exact .inl rfl
    · simpa [Skipped] using h
  unfold parseLine
  dsimp only
  rw [if_pos hhead]
  exact ⟨rfl, rfl⟩

lemma argsCall_second {p q : Command} {s args : Bytes} {v1 v2 : Option Bytes}
    (h : argsCall p s = .action q (some args) v1 v2) (hq : q.type = .twoArgs) :
    q = p ∧ args = s ∧ s.dropWhile isspace ≠ [] := by
  unfold argsCall at h
  cases hp : p.type with
  | noArgs =>
    rw [hp] at h
    injection h with h1
    rw [← h1, hp] at hq
    cases hq
  | oneArg =>
    rw [hp] at h
    injection h with h1
    rw [← h1, hp] at hq
    cases hq
  | twoArgs =>
    rw [hp] at h
    dsimp only at h
    split_ifs at h with hnil
    all_goals
      injection h with h1 h2
      exact ⟨h1.symm, (Option.some.inj h2).symm, hnil⟩

/-- The lines that mean the same after any other lines. -/
theorem independent_iff (line : Bytes) : Independent line ↔ Skipped line ∨ WellSpaced line := by
  by_cases hskip : Skipped line
  · have hcall := fun buf => (parseLine_skipped hskip buf).1
    refine ⟨fun _ => .inl hskip, fun _ => ⟨?_, ?_, ?_, ?_⟩⟩
    · intro buf buf' _ _
      rw [hcall, hcall]
    · intro buf _ _ p args v1 v2 he
      rw [hcall] at he
      cases he
    · intro buf _ p args v1 v2 he
      rw [hcall] at he
      cases he
    · intro buf _ i hi
      rw [(parseLine_skipped hskip buf).2] at hi
      cases hi
  · rw [or_iff_right hskip]
    constructor
    · intro hind
      by_contra hw
      obtain ⟨j, hj, hlt⟩ := parseLine_passes hskip hw (List.replicate lineBufferSize 0)
      exact Nat.not_le_of_lt hlt (hind.stays _ List.length_replicate j hj)
    · intro hw
      have hcall := fun buf => (parseLine_wellSpaced hskip hw buf).1
      refine ⟨?_, ?_, ?_, fun buf _ => (parseLine_wellSpaced hskip hw buf).2⟩
      · intro buf buf' _ _
        rw [hcall, hcall]
      · intro buf _ hbare
        obtain ⟨b, hb, hspace⟩ := hw.1
        rw [hbare b hb] at hspace
        cases hspace
      · intro buf _ p args v1 v2 he hp hone
        rw [hcall] at he
        unfold textCall at he
        cases hl : lookupKeyword (firstWord (lineText line)) with
        | none =>
          rw [hl] at he
          cases he
        | some q =>
          rw [hl] at he
          obtain ⟨rfl, rfl, hne⟩ := argsCall_second he hp
          obtain ⟨b, hb, hspace⟩ := hw.2 _ hl hp hne
          rw [hone b hb] at hspace
          cases hspace

/-- The buffer after a first line. -/
def leftAfter (line : String) : Bytes := (parseLine (text line) (List.replicate lineBufferSize 0)).buf

def userDirCall (path : String) : Call :=
  .action ⟨"UserDir", .oneArg, .setString .userDir⟩ (some (text path)) (some (text path)) none

/-- A directive without its argument takes what an earlier line left. -/
theorem userDir_takes_leftovers :
    (parseLine (text "UserDir\n") (leftAfter "PidFile /a/b /c\n")).call = userDirCall "/c" ∧
    (parseLine (text "UserDir\n") (leftAfter "PidFile /a/b /d\n")).call = userDirCall "/d" ∧
    ¬ Independent (text "UserDir\n") := by
  have hc : (parseLine (text "UserDir\n") (leftAfter "PidFile /a/b /c\n")).call = userDirCall "/c" := by
    decide +kernel
  have hd : (parseLine (text "UserDir\n") (leftAfter "PidFile /a/b /d\n")).call = userDirCall "/d" := by
    decide +kernel
  refine ⟨hc, hd, fun h => ?_⟩
  have hsame := h.same (leftAfter "PidFile /a/b /c\n") (leftAfter "PidFile /a/b /d\n") (by decide +kernel)
    (by decide +kernel)
  rw [hc, hd] at hsame
  exact absurd hsame (by decide +kernel)

end Line
end Boa
