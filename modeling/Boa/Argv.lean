import Boa.UriBuffer
import Boa.Words

/-! The argument list of an index-style request (cgi.c): the words of the query string, decoded in
place by `unescape_uri`. -/
namespace Boa
open Memory Words

/-- `CGI_ARGC_MAX`; `aargv` has one element more. -/
def cgiArgcMax : ℕ := 128

def plus : UInt8 := 43
def equals : UInt8 := 61

/-- What `create_argv` stores in an element of `aargv`: a pointer is an offset into its copy of the
query string. -/
inductive ArgvCell
  | pathname | word (r : ℕ) | null
  deriving DecidableEq

/-- The loop of `create_argv`: the copy of the query string afterwards, and the stores to `aargv`,
the final NULL included. -/
def argvLoop : ℕ → Bytes → Option ℕ → ℕ → Bytes × List (ℕ × ArgvCell)
  | 0, mem, _, _ => (mem, [])
  | fuel + 1, mem, q, aargc =>
    match q with
    | some r =>
      if aargc < cgiArgcMax then
        let p := (strchr plus (cstr (mem.drop r))).map (r + ·)
        let mem := p.elim mem fun p => store mem p [0]
        let q := p.map (· + 1)
        let u := unescapeAt false mem r
        if u.legal then
          let rest := argvLoop fuel u.mem q (aargc + 1)
          (rest.1, (aargc, .word r) :: rest.2)
        else argvLoop fuel u.mem q aargc
      else (mem, [(aargc, .null)])
    | none => (mem, [(aargc, .null)])

/-- `create_argv`: the copy of the query string, if there is one, and the stores to `aargv`. -/
def createArgv (queryString : Option Bytes) : Bytes × List (ℕ × ArgvCell) :=
  match queryString with
  | none => ([], [(0, .pathname), (1, .null)])
  | some q =>
    if equals ∈ q then ([], [(0, .pathname), (1, .null)])
    else
      let r := argvLoop (q.length + 2) (q ++ [0]) (some 0) 1
      (r.1, (0, .pathname) :: r.2)

/-- A word without its escapes, `none` if it ends inside one. `?` and `#` are characters like others. -/
def wordDecode : Bytes → Option Bytes
  | [] => some []
  | c :: s =>
    if c = percent then
      match s with
      | a :: b :: s => (wordDecode s).map (hexToDecimal a b :: ·)
      | _ => none
    else (wordDecode s).map (c :: ·)

/-- A word that is an argument, with the place where it starts. -/
def argument (w : ℕ × Bytes) : Option (ℕ × Bytes) := (wordDecode w.2).map (w.1, ·)

/-- The arguments that a query string stands for. -/
def arguments (q : Bytes) : List (ℕ × Bytes) := pick argument (cgiArgcMax - 1) (wordsFrom plus 0 q)

/-- The stores that set the elements from `aargc` on to some pointers and a NULL. -/
def storesFrom : ℕ → List ℕ → List (ℕ × ArgvCell)
  | aargc, [] => [(aargc, .null)]
  | aargc, r :: rs => (aargc, .word r) :: storesFrom (aargc + 1) rs

/-- Each argument has its element, which points to the word it is, decoded. -/
def ArgvRight (q : Bytes) : Prop :=
  (createArgv (some q)).2 = (0, .pathname) :: storesFrom 1 ((arguments q).map Prod.fst) ∧
    ∀ a ∈ arguments q, cstr ((createArgv (some q)).1.drop a.1) = a.2

instance (q : Bytes) : Decidable (ArgvRight q) := inferInstanceAs (Decidable (_ ∧ _))

/-- There is a `?` or `#` outside the escapes. -/
def Delimited (w : Bytes) : Prop :=
  ∃ pre c post, w = pre ++ c :: post ∧ ReadThrough pre ∧ (c = question ∨ c = hash)

/-- A word that `unescape_uri` decodes as it should: neither cut at a `?` or `#`, nor at an escaped NUL. -/
def PlainWord (w : Bytes) : Prop := ¬ Delimited w ∧ ∀ s, wordDecode w = some s → 0 ∉ s

/-! ### One word -/

section Word

variable {c a b : UInt8} {s w : Bytes}

lemma wordDecode_char (hc : c ≠ percent) (s : Bytes) : wordDecode (c :: s) = (wordDecode s).map (c :: ·) := by
  conv_lhs => unfold wordDecode
  exact if_neg hc

lemma wordDecode_percent (a b : UInt8) (s : Bytes) :
    wordDecode (percent :: a :: b :: s) = (wordDecode s).map (hexToDecimal a b :: ·) := by
  conv_lhs => unfold wordDecode
  exact if_pos rfl

lemma wordDecode_short (hs : s.length < 2) : wordDecode (percent :: s) = none := by
  rcases s with _ | ⟨a, _ | ⟨b, s⟩⟩
  · rfl
  · rfl
  · simp only [List.length_cons] at hs
    omega

/-- Where the escapes are well formed it is the usual decoding. -/
lemma wordDecode_eq (hw : Escaped w) : wordDecode w = some (percentDecode w) := by
  induction w using percentDecode.induct with
  | case1 => rfl
  | case2 a b s ih =>
    obtain ⟨ha, hb, hs⟩ := escaped_percent.mp hw
    rw [wordDecode_percent, ih hs, percentDecode_percent, hexToDecimal_eq ha hb]
    rfl
  | case3 s hs =>
    obtain ⟨a, b, u, heq, -, -⟩ := hw [] s rfl
    exact (hs a b u heq).elim
  | case4 c s hc ih => rw [wordDecode_char hc, ih ((escaped_cons hc).mp hw), percentDecode_cons hc, Option.map_some]

lemma not_delimited_nil : ¬ Delimited [] := by
  rintro ⟨pre, c, post, heq, -⟩
  exact absurd heq.symm (List.append_ne_nil_of_right_ne_nil pre (List.cons_ne_nil _ _))

lemma delimited_char (hc : IsPlain c) : Delimited (c :: s) ↔ Delimited s := by
  constructor
  · rintro ⟨pre, d, post, heq, hpre, hd⟩
    cases hpre with
    | nil =>
      obtain ⟨rfl, -⟩ := List.cons.inj heq
      rcases hd with rfl | rfl
      · exact absurd rfl hc.2.1
      · exact absurd rfl hc.2.2
    | char _ hpre =>
      obtain ⟨-, rfl⟩ := List.cons.inj heq
      exact ⟨_, d, post, rfl, hpre, hd⟩
    | pair => exact absurd (List.cons.inj heq).1 hc.1
  · rintro ⟨pre, d, post, rfl, hpre, hd⟩
    exact ⟨c :: pre, d, post, rfl, .char hc hpre, hd⟩

lemma delimited_percent : Delimited (percent :: a :: b :: s) ↔ Delimited s := by
  constructor
  · rintro ⟨pre, d, post, heq, hpre, hd⟩
    cases hpre with
    | nil =>
      obtain ⟨rfl, -⟩ := List.cons.inj heq
      rcases hd with hd | hd <;> exact absurd hd (by decide)
    | char hc _ =>
      obtain ⟨rfl, -⟩ := List.cons.inj heq
      exact absurd rfl hc.1
    | pair x y hpre =>
      simp only [List.cons_append, List.cons.injEq] at heq
      obtain ⟨-, -, -, rfl⟩ := heq
      exact ⟨_, d, post, rfl, hpre, hd⟩
  · rintro ⟨pre, d, post, rfl, hpre, hd⟩
    exact ⟨percent :: a :: b :: pre, d, post, rfl, .pair a b hpre, hd⟩

lemma not_delimited_short (hs : s.length < 2) : ¬ Delimited (percent :: s) := by
  rintro ⟨pre, d, post, heq, hpre, hd⟩
  cases hpre with
  | nil =>
    obtain ⟨rfl, -⟩ := List.cons.inj heq
    rcases hd with hd | hd <;> exact absurd hd (by decide)
  | char hc _ =>
    obtain ⟨rfl, -⟩ := List.cons.inj heq
    exact hc.1 rfl
  | pair x y _ =>
    simp only [List.cons_append, List.cons.injEq] at heq
    obtain ⟨-, rfl⟩ := heq
    simp only [List.length_cons] at hs
    omega

lemma delimited_end (hc : c = question ∨ c = hash) (s : Bytes) : Delimited (c :: s) :=
  ⟨[], c, s, rfl, .nil, hc⟩

/-- What `unescape_uri` makes of a word, compared with the decoded word. -/
structure Decodes (w : Bytes) : Prop where
  plain : ¬ Delimited w → (unescapeLoop w).2.2 = (wordDecode w).isSome ∧
    ∀ s, wordDecode w = some s → (unescapeLoop w).1 = s
  cut : Delimited w → (unescapeLoop w).2.2 = true ∧
    ∀ s, wordDecode w = some s → (unescapeLoop w).1.length < s.length

/-- A character or an escape is decoded in front. -/
lemma Decodes.step (h : Decodes s) (hu : unescapeLoop w = (c :: (unescapeLoop s).1, (unescapeLoop s).2))
    (hd : wordDecode w = (wordDecode s).map (c :: ·)) (hw : Delimited w ↔ Delimited s) : Decodes w where
  plain hno := by
    obtain ⟨hlegal, htext⟩ := h.plain fun hs => hno (hw.mpr hs)
    rw [hu, hd, Option.isSome_map]
    refine ⟨hlegal, fun x hx => ?_⟩
    obtain ⟨y, hy, rfl⟩ := Option.map_eq_some_iff.mp hx
    rw [htext y hy]
  cut hyes := by
    obtain ⟨hlegal, htext⟩ := h.cut (hw.mp hyes)
    rw [hu, hd]
    refine ⟨hlegal, fun x hx => ?_⟩
    obtain ⟨y, hy, rfl⟩ := Option.map_eq_some_iff.mp hx
    exact Nat.succ_lt_succ (htext y hy)

lemma decodes_end (hc : c = question ∨ c = hash) (s : Bytes) {query : Option Bytes}
    (hu : unescapeLoop (c :: s) = ([], query, true)) : Decodes (c :: s) where
  plain hno := absurd (delimited_end hc s) hno
  cut _ := by
    have hne : c ≠ percent := by rcases hc with rfl | rfl <;> decide
    rw [hu, wordDecode_char hne]
    refine ⟨rfl, fun x hx => ?_⟩
    obtain ⟨y, -, rfl⟩ := Option.map_eq_some_iff.mp hx
    exact Nat.succ_pos _

lemma decodes (w : Bytes) : Decodes w := by
  induction w using unescapeLoop.induct with
  | case1 =>
    refine ⟨fun _ => ⟨rfl, fun s hs => ?_⟩, fun h => absurd h not_delimited_nil⟩
    cases hs
    rfl
  | case2 a b s ih => exact ih.step (unescapeLoop_percent a b s) (wordDecode_percent a b s) delimited_percent
  | case3 s hs =>
    have hshort : s.length < 2 := by
      rcases s with _ | ⟨a, _ | ⟨b, s⟩⟩
      · decide
      · exact Nat.one_lt_two
      · exact (hs a b s rfl).elim
    refine ⟨fun _ => ?_, fun h => absurd h (not_delimited_short hshort)⟩
    rw [unescapeLoop_short hshort, wordDecode_short hshort]
    exact ⟨rfl, fun s hs => absurd hs (by simp)⟩
  | case4 s hp => exact decodes_end (.inl rfl) s (unescapeLoop_question s)
  | case5 s hp hq => exact decodes_end (.inr rfl) s (unescapeLoop_hash s)
  | case6 c s hp hq hh ih =>
    have hc : IsPlain c := ⟨hp, hq, hh⟩
    exact ih.step (unescapeLoop_plain hc s) (wordDecode_char hp s) (delimited_char hc)

/-- The argument that the server makes of a word, as a string that ends at the first NUL. -/
def keptArgument (w : ℕ × Bytes) : Option (ℕ × Bytes) :=
  if (unescapeLoop w.2).2.2 then some (w.1, cstr (unescapeLoop w.2).1) else none

lemma keptArgument_none {w : ℕ × Bytes} (h : keptArgument w = none) : argument w = none := by
  unfold keptArgument at h
  split_ifs at h with hlegal
  have hno : ¬ Delimited w.2 := fun hd => hlegal ((decodes w.2).cut hd).1
  obtain ⟨heq, -⟩ := (decodes w.2).plain hno
  rw [Bool.not_eq_true] at hlegal
  unfold argument
  rw [Option.map_eq_none_iff, ← Option.not_isSome_iff_eq_none, ← heq, hlegal]
  exact Bool.false_ne_true

/-- It is the right one exactly for plain words. -/
lemma keptArgument_eq_iff (w : ℕ × Bytes) : keptArgument w = argument w ↔ PlainWord w.2 := by
  obtain ⟨hplain, hcut⟩ := decodes w.2
  unfold PlainWord keptArgument argument
  by_cases hd : Delimited w.2
  · obtain ⟨hlegal, hlt⟩ := hcut hd
    refine iff_of_false (fun heq => ?_) fun h => h.1 hd
    rw [if_pos hlegal] at heq
    obtain ⟨s, hs, hpair⟩ := Option.map_eq_some_iff.mp heq.symm
    have hlen := hlt s hs
    rw [(Prod.mk.inj hpair).2] at hlen
    exact absurd (List.takeWhile_prefix _).length_le (not_le.mpr hlen)
  · obtain ⟨hlegal, htext⟩ := hplain hd
    cases hs : wordDecode w.2 with
    | none =>
      rw [hs] at hlegal
      simp [hlegal, hd]
    | some s =>
      rw [hs] at hlegal
      have hlegal : (unescapeLoop w.2).2.2 = true := hlegal
      rw [if_pos hlegal, htext s hs, Option.map_some, Option.some.injEq, Prod.mk.injEq]
      constructor
      · rintro ⟨-, heq⟩
        refine ⟨hd, fun x hx => ?_⟩
        cases hx
        exact heq ▸ cstr_nul s
      · rintro ⟨-, hnul⟩
        exact ⟨rfl, cstr_of_not_mem (hnul s rfl)⟩

end Word

/-! ### The loop -/

section Loop

variable {mem w s t : Bytes} {r aargc fuel : ℕ}

lemma length_unescapeLoop_le (s : Bytes) : (unescapeLoop s).1.length ≤ s.length := by
  induction s using unescapeLoop.induct with
  | case1 => exact le_rfl
  | case2 a b s ih =>
    rw [unescapeLoop_percent]
    simp only [List.length_cons]
    omega
  | case3 s hs =>
    have hshort : s.length < 2 := by
      rcases s with _ | ⟨a, _ | ⟨b, s⟩⟩
      · decide
      · exact Nat.one_lt_two
      · exact (hs a b s rfl).elim
    rw [unescapeLoop_short hshort]
    exact Nat.zero_le _
  | case4 s hp =>
    rw [unescapeLoop_question]
    exact Nat.zero_le _
  | case5 s hp hq =>
    rw [unescapeLoop_hash]
    exact Nat.zero_le _
  | case6 c s hp hq hh ih =>
    rw [unescapeLoop_plain ⟨hp, hq, hh⟩]
    exact Nat.succ_le_succ ih

/-- A word with its terminator is decoded in place, and nothing in front of it or behind it changes. -/
structure WordAt (mem mem' w t : Bytes) (r : ℕ) : Prop where
  legal : (unescapeAt false mem r).legal = (unescapeLoop w).2.2
  front : mem'.take r = mem.take r
  back : mem'.drop (r + w.length + 1) = t
  text : ∃ u, mem'.drop r = (unescapeLoop w).1 ++ 0 :: u

lemma wordAt (h : mem.drop r = w ++ 0 :: t) (hnul : 0 ∉ w) :
    WordAt mem (unescapeAt false mem r).mem w t r := by
  have hspec := unescapeAt_spec false h hnul
  have hlen := length_unescapeLoop_le w
  have hmem : r + w.length + 1 ≤ mem.length := by
    have hl := congrArg List.length h
    rw [List.length_drop, List.length_append, List.length_cons] at hl
    omega
  have hback : (r + (w.length + 1)) = r + w.length + 1 := rfl
  refine ⟨hspec.legal, ?_, ?_, ?_⟩
  · rw [hspec.text]
    exact take_store _ le_rfl (by omega)
  · rw [hspec.text, drop_store _ _ (by rw [List.length_append, List.length_singleton]; omega), ← hback,
      ← List.drop_drop, h, ← List.drop_drop, List.drop_left]
    rfl
  · have htake : (mem.take r).length = r := by
      rw [List.length_take]
      omega
    refine ⟨mem.drop (r + ((unescapeLoop w).1 ++ [0]).length), ?_⟩
    rw [hspec.text, store_of_le _ (by omega), List.append_assoc, List.drop_left' htake, List.append_assoc]
    rfl

/-- What the loop has stored when it is done with the words from `r` on: the arguments that it keeps, each
of them still there at the end. -/
structure ArgvKept (out : Bytes × List (ℕ × ArgvCell)) (mem : Bytes) (r aargc : ℕ) (args : List (ℕ × Bytes)) :
    Prop where
  stores : out.2 = storesFrom aargc (args.map Prod.fst)
  strings : ∀ a ∈ args, cstr (out.1.drop a.1) = a.2
  front : out.1.take r = mem.take r

lemma ArgvKept.done (mem : Bytes) (r aargc : ℕ) : ArgvKept (mem, [(aargc, .null)]) mem r aargc [] :=
  ⟨rfl, fun _ h => absurd h List.not_mem_nil, rfl⟩

/-- One round: the word at `r`, then the rest. `mem₁` is the array with a NUL behind the word. -/
lemma ArgvKept.word {mem₁ mem' : Bytes} {q : Option ℕ} {ws : List (ℕ × Bytes)} (hlt : aargc < cgiArgcMax)
    (hw : WordAt mem₁ mem' w t r) (hfront : mem₁.take r = mem.take r)
    (hgo : argvLoop (fuel + 1) mem (some r) aargc =
      if (unescapeLoop w).2.2 then
        ((argvLoop fuel mem' q (aargc + 1)).1, (aargc, .word r) :: (argvLoop fuel mem' q (aargc + 1)).2)
      else argvLoop fuel mem' q aargc)
    (hnext : ∀ n ≤ cgiArgcMax, ArgvKept (argvLoop fuel mem' q n) mem' (r + w.length + 1) n
      (pick keptArgument (cgiArgcMax - n) ws)) :
    ArgvKept (argvLoop (fuel + 1) mem (some r) aargc) mem r aargc
      (pick keptArgument (cgiArgcMax - aargc) ((r, w) :: ws)) := by
  have hback : ∀ {m : Bytes}, m.take (r + w.length + 1) = mem'.take (r + w.length + 1) → m.take r = mem.take r := by
    intro m hm
    have hcut := congrArg (List.take r) hm
    rw [List.take_take, List.take_take, Nat.min_eq_left (by omega)] at hcut
    rw [hcut, hw.front, hfront]
  rw [hgo]
  by_cases hlegal : (unescapeLoop w).2.2 = true
  · have hkeep : keptArgument (r, w) = some (r, cstr (unescapeLoop w).1) := if_pos hlegal
    have hsucc : cgiArgcMax - aargc = cgiArgcMax - (aargc + 1) + 1 := by omega
    have hrest := hnext (aargc + 1) hlt
    rw [if_pos hlegal, hsucc, pick_some hkeep]
    refine ⟨congrArg ((aargc, ArgvCell.word r) :: ·) hrest.stores, ?_, hback hrest.front⟩
    intro a ha
    rcases List.mem_cons.mp ha with rfl | ha
    · -- what comes later is written behind this word
      obtain ⟨u, hu⟩ := hw.text
      have hlen := length_unescapeLoop_le w
      obtain ⟨u', hu'⟩ := drop_of_take hrest.front hu (by omega)
      show cstr (List.drop r _) = _
      rw [hu', cstr_terminated]
    · exact hrest.strings a ha
  · have hkeep : keptArgument (r, w) = none := if_neg hlegal
    have hrest := hnext aargc hlt.le
    rw [if_neg hlegal, pick_none hkeep]
    exact ⟨hrest.stores, hrest.strings, hback hrest.front⟩

/-- The loop from a word on. -/
lemma argvLoop_spec {q : Bytes} (h : mem.drop r = q ++ 0 :: t) (hnul : 0 ∉ q) (hfuel : q.length + 1 < fuel)
    (hle : aargc ≤ cgiArgcMax) : ArgvKept (argvLoop fuel mem (some r) aargc) mem r aargc
      (pick keptArgument (cgiArgcMax - aargc) (wordsFrom plus r q)) := by
  induction fuel generalizing mem r q aargc with
  | zero => exact absurd hfuel (Nat.not_lt_zero _)
  | succ fuel ih =>
    rcases hle.eq_or_lt with rfl | hlt
    · rw [Nat.sub_self, pick_zero]
      exact .done _ _ _
    have hcstr : cstr (mem.drop r) = q := by
      rw [h]
      exact cstr_append_nul hnul t
    have hpos : 0 < fuel := by omega
    by_cases hplus : plus ∈ q
    · obtain ⟨w, rest, rfl, hwplus⟩ := List.eq_append_cons_of_mem hplus
      rw [List.length_append, List.length_cons] at hfuel
      have hwnul : 0 ∉ w := fun hm => hnul (List.mem_append_left _ hm)
      have hrest : 0 ∉ rest := fun hm => hnul (List.mem_append_right _ (List.mem_cons_of_mem _ hm))
      have hsplit : mem.drop r = w ++ plus :: (rest ++ 0 :: t) := by rw [h, List.append_assoc, List.cons_append]
      have hmem : r + w.length ≤ mem.length := by
        have hlen := congrArg List.length hsplit
        rw [List.length_drop, List.length_append, List.length_cons] at hlen
        omega
      have hword := wordAt (drop_store_inside (y := 0) hsplit) hwnul
      have hfront : (store mem (r + w.length) [0]).take r = mem.take r := take_store _ (Nat.le_add_right _ _) hmem
      rw [wordsFrom_append hwplus]
      apply ArgvKept.word (q := some (r + w.length + 1)) hlt hword hfront
      · conv_lhs => unfold argvLoop
        simp only [if_pos hlt, hcstr, strchr_append hwplus, Option.map_some, Option.elim_some, hword.legal]
      · intro n hn
        exact ih hword.back hrest (by omega) hn
    · have hword := wordAt h hnul
      rw [wordsFrom_one hplus]
      apply ArgvKept.word (q := none) hlt hword rfl
      · conv_lhs => unfold argvLoop
        simp only [if_pos hlt, hcstr, strchr_of_not_mem hplus, Option.map_none, Option.elim_none, hword.legal]
      · intro n hn
        obtain ⟨f, rfl⟩ := Nat.exists_eq_succ_of_ne_zero hpos.ne'
        have hnil : pick keptArgument (cgiArgcMax - n) [] = [] := List.take_nil
        rw [hnil]
        exact .done _ _ _

end Loop

/-! ### The arguments -/

section Right

variable {q : Bytes}

lemma storesFrom_inj {n : ℕ} {rs rs' : List ℕ} (h : storesFrom n rs = storesFrom n rs') : rs = rs' := by
  induction rs generalizing n rs' with
  | nil =>
    cases rs' with
    | nil => rfl
    | cons r rs' => simp [storesFrom] at h
  | cons r rs ih =>
    cases rs' with
    | nil => simp [storesFrom] at h
    | cons r' rs' =>
      simp only [storesFrom, List.cons.injEq, Prod.mk.injEq, ArgvCell.word.injEq, true_and] at h
      rw [h.1, ih h.2]

lemma storesFrom_le {n : ℕ} {rs : List ℕ} {w : ℕ × ArgvCell} (h : w ∈ storesFrom n rs) : w.1 ≤ n + rs.length := by
  induction rs generalizing n with
  | nil =>
    rw [List.mem_singleton.mp h]
    exact le_rfl
  | cons r rs ih =>
    rw [List.length_cons]
    rcases List.mem_cons.mp h with rfl | h
    · exact Nat.le_add_right _ _
    · have := ih h
      omega

/-- Pointers that the same strings are read at stand for the same arguments. -/
lemma eq_of_strings {F : ℕ → Bytes} {l l' : List (ℕ × Bytes)} (h : l.map Prod.fst = l'.map Prod.fst)
    (hl : ∀ a ∈ l, F a.1 = a.2) (hl' : ∀ a ∈ l', F a.1 = a.2) : l = l' := by
  have hback : ∀ l : List (ℕ × Bytes), (∀ a ∈ l, F a.1 = a.2) → (l.map Prod.fst).map (fun r => (r, F r)) = l := by
    intro l hl
    rw [List.map_map]
    conv_rhs => rw [← List.map_id l]
    exact List.map_congr_left fun a ha => Prod.ext rfl (hl a ha)
  rw [← hback l hl, h, hback l' hl']

/-- What `create_argv` has done in the end. -/
lemma createArgv_kept (hnul : 0 ∉ q) (heq : equals ∉ q) : ∃ mem,
    (createArgv (some q)).2 = (0, .pathname) :: storesFrom 1
      ((pick keptArgument (cgiArgcMax - 1) (wordsFrom plus 0 q)).map Prod.fst) ∧
    (createArgv (some q)).1 = mem ∧
    ∀ a ∈ pick keptArgument (cgiArgcMax - 1) (wordsFrom plus 0 q), cstr (mem.drop a.1) = a.2 := by
  have hkept : ArgvKept (argvLoop (q.length + 2) (q ++ [0]) (some 0) 1) (q ++ [0]) 0 1
      (pick keptArgument (cgiArgcMax - 1) (wordsFrom plus 0 q)) :=
    argvLoop_spec (t := []) rfl hnul (by omega) (by decide)
  have hcall : createArgv (some q) = ((argvLoop (q.length + 2) (q ++ [0]) (some 0) 1).1,
      (0, .pathname) :: (argvLoop (q.length + 2) (q ++ [0]) (some 0) 1).2) := if_neg heq
  rw [hcall, hkept.stores]
  exact ⟨_, rfl, rfl, hkept.strings⟩

/-- The arguments are right if and only if they are the ones that are kept. -/
lemma argvRight_iff_kept (hnul : 0 ∉ q) (heq : equals ∉ q) :
    ArgvRight q ↔ pick keptArgument (cgiArgcMax - 1) (wordsFrom plus 0 q) = arguments q := by
  obtain ⟨mem, hstores, hmem, hstrings⟩ := createArgv_kept hnul heq
  unfold ArgvRight
  rw [hstores, hmem]
  constructor
  · rintro ⟨h, hright⟩
    exact eq_of_strings (F := fun r => cstr (mem.drop r)) (storesFrom_inj (List.cons.inj h).2) hstrings hright
  · intro h
    rw [← h]
    exact ⟨rfl, hstrings⟩

/-- No element behind the last one is written, and the arguments are the decoded words exactly if no word
that is looked at has a `?` or `#` outside its escapes or is decoded to a text with a NUL in it. -/
theorem argvRight_iff (hnul : 0 ∉ q) (heq : equals ∉ q) :
    (∀ w ∈ (createArgv (some q)).2, w.1 ≤ cgiArgcMax) ∧
      (ArgvRight q ↔ ∀ w ∈ seen argument (cgiArgcMax - 1) (wordsFrom plus 0 q), PlainWord w.2) := by
  constructor
  · obtain ⟨mem, hstores, -, -⟩ := createArgv_kept hnul heq
    have hlen := length_pick_le keptArgument (cgiArgcMax - 1) (wordsFrom plus 0 q)
    have hmax : 1 ≤ cgiArgcMax := by decide
    intro w hw
    rw [hstores] at hw
    rcases List.mem_cons.mp hw with rfl | hw
    · exact Nat.zero_le _
    · have hle := storesFrom_le hw
      rw [List.length_map] at hle
      omega
  · have hnone : ∀ w ∈ wordsFrom plus 0 q, keptArgument w = none → argument w = none := fun _ _ => keptArgument_none
    have hapart : (wordsFrom plus 0 q).Pairwise fun v w => ∀ a, keptArgument v = some a → argument w ≠ some a := by
      apply (offsets_pairwise 0 _).imp
      rintro v w hlt a hv hw
      unfold keptArgument at hv
      split_ifs at hv
      obtain ⟨s, -, hs⟩ := Option.map_eq_some_iff.mp hw
      have hfst : w.1 = v.1 := by
        rw [← Option.some.inj hv] at hs
        exact (Prod.mk.inj hs).1
      omega
    rw [argvRight_iff_kept hnul heq, arguments, pick_eq_iff hnone hapart]
    exact forall₂_congr fun w _ => keptArgument_eq_iff w

/-- Two words, the second with an escape. -/
theorem argvRight_iff_words : (∀ w ∈ (createArgv (some (text "a+%62"))).2, w.1 ≤ cgiArgcMax) ∧
    (ArgvRight (text "a+%62") ↔
      ∀ w ∈ seen argument (cgiArgcMax - 1) (wordsFrom plus 0 (text "a+%62")), PlainWord w.2) :=
  argvRight_iff (by decide +kernel) (by decide +kernel)

/-- The word `a?b` is passed as `a`. -/
theorem word_cut_short : ¬ ArgvRight (text "a?b") ∧
    arguments (text "a?b") = [(0, text "a?b")] ∧ cstr (createArgv (some (text "a?b"))).1 = text "a" := by
  decide +kernel

end Right

end Boa
