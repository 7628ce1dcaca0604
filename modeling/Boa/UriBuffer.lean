import Boa.InPlace
import Boa.Told
import Boa.Unescape

/-! The array `request_uri`: decoding, cleaning and prefix stripping rewrite it in place, with the
query string left behind the path. -/
namespace Boa
open Memory

/-- What `unescape_uri` leaves: the array, the place of the query string, and its return value. -/
structure Unescaped where
  mem : Bytes
  query : Option ℕ
  legal : Bool

/-- The search for a query string behind a fragment. -/
def findQuery : ℕ → Bytes → ℕ → Option ℕ
  | 0, _, _ => none
  | fuel + 1, mem, old =>
    let c := mem.getD old 0
    if c = 0 then none else if c = question then some (old + 1) else findQuery fuel mem (old + 1)

/-- The loop of `unescape_uri`, with or without a place for the query string: `uri` is where it
writes and `old` (`uri_old`) where it reads. -/
def unescapeIn (wanted : Bool) : ℕ → Bytes → ℕ → ℕ → Unescaped
  | 0, mem, _, _ => ⟨mem, none, false⟩
  | fuel + 1, mem, uri, old =>
    let c := mem.getD old 0
    if c = 0 then ⟨store mem uri [0], none, true⟩
    else if c = percent then
      let c := mem.getD (old + 1) 0
      let d := mem.getD (old + 2) 0
      if c ≠ 0 ∧ d ≠ 0 then unescapeIn wanted fuel (store mem uri [hexToDecimal c d]) (uri + 1) (old + 3)
      else ⟨store mem uri [0], none, false⟩
    else if c = question then ⟨store mem uri [0], if wanted then some (old + 1) else none, true⟩
    else if c = hash then
      ⟨store mem uri [0], if wanted then findQuery fuel mem (old + 1) else none, true⟩
    else unescapeIn wanted fuel (store mem uri [c]) (uri + 1) (old + 1)

/-- `unescape_uri` on the string at the address `r`. -/
def unescapeAt (wanted : Bool) (mem : Bytes) (r : ℕ) : Unescaped := unescapeIn wanted (mem.length + 1) mem r r

/-- The inner loop of `clean_pathname`: where `pathname` points afterwards. -/
def skipIn : ℕ → Bytes → ℕ → ℕ
  | 0, _, pathname => pathname
  | fuel + 1, mem, pathname =>
    if mem.getD pathname 0 = slash then skipIn fuel mem (pathname + 1)
    else if mem.getD pathname 0 = dot ∧ mem.getD (pathname + 1) 0 = slash then skipIn fuel mem (pathname + 2)
    else if mem.getD pathname 0 = dot ∧ mem.getD (pathname + 1) 0 = dot ∧ mem.getD (pathname + 2) 0 = slash
    then skipIn fuel mem (pathname + 3)
    else pathname

/-- The loop of `clean_pathname`. -/
def cleanIn : ℕ → Bytes → ℕ → ℕ → Bytes
  | 0, mem, _, _ => mem
  | fuel + 1, mem, cleanpath, pathname =>
    let c := mem.getD pathname 0
    if c = 0 then store mem cleanpath [0]
    else
      let next := if c = slash then skipIn fuel mem (pathname + 1) else pathname + 1
      cleanIn fuel (store mem cleanpath [c]) (cleanpath + 1) next

def cleanPathnameIn (mem : Bytes) : Bytes := cleanIn (mem.length + 1) mem 0 0

/-- A lower-case letter. -/
def isLower (c : UInt8) : Bool := decide (97 ≤ c.toNat ∧ c.toNat ≤ 122)

/-- The test of the Caudium branch: the form `/(ll)/` with something behind it. -/
def IsCaudium (mem : Bytes) : Prop :=
  mem.getD 0 0 = 47 ∧ mem.getD 1 0 = 40 ∧ isLower (mem.getD 2 0) ∧ isLower (mem.getD 3 0) ∧
    mem.getD 4 0 = 41 ∧ mem.getD 5 0 = 47 ∧ mem.getD 6 0 ≠ 0

instance (mem : Bytes) : Decidable (IsCaudium mem) := inferInstanceAs (Decidable (_ ∧ _))

/-- The Caudium branch of `process_header_end`: a `memmove` over the first segment. -/
def stripCaudiumIn (mem : Bytes) : Bytes :=
  if IsCaudium mem then
    let len := (cstr mem).length
    store mem 0 (slice mem 5 (5 + (len - 5 + 1)))
  else mem

/-- What `translate_uri` makes of the array: its contents one after the other, the last one at the
return, and the result. -/
structure UriTrace where
  arrays : List Bytes
  result : Request × Bool

namespace Request

/-- The UserDir branch of `translate_uri`. A NUL ends the name while the home directory is looked up. -/
def userDirAt (env : Env) (c : Request) (userDir mem : Bytes) : UriTrace :=
  if mem.getD 2 0 = 0 then ⟨[mem], c.sendRBadRequest env, false⟩
  else
    let p := (strchr slash (slice mem 2 (cstr mem).length)).map (· + 2)
    let cut := p.elim mem fun p => store mem p [0]
    let home := env.getHomeDir (cstr (cut.drop 2))
    let mem := p.elim cut fun p => store cut p [slash]
    match home with
    | none => ⟨[cut, mem], c.sendRNotFound env, false⟩
    | some home =>
      let rest := p.elim [] fun p => cstr (mem.drop p)
      ⟨[cut, mem], c.buildPath env (home.length + 1 + userDir.length + rest.length + 1)
        (home ++ [slash] ++ userDir ++ rest)⟩

/-- `translate_uri` without an alias, on the array. The branches behind UserDir only read it. -/
def translatePlainAt (env : Env) (c : Request) (mem : Bytes) : UriTrace :=
  match env.cfg.userDir with
  | none => ⟨[mem], c.translatePlain env⟩
  | some userDir =>
    if mem.getD 1 0 = tilde then c.userDirAt env userDir mem else ⟨[mem], c.translatePlain env⟩

/-- `translate_uri` on the array. An alias only reads it. -/
def translateUriAt (env : Env) (c : Request) (mem : Bytes) : UriTrace :=
  let c := { c with requestUri := cstr mem }
  if mem.getD 0 0 ≠ slash then ⟨[mem], c.sendRBadRequest env, false⟩
  else
    match findAlias env.cfg c.requestUri with
    | none => c.translatePlainAt env mem
    | some _ => ⟨[mem], c.translateUri env⟩

/-- The array when `translate_uri` is called. -/
def strippedIn (cfg : Config) (mem : Bytes) : Bytes :=
  if cfg.useCaudiumHack then stripCaudiumIn (cleanPathnameIn mem) else cleanPathnameIn mem

/-- The contents of the array from the return of `unescape_uri` to that of `translate_uri`. -/
def uriArrays (env : Env) (c : Request) (mem : Bytes) : List Bytes :=
  mem :: cleanPathnameIn mem :: strippedIn env.cfg mem :: (c.translateUriAt env (strippedIn env.cfg mem)).arrays

end Request

/-! ### Decoding -/

section Unescape

variable {mem s t : Bytes} {i j : ℕ}

/-- The query string that a pointer into an array denotes; `t` is what follows the URI. -/
def QueryAt (mem t : Bytes) (low : ℕ) (query : Option ℕ) (found : Option Bytes) : Prop :=
  match query, found with
  | none, none => True
  | some q, some s => mem.drop q = s ++ 0 :: t ∧ low < q
  | _, _ => False

lemma findQuery_spec {fuel : ℕ} (h : mem.drop i = s ++ 0 :: t) (hnul : 0 ∉ s) (hfuel : s.length < fuel)
    {low : ℕ} (hlow : low ≤ i) : QueryAt mem t low (findQuery fuel mem i) (queryAfter s) := by
  induction s generalizing fuel i with
  | nil =>
    obtain ⟨fuel, rfl⟩ := Nat.exists_eq_succ_of_ne_zero (Nat.ne_zero_of_lt hfuel)
    unfold findQuery
    simp only [getD_of_drop h, if_true]
    trivial
  | cons c s ih =>
    obtain ⟨fuel, rfl⟩ := Nat.exists_eq_succ_of_ne_zero (Nat.ne_zero_of_lt hfuel)
    have hc : c ≠ 0 := fun h0 => hnul (h0 ▸ List.mem_cons_self)
    rw [List.cons_append] at h
    unfold findQuery
    simp only [getD_of_drop h, if_neg hc]
    by_cases hq : c = question
    · subst hq
      rw [if_pos rfl]
      exact ⟨drop_succ h, by omega⟩
    · rw [if_neg hq, queryAfter_cons hq]
      apply ih (drop_succ h) (fun hm => hnul (List.mem_cons_of_mem _ hm)) _ (by omega)
      simp only [List.length_cons] at hfuel
      omega

lemma QueryAt.mono {mem' : Bytes} {low low' : ℕ} {query : Option ℕ} {found : Option Bytes}
    (h : QueryAt mem' t low query found) (hlow : low' ≤ low) (hkeep : ∀ k, low < k → mem'.drop k = mem.drop k) :
    QueryAt mem t low' query found := by
  cases query <;> cases found <;> try exact h
  obtain ⟨hdrop, hlt⟩ := h
  exact ⟨(hkeep _ hlt).symm.trans hdrop, hlow.trans_lt hlt⟩

/-- What the loop makes of the string `s` at the place it reads, when it writes from `j` on. -/
structure Unescaped.Of (r : Unescaped) (wanted : Bool) (mem s t : Bytes) (j : ℕ) : Prop where
  text : r.mem = store mem j ((unescapeLoop s).1 ++ [0])
  legal : r.legal = (unescapeLoop s).2.2
  query : QueryAt mem t (j + (unescapeLoop s).1.length) r.query (if wanted then (unescapeLoop s).2.1 else none)

variable {wanted : Bool}

/-- The loop has written `x` and goes on behind it. -/
lemma Unescaped.Of.step {r : Unescaped} {x : UInt8} {s' : Bytes}
    (h : r.Of wanted (store mem j [x]) s t (j + 1)) (hj : j < mem.length)
    (hs : unescapeLoop s' = (x :: (unescapeLoop s).1, (unescapeLoop s).2)) : r.Of wanted mem s' t j where
  text := by
    rw [h.text, store_cons hj, hs]
    rfl
  legal := by rw [h.legal, hs]
  query := by
    rw [hs]
    apply h.query.mono
    · simp only [List.length_cons]
      omega
    · intro k hk
      exact drop_store_one (by omega)

/-- The loop stops in front of `s`. -/
lemma Unescaped.Of.stop {legal : Bool} {query : Option ℕ} {found : Option Bytes}
    (hs : unescapeLoop s = ([], found, legal))
    (hq : QueryAt mem t j query (if wanted then found else none)) :
    Unescaped.Of ⟨store mem j [0], query, legal⟩ wanted mem s t j where
  text := by rw [hs, List.nil_append]
  legal := by rw [hs]
  query := by
    rw [hs]
    exact hq

lemma unescapeIn_spec (wanted : Bool) {fuel : ℕ} (h : mem.drop i = s ++ 0 :: t) (hnul : 0 ∉ s) (hji : j ≤ i)
    (hfuel : s.length < fuel) : (unescapeIn wanted fuel mem j i).Of wanted mem s t j := by
  obtain ⟨fuel, rfl⟩ := Nat.exists_eq_succ_of_ne_zero (Nat.ne_zero_of_lt hfuel)
  have hno : ∀ mem j, QueryAt mem t j none (if wanted then none else none) := by
    intro mem j
    rw [ite_self]
    trivial
  induction s using unescapeLoop.induct generalizing fuel mem i j with
  | case1 =>
    have hstop : unescapeIn wanted (fuel + 1) mem j i = ⟨store mem j [0], none, true⟩ := by
      simp only [unescapeIn, getD_of_drop h, if_true]
    rw [hstop]
    exact .stop rfl (hno _ _)
  | case2 a b s ih =>
    have hlt : j < mem.length := hji.trans_lt (lt_length_of_drop h)
    have h1 := drop_succ h
    have h2 := drop_succ h1
    have ha : a ≠ 0 := fun h0 => hnul (by simp [h0])
    have hb : b ≠ 0 := fun h0 => hnul (by simp [h0])
    simp only [List.length_cons] at hfuel
    obtain ⟨fuel, rfl⟩ := Nat.exists_eq_succ_of_ne_zero (show fuel ≠ 0 by omega)
    have hgo : unescapeIn wanted (fuel + 1 + 1) mem j i =
        unescapeIn wanted (fuel + 1) (store mem j [hexToDecimal a b]) (j + 1) (i + 3) := by
      conv_lhs => unfold unescapeIn
      simp only [getD_of_drop h, getD_of_drop h1, getD_of_drop h2]
      rw [if_neg (by decide), if_pos trivial, if_pos ⟨ha, hb⟩]
    rw [hgo]
    apply Unescaped.Of.step _ hlt (unescapeLoop_percent a b s)
    apply ih
    · rw [drop_store_one (by omega)]
      exact drop_succ h2
    · exact fun hm => hnul (by simp [hm])
    · omega
    · omega
  | case3 s hs =>
    have hshort : s.length < 2 := by
      rcases s with _ | ⟨a, _ | ⟨b, s⟩⟩
      · decide
      · exact Nat.one_lt_two
      · exact (hs a b s rfl).elim
    have h1 := drop_succ h
    have hcut : ¬ (mem.getD (i + 1) 0 ≠ 0 ∧ mem.getD (i + 2) 0 ≠ 0) := by
      rintro ⟨hne1, hne2⟩
      rcases s with _ | ⟨a, _ | ⟨b, s⟩⟩
      · exact hne1 (getD_of_drop h1)
      · exact hne2 (getD_of_drop (drop_succ h1))
      · simp only [List.length_cons] at hshort
        omega
    have hstop : unescapeIn wanted (fuel + 1) mem j i = ⟨store mem j [0], none, false⟩ := by
      unfold unescapeIn
      simp only [getD_of_drop h]
      rw [if_neg (by decide), if_pos trivial, if_neg hcut]
    rw [hstop]
    exact .stop (unescapeLoop_short hshort) (hno _ _)
  | case4 s hp =>
    have hstop : unescapeIn wanted (fuel + 1) mem j i =
        ⟨store mem j [0], if wanted then some (i + 1) else none, true⟩ := by
      unfold unescapeIn
      simp only [getD_of_drop h]
      rw [if_neg (by decide), if_neg (by decide), if_pos trivial]
    rw [hstop]
    apply Unescaped.Of.stop (unescapeLoop_question s)
    cases wanted with
    | false => trivial
    | true => exact ⟨drop_succ h, by omega⟩
  | case5 s hp hq =>
    have hstop : unescapeIn wanted (fuel + 1) mem j i =
        ⟨store mem j [0], if wanted then findQuery fuel mem (i + 1) else none, true⟩ := by
      conv_lhs => unfold unescapeIn
      simp only [getD_of_drop h]
      rw [if_neg (by decide), if_neg (by decide), if_neg (by decide), if_pos trivial]
    rw [hstop]
    apply Unescaped.Of.stop (unescapeLoop_hash s)
    cases wanted with
    | false => trivial
    | true =>
      simp only [List.length_cons] at hfuel
      exact findQuery_spec (drop_succ h) (fun hm => hnul (List.mem_cons_of_mem _ hm)) (by omega) (by omega)
  | case6 c s hp hq hh ih =>
    have hlt : j < mem.length := hji.trans_lt (lt_length_of_drop h)
    have hc : c ≠ 0 := fun h0 => hnul (h0 ▸ List.mem_cons_self)
    simp only [List.length_cons] at hfuel
    obtain ⟨fuel, rfl⟩ := Nat.exists_eq_succ_of_ne_zero (show fuel ≠ 0 by omega)
    have hgo : unescapeIn wanted (fuel + 1 + 1) mem j i =
        unescapeIn wanted (fuel + 1) (store mem j [c]) (j + 1) (i + 1) := by
      conv_lhs => unfold unescapeIn
      simp only [getD_of_drop h]
      rw [if_neg hc, if_neg hp, if_neg hq, if_neg hh]
    rw [hgo]
    apply Unescaped.Of.step _ hlt (unescapeLoop_plain ⟨hp, hq, hh⟩ s)
    apply ih
    · rw [drop_store_one (by omega)]
      exact drop_succ h
    · exact fun hm => hnul (List.mem_cons_of_mem _ hm)
    · omega
    · omega

/-- `unescape_uri` decodes the string at the address `r` in place. -/
lemma unescapeAt_spec (wanted : Bool) {r : ℕ} (h : mem.drop r = s ++ 0 :: t) (hnul : 0 ∉ s) :
    (unescapeAt wanted mem r).Of wanted mem s t r := by
  apply unescapeIn_spec wanted h hnul le_rfl
  have hlen := congrArg List.length h
  rw [List.length_drop, List.length_append] at hlen
  omega

lemma unescapeAt_start (wanted : Bool) (hnul : 0 ∉ s) (t : Bytes) :
    (unescapeAt wanted (s ++ 0 :: t) 0).Of wanted (s ++ 0 :: t) s t 0 := unescapeAt_spec wanted rfl hnul

end Unescape

/-! ### Cleaning -/

section Clean

variable {mem s t : Bytes} {i j : ℕ}

lemma cleanLoop_char {c : UInt8} (hc : c ≠ slash) (s : Bytes) :
    cleanLoop false (c :: s) = c :: cleanLoop false s := by
  conv_lhs => unfold cleanLoop
  exact if_neg hc

lemma cleanLoop_skip_slash (s : Bytes) : cleanLoop true (slash :: s) = cleanLoop true s := by
  conv_lhs => unfold cleanLoop
  exact if_pos rfl

lemma cleanLoop_skip_dot (s : Bytes) : cleanLoop true (dot :: slash :: s) = cleanLoop true s := by
  conv_lhs => unfold cleanLoop
  rw [if_neg (by decide), if_pos rfl]
  exact if_pos rfl

lemma cleanLoop_skip_dots (s : Bytes) : cleanLoop true (dot :: dot :: slash :: s) = cleanLoop true s := by
  conv_lhs => unfold cleanLoop
  rw [if_neg (by decide), if_pos rfl]
  dsimp only
  rw [if_neg (by decide), if_pos rfl]
  exact if_pos rfl

/-- The texts that the inner loop steps over. -/
def skipped : List Bytes := [[slash], [dot, slash], [dot, dot, slash]]

/-- In front of any other text the loop copies what comes. -/
lemma cleanLoop_stop (h : ∀ w ∈ skipped, ¬ w <+: s) : cleanLoop true s = cleanLoop false s := by
  have hslash : ¬ [slash] <+: s := h _ (by simp [skipped])
  have hone : ¬ [dot, slash] <+: s := h _ (by simp [skipped])
  have htwo : ¬ [dot, dot, slash] <+: s := h _ (by simp [skipped])
  simp only [List.cons_prefix_iff] at hslash hone htwo
  rcases s with _ | ⟨c, s⟩
  · rfl
  have hc : c ≠ slash := fun hc => hslash ⟨s, by rw [hc], List.nil_prefix⟩
  rw [cleanLoop_char hc]
  by_cases hdot : c = dot
  swap
  · conv_lhs => unfold cleanLoop
    rw [if_neg hc, if_neg hdot]
  subst hdot
  rcases s with _ | ⟨d, s⟩
  · rfl
  have hd : d ≠ slash := fun hd => hone ⟨_, rfl, s, by rw [hd], List.nil_prefix⟩
  rw [cleanLoop_char hd]
  by_cases hdot : d = dot
  swap
  · conv_lhs => unfold cleanLoop
    rw [if_neg hc, if_pos rfl]
    simp only [if_neg hd, if_neg hdot]
  subst hdot
  rcases s with _ | ⟨e, s⟩
  · rfl
  have he : e ≠ slash := fun he => htwo ⟨_, rfl, _, rfl, s, by rw [he], List.nil_prefix⟩
  rw [cleanLoop_char he]
  conv_lhs => unfold cleanLoop
  rw [if_neg hc, if_pos rfl]
  simp only [if_neg hd, if_neg he]
  rfl

lemma skipIn_succ (fuel : ℕ) (mem : Bytes) (i : ℕ) : skipIn (fuel + 1) mem i =
    if [slash] <+: mem.drop i then skipIn fuel mem (i + 1)
    else if [dot, slash] <+: mem.drop i then skipIn fuel mem (i + 2)
    else if [dot, dot, slash] <+: mem.drop i then skipIn fuel mem (i + 3)
    else i := by
  have hslash : slash ≠ 0 := by decide
  have hdot : dot ≠ 0 := by decide
  simp only [cons_prefix_drop hslash, cons_prefix_drop hdot, List.nil_prefix, and_true, skipIn]

/-- Where the inner loop stops, the text goes on as the list says. -/
lemma skipIn_spec {fuel : ℕ} (h : mem.drop i = s ++ 0 :: t) (hfuel : s.length < fuel) :
    ∃ s', mem.drop (skipIn fuel mem i) = s' ++ 0 :: t ∧ i ≤ skipIn fuel mem i ∧ s' <:+ s ∧
      cleanLoop true s = cleanLoop false s' := by
  induction fuel generalizing i s with
  | zero => exact absurd hfuel (Nat.not_lt_zero _)
  | succ fuel ih =>
    have hgo : ∀ w s', w ++ s' = s → w ≠ [] → cleanLoop true s = cleanLoop true s' →
        ∃ s'', mem.drop (skipIn fuel mem (i + w.length)) = s'' ++ 0 :: t ∧ i ≤ skipIn fuel mem (i + w.length) ∧
          s'' <:+ s ∧ cleanLoop true s = cleanLoop false s'' := by
      rintro w s' rfl hw heq
      have hpos := List.length_pos_iff.mpr hw
      rw [List.length_append] at hfuel
      have hdrop : mem.drop (i + w.length) = s' ++ 0 :: t := by
        rw [← List.drop_drop, h, List.append_assoc, List.drop_left]
      obtain ⟨s'', h1, h2, h3, h4⟩ := ih hdrop (by omega)
      exact ⟨s'', h1, (Nat.le_add_right _ _).trans h2, h3.trans (List.suffix_append _ _), heq.trans h4⟩
    have hread : ∀ w ∈ skipped, w <+: mem.drop i ↔ w <+: s := by
      have hnul : ∀ w ∈ skipped, 0 ∉ w := by decide
      intro w hw
      rw [h]
      exact prefix_append_cons (hnul w hw)
    have h1 := hread [slash] (by simp [skipped])
    have h2 := hread [dot, slash] (by simp [skipped])
    have h3 := hread [dot, dot, slash] (by simp [skipped])
    simp only [skipIn_succ, h1, h2, h3]
    split_ifs with hone htwo hthree
    · obtain ⟨s', hs'⟩ := hone
      exact hgo [slash] s' hs' (List.cons_ne_nil _ _) (hs' ▸ cleanLoop_skip_slash s')
    · obtain ⟨s', hs'⟩ := htwo
      exact hgo [dot, slash] s' hs' (List.cons_ne_nil _ _) (hs' ▸ cleanLoop_skip_dot s')
    · obtain ⟨s', hs'⟩ := hthree
      exact hgo [dot, dot, slash] s' hs' (List.cons_ne_nil _ _) (hs' ▸ cleanLoop_skip_dots s')
    · refine ⟨s, h, le_rfl, List.suffix_refl s, cleanLoop_stop ?_⟩
      simp only [skipped, List.forall_mem_cons]
      exact ⟨hone, htwo, hthree, fun _ hw => absurd hw List.not_mem_nil⟩

/-- What the loop reads next, and that the list function goes on with it. -/
lemma cleanNext_spec {fuel : ℕ} {c : UInt8} (h : mem.drop i = c :: (s ++ 0 :: t)) (hfuel : s.length < fuel) :
    ∃ s', mem.drop (if c = slash then skipIn fuel mem (i + 1) else i + 1) = s' ++ 0 :: t ∧
      i + 1 ≤ (if c = slash then skipIn fuel mem (i + 1) else i + 1) ∧ s' <:+ s ∧
      cleanLoop false (c :: s) = c :: cleanLoop false s' := by
  have hdrop := drop_succ h
  split_ifs with hslash
  · obtain ⟨s', h1, h2, h3, h4⟩ := skipIn_spec hdrop hfuel
    exact ⟨s', h1, h2, h3, by simp [hslash, ← h4, cleanLoop]⟩
  · exact ⟨s, hdrop, le_rfl, List.suffix_refl s, cleanLoop_char hslash s⟩

/-- The loop of `clean_pathname` writes what the list function gives. -/
lemma cleanIn_spec {fuel : ℕ} (h : mem.drop i = s ++ 0 :: t) (hnul : 0 ∉ s) (hji : j ≤ i)
    (hfuel : s.length < fuel) : cleanIn fuel mem j i = store mem j (cleanLoop false s ++ [0]) := by
  induction fuel generalizing mem i j s with
  | zero => exact absurd hfuel (Nat.not_lt_zero _)
  | succ fuel ih =>
    cases s with
    | nil =>
      have hc : mem.getD i 0 = 0 := getD_of_drop h
      simp only [cleanIn, hc, if_true]
      rfl
    | cons c s =>
      rw [List.cons_append] at h
      have hlt : j < mem.length := hji.trans_lt (lt_length_of_drop h)
      have hc : c ≠ 0 := fun h0 => hnul (h0 ▸ List.mem_cons_self)
      have hs : 0 ∉ s := fun hm => hnul (List.mem_cons_of_mem _ hm)
      rw [List.length_cons] at hfuel
      obtain ⟨s', hdrop, hle, hsuffix, hclean⟩ := cleanNext_spec h (show s.length < fuel by omega)
      have hgo : cleanIn (fuel + 1) mem j i = cleanIn fuel (store mem j [c]) (j + 1)
          (if c = slash then skipIn fuel mem (i + 1) else i + 1) := by
        conv_lhs => unfold cleanIn
        simp only [getD_of_drop h, if_neg hc]
      have hlen := hsuffix.length_le
      have hbehind : j < (if c = slash then skipIn fuel mem (i + 1) else i + 1) := by omega
      have hnext := ih ((drop_store_one (x := c) hbehind).trans hdrop) (fun hm => hs (hsuffix.subset hm))
        hbehind (hlen.trans_lt (by omega))
      rw [hgo, hnext, store_cons hlt, hclean]
      rfl

/-- Cleaning only leaves characters out. -/
lemma cleanLoop_sublist (skip : Bool) (s : Bytes) : (cleanLoop skip s).Sublist s := by
  fun_induction cleanLoop skip s with
  | case1 | case8 | case10 => exact List.Sublist.refl _
  | case2 s ih => exact ih.cons_cons _
  | case3 c s hc ih => exact ih.cons_cons _
  | case4 s ih => exact ih.cons _
  | case5 s hc ih => exact (ih.cons _).cons _
  | case6 s hc hd ih => exact ((ih.cons _).cons _).cons _
  | case7 e s he hc hd ih => exact ((ih.cons_cons _).cons_cons _).cons_cons _
  | case9 d s hd hd' hc ih => exact (ih.cons_cons _).cons_cons _
  | case11 c s hc hc' ih => exact ih.cons_cons _

lemma cleanPathnameIn_eq (h : 0 ∈ mem) :
    cleanPathnameIn mem = store mem 0 (cleanPathname (cstr mem) ++ [0]) := by
  obtain ⟨t, ht⟩ := exists_cstr_append h
  have hdrop : mem.drop 0 = cstr mem ++ 0 :: t := ht
  apply cleanIn_spec hdrop (cstr_nul mem) le_rfl
  have hlen := congrArg List.length ht
  rw [List.length_append] at hlen
  omega

lemma cleanPathname_nul (mem : Bytes) : 0 ∉ cleanPathname (cstr mem) :=
  fun hm => cstr_nul mem ((cleanLoop_sublist false _).subset hm)

/-- `clean_pathname` on the array. -/
lemma cstr_cleanPathnameIn (h : 0 ∈ mem) : cstr (cleanPathnameIn mem) = cleanPathname (cstr mem) := by
  rw [cleanPathnameIn_eq h, cstr_store (cleanPathname_nul mem)]

lemma stays_cleanPathnameIn (h : 0 ∈ mem) : Stays (cstr mem).length mem (cleanPathnameIn mem) := by
  rw [cleanPathnameIn_eq h]
  exact stays_store (cleanPathname_nul mem) (cleanLoop_sublist false _).length_le

end Clean

/-! ### The Caudium prefix -/

section Caudium

variable {mem s t : Bytes}

lemma isCaudium_iff (hnul : 0 ∉ s) : IsCaudium (s ++ 0 :: t) ↔
    ∃ a b x rest, s = 47 :: 40 :: a :: b :: 41 :: 47 :: x :: rest ∧ isLower a = true ∧ isLower b = true := by
  have h0 : isLower 0 = false := rfl
  constructor
  · intro h
    unfold IsCaudium at h
    rcases s with _ | ⟨c, _ | ⟨d, _ | ⟨a, _ | ⟨b, _ | ⟨e, _ | ⟨f, _ | ⟨x, rest⟩⟩⟩⟩⟩⟩⟩ <;>
      simp [h0] at h
    obtain ⟨rfl, rfl, ha, hb, rfl, rfl, -⟩ := h
    exact ⟨a, b, x, rest, rfl, ha, hb⟩
  · rintro ⟨a, b, x, rest, rfl, ha, hb⟩
    have hx : x ≠ 0 := fun hx => hnul (by simp [hx])
    exact ⟨rfl, rfl, ha, hb, rfl, rfl, hx⟩

lemma stripCaudium_of_not (h : ¬ ∃ a b x rest, s = 47 :: 40 :: a :: b :: 41 :: 47 :: x :: rest ∧
    isLower a = true ∧ isLower b = true) : stripCaudium s = s := by
  unfold stripCaudium
  split
  · rename_i a b x rest
    refine if_neg fun hab => h ⟨a, b, x, rest, rfl, ?_⟩
    simpa [isLower, and_assoc] using hab
  · rfl

lemma store_self (s t : Bytes) : store (s ++ 0 :: t) 0 (s ++ [0]) = s ++ 0 :: t := by
  rw [store_zero]
  simp

lemma stripCaudiumIn_eq (h : 0 ∈ mem) :
    stripCaudiumIn mem = store mem 0 (stripCaudium (cstr mem) ++ [0]) := by
  obtain ⟨t, ht⟩ := exists_cstr_append h
  have hnul := cstr_nul mem
  unfold stripCaudiumIn
  generalize cstr mem = s at *
  subst ht
  by_cases hform : ∃ a b x rest, s = 47 :: 40 :: a :: b :: 41 :: 47 :: x :: rest ∧
      isLower a = true ∧ isLower b = true
  · rw [if_pos ((isCaudium_iff hnul).mpr hform)]
    obtain ⟨a, b, x, rest, rfl, ha, hb⟩ := hform
    have hstrip : stripCaudium (47 :: 40 :: a :: b :: 41 :: 47 :: x :: rest) = 47 :: x :: rest := by
      simp only [isLower, decide_eq_true_eq] at ha hb
      exact if_pos ⟨ha.1, ha.2, hb⟩
    have htake : (rest ++ 0 :: t).take (rest.length + 1) = rest ++ [0] := List.take_length_add_append 1
    rw [hstrip]
    simp [slice, htake]
  · rw [if_neg fun hc => hform ((isCaudium_iff hnul).mp hc), stripCaudium_of_not hform, store_self]

lemma stripCaudium_cases (s : Bytes) : stripCaudium s = s ∨ stripCaudium s = s.drop 5 := by
  unfold stripCaudium
  split
  · split_ifs
    · exact .inr rfl
    · exact .inl rfl
  · exact .inl rfl

lemma stripCaudium_nul (mem : Bytes) : 0 ∉ stripCaudium (cstr mem) := by
  rcases stripCaudium_cases (cstr mem) with h | h <;> rw [h]
  · exact cstr_nul mem
  · exact fun hm => cstr_nul mem (List.mem_of_mem_drop hm)

lemma length_stripCaudium_le (s : Bytes) : (stripCaudium s).length ≤ s.length := by
  rcases stripCaudium_cases s with h | h <;> rw [h]
  rw [List.length_drop]
  omega

/-- The Caudium branch on the array. -/
lemma cstr_stripCaudiumIn (h : 0 ∈ mem) : cstr (stripCaudiumIn mem) = stripCaudium (cstr mem) := by
  rw [stripCaudiumIn_eq h, cstr_store (stripCaudium_nul mem)]

lemma stays_stripCaudiumIn (h : 0 ∈ mem) : Stays (cstr mem).length mem (stripCaudiumIn mem) := by
  rw [stripCaudiumIn_eq h]
  exact stays_store (stripCaudium_nul mem) (length_stripCaudium_le _)

end Caudium

/-! ### Translation -/

section Translate

variable {env : Env} {c : Request} {mem s t : Bytes}

lemma takeWhile_slash (a b : Bytes) (ha : slash ∉ a) :
    (a ++ slash :: b).takeWhile (· ≠ slash) = a ∧ (a ++ slash :: b).dropWhile (· ≠ slash) = slash :: b := by
  have hall : ∀ x ∈ a, decide (x ≠ slash) = true := by
    intro x hx
    exact decide_eq_true fun h => ha (h ▸ hx)
  rw [List.takeWhile_append_of_pos hall, List.dropWhile_append_of_pos hall]
  simp

/-- The array with a NUL in the place of the first slash behind the name, and what is read there. -/
lemma cut_spec (h : mem = 47 :: 126 :: s ++ 0 :: t) (hnul : 0 ∉ s) :
    let p := (strchr slash (slice mem 2 (cstr mem).length)).map (· + 2)
    let cut := p.elim mem fun p => store mem p [0]
    cstr (cut.drop 2) = s.takeWhile (· ≠ slash) ∧ Stays (cstr mem).length mem cut ∧
      p.elim cut (fun p => store cut p [slash]) = mem ∧
      p.elim [] (fun p => cstr (mem.drop p)) = s.dropWhile (· ≠ slash) := by
  subst h
  have hmem : 0 ∉ 47 :: 126 :: s := by
    simp only [List.mem_cons, not_or]
    exact ⟨by decide, by decide, hnul⟩
  have hcstr : cstr (47 :: 126 :: s ++ 0 :: t) = 47 :: 126 :: s := cstr_append_nul hmem t
  have hname : slice (47 :: 126 :: s ++ 0 :: t) 2 (47 :: 126 :: s).length = s := by simp [slice]
  rw [hcstr, hname]
  by_cases hslash : slash ∈ s
  · obtain ⟨a, b, rfl, ha⟩ := List.eq_append_cons_of_mem hslash
    obtain ⟨htake, hdrop⟩ := takeWhile_slash a b ha
    have hna : 0 ∉ a := fun hm => hnul (List.mem_append_left _ hm)
    have hnb : 0 ∉ slash :: b := fun hm => hnul (List.mem_append_right _ hm)
    have hsplit : ∀ x, 47 :: 126 :: (a ++ x :: b) ++ 0 :: t = (47 :: 126 :: a) ++ x :: (b ++ 0 :: t) := by simp
    have hcut : ∀ x y, store (47 :: 126 :: (a ++ x :: b) ++ 0 :: t) (a.length + 2) [y] =
        47 :: 126 :: (a ++ y :: b) ++ 0 :: t := by
      intro x y
      rw [hsplit, hsplit]
      exact store_one (47 :: 126 :: a) _ x y
    simp only [strchr_append ha, Option.map_some, Option.elim_some, hcut, htake, hdrop]
    refine ⟨?_, ⟨?_, ?_, ?_⟩, trivial, ?_⟩
    · rw [hsplit]
      exact cstr_append_nul hna _
    · simp
    · rw [hsplit, cstr_append_nul (by simpa using hna)]
      simp
    · intro k hk
      rw [← hcut slash 0]
      apply drop_store_one
      simp only [List.length_cons, List.length_append] at hk
      omega
    · rw [hsplit]
      have hdrop2 : (47 :: 126 :: a ++ slash :: (b ++ 0 :: t)).drop (a.length + 2) = slash :: b ++ 0 :: t := by
        rw [show a.length + 2 = (47 :: 126 :: a).length from rfl]
        exact List.drop_left
      rw [hdrop2, cstr_append_nul hnb]
  · have hall : ∀ x ∈ s, decide (x ≠ slash) = true := by
      intro x hx
      exact decide_eq_true fun h => hslash (h ▸ hx)
    simp only [strchr_of_not_mem hslash, Option.map_none, Option.elim_none, List.takeWhile_eq_self_iff.mpr hall,
      List.dropWhile_eq_nil_iff.mpr hall]
    refine ⟨cstr_append_nul hnul t, ⟨?_, ?_, fun _ _ => rfl⟩, trivial, trivial⟩
    · simp
    · rw [hcstr]

/-- A run of `translate_uri`: it ends with the array as it was, and touches nothing behind the path. -/
structure UriTrace.Of (r : UriTrace) (mem : Bytes) (result : Request × Bool) : Prop where
  result : r.result = result
  restored : r.arrays.getLast? = some mem
  stays : ∀ m ∈ r.arrays, Stays (cstr mem).length mem m

lemma UriTrace.Of.read (h : 0 ∈ mem) (result : Request × Bool) : UriTrace.Of ⟨[mem], result⟩ mem result := by
  refine ⟨rfl, rfl, fun m hm => ?_⟩
  rw [List.mem_singleton.mp hm]
  exact Stays.refl h

lemma userDirAt_spec (userDir : Bytes) (h : mem = 47 :: 126 :: s ++ 0 :: t) (hnul : 0 ∉ s) :
    (c.userDirAt env userDir mem).Of mem (c.userDirPath env userDir s) := by
  have hterm : 0 ∈ mem := by simp [h]
  obtain ⟨hname, hcut, hback, hrest⟩ := cut_spec h hnul
  unfold Request.userDirAt Request.userDirPath
  by_cases hs : s = []
  · have hend : mem.getD 2 0 = 0 := by
      rw [h, hs]
      rfl
    rw [if_pos hend, if_pos hs]
    exact .read hterm _
  · have hmore : mem.getD 2 0 ≠ 0 := by
      obtain ⟨x, u, rfl⟩ := List.exists_cons_of_ne_nil hs
      rw [h]
      exact fun hx => hnul (hx ▸ List.mem_cons_self)
    rw [if_neg hmore, if_neg hs]
    simp only [hname, hback, hrest]
    have hstays : ∀ m ∈ [(Option.map (· + 2) (strchr slash (slice mem 2 (cstr mem).length))).elim mem
        fun p => store mem p [0], mem], Stays (cstr mem).length mem m := by
      intro m hm
      rcases List.mem_pair.mp hm with rfl | rfl
      · exact hcut
      · exact Stays.refl hterm
    cases env.getHomeDir (s.takeWhile (· ≠ slash)) with
    | none => exact ⟨rfl, rfl, hstays⟩
    | some home => exact ⟨rfl, rfl, hstays⟩

lemma translatePlainAt_spec (h : mem = 47 :: s ++ 0 :: t) (hnul : 0 ∉ s) (huri : c.requestUri = 47 :: s) :
    (c.translatePlainAt env mem).Of mem (c.translatePlain env) := by
  have hterm : 0 ∈ mem := by simp [h]
  unfold Request.translatePlainAt
  cases hu : env.cfg.userDir with
  | none => exact .read hterm _
  | some userDir =>
    dsimp only
    by_cases htilde : mem.getD 1 0 = tilde
    · rw [if_pos htilde]
      rcases s with _ | ⟨x, name⟩
      · rw [h] at htilde
        exact absurd (show (0 : UInt8) = tilde from htilde) (by decide)
      · obtain rfl : x = 126 := by
          rw [h] at htilde
          exact htilde
        have hplain : c.translatePlain env = c.userDirPath env userDir name := by
          unfold Request.translatePlain
          rw [hu, huri]
          rfl
        rw [hplain]
        exact userDirAt_spec userDir h fun hm => hnul (List.mem_cons_of_mem _ hm)
    · rw [if_neg htilde]
      exact .read hterm _

lemma translateUriAt_spec (env : Env) (c : Request) (h : 0 ∈ mem) :
    (c.translateUriAt env mem).Of mem ({ c with requestUri := cstr mem }.translateUri env) := by
  obtain ⟨t, ht⟩ := exists_cstr_append h
  have hnul := cstr_nul mem
  unfold Request.translateUriAt
  generalize hs : cstr mem = s at *
  have hterm := h
  dsimp only
  rcases s with _ | ⟨x, s⟩
  · have hend : mem.getD 0 0 ≠ slash := by
      rw [ht]
      exact (by decide : (0 : UInt8) ≠ slash)
    rw [if_pos hend]
    exact .read hterm _
  by_cases hx : x = slash
  · subst hx
    have hfirst : ¬ mem.getD 0 0 ≠ slash := by
      rw [ht]
      exact not_not.mpr rfl
    rw [if_neg hfirst]
    cases ha : findAlias env.cfg (slash :: s) with
    | some a => exact .read hterm _
    | none =>
      have huri : ({ c with requestUri := slash :: s } : Request).translateUri env =
          ({ c with requestUri := slash :: s } : Request).translatePlain env := by
        unfold Request.translateUri
        rw [if_neg (by simp)]
        simp only [ha]
      rw [huri]
      exact translatePlainAt_spec ht (fun hm => hnul (List.mem_cons_of_mem _ hm)) rfl
  · have hfirst : mem.getD 0 0 ≠ slash := by
      rw [ht]
      exact hx
    have huri : ({ c with requestUri := x :: s } : Request).translateUri env =
        (({ c with requestUri := x :: s } : Request).sendRBadRequest env, false) := by
      unfold Request.translateUri
      exact if_pos fun h => hx (Option.some.inj h)
    rw [if_pos hfirst, huri]
    exact .read hterm _

end Translate

/-! ### The query string -/

lemma stays_strippedIn (cfg : Config) {mem : Bytes} (h : 0 ∈ mem) :
    Stays (cstr mem).length mem (Request.strippedIn cfg mem) := by
  have hclean := stays_cleanPathnameIn h
  unfold Request.strippedIn
  split_ifs
  · exact hclean.trans (stays_stripCaudiumIn hclean.term)
  · exact hclean

lemma stays_uriArrays (env : Env) (c : Request) {mem : Bytes} (h : 0 ∈ mem) :
    ∀ m ∈ c.uriArrays env mem, Stays (cstr mem).length mem m := by
  have hstripped := stays_strippedIn env.cfg h
  have htranslated := (translateUriAt_spec env c hstripped.term).stays
  intro m hm
  simp only [Request.uriArrays, List.mem_cons] at hm
  rcases hm with rfl | rfl | rfl | hm
  · exact Stays.refl h
  · exact stays_cleanPathnameIn h
  · exact hstripped
  · exact hstripped.trans (htranslated m hm)

section Query

variable {uri : Bytes}

lemma queryAfter_nul {query : Bytes} (hnul : 0 ∉ uri) (h : queryAfter uri = some query) : 0 ∉ query := by
  unfold queryAfter at h
  have hsub := List.dropWhile_suffix (p := (· ≠ question)) (l := uri)
  split at h
  · cases h
  · rename_i x q heq
    cases h
    exact fun hm => hnul (hsub.subset (heq ▸ List.mem_cons_of_mem _ hm))

lemma unescapeLoop_query_nul {query : Bytes} (hnul : 0 ∉ uri) (h : (unescapeLoop uri).2.1 = some query) :
    0 ∉ query := by
  induction uri using unescapeLoop.induct with
  | case1 => cases h
  | case2 a b s ih =>
    rw [unescapeLoop_percent] at h
    exact ih (fun hm => hnul (by simp [hm])) h
  | case3 s hs =>
    have hshort : s.length < 2 := by
      rcases s with _ | ⟨a, _ | ⟨b, s⟩⟩
      · decide
      · exact Nat.one_lt_two
      · exact (hs a b s rfl).elim
    rw [unescapeLoop_short hshort] at h
    cases h
  | case4 s hp =>
    rw [unescapeLoop_question] at h
    cases h
    exact fun hm => hnul (List.mem_cons_of_mem _ hm)
  | case5 s hp hq =>
    rw [unescapeLoop_hash] at h
    exact queryAfter_nul (fun hm => hnul (List.mem_cons_of_mem _ hm)) h
  | case6 c s hp hq hh ih =>
    rw [unescapeLoop_plain ⟨hp, hq, hh⟩] at h
    exact ih (fun hm => hnul (List.mem_cons_of_mem _ hm)) h

/-- What `unescape_uri` leaves in the array. -/
lemma unescapeAt_mem (hnul : 0 ∉ uri) (tail : Bytes) :
    (unescapeAt true (uri ++ 0 :: tail) 0).mem =
      (unescapeLoop uri).1 ++ 0 :: (uri ++ 0 :: tail).drop ((unescapeLoop uri).1.length + 1) := by
  have hstore := (unescapeAt_start true hnul tail).text
  rw [hstore, store_zero, List.append_assoc, List.singleton_append, List.length_append, List.length_singleton]

/-- The path is read as the request model has it. -/
theorem cstr_strippedIn (cfg : Config) (hnul : 0 ∉ uri) (tail : Bytes) :
    cstr (Request.strippedIn cfg (unescapeAt true (uri ++ 0 :: tail) 0).mem) = acceptedUri cfg uri := by
  have hterm : 0 ∈ (unescapeAt true (uri ++ 0 :: tail) 0).mem := by
    rw [unescapeAt_mem hnul]
    simp
  have hfirst : cstr (unescapeAt true (uri ++ 0 :: tail) 0).mem = (unescapeUri uri).1 := by
    rw [unescapeAt_mem hnul, cstr_terminated]
    rfl
  unfold Request.strippedIn acceptedUri
  split_ifs
  · rw [cstr_stripCaudiumIn (stays_cleanPathnameIn hterm).term, cstr_cleanPathnameIn hterm, hfirst]
  · rw [cstr_cleanPathnameIn hterm, hfirst]

/-- The query string is the one that the list function finds, in each of the arrays. -/
lemma uriArrays_query (hnul : 0 ∉ uri) (tail : Bytes) (env : Env) (c : Request) :
    ∀ m ∈ c.uriArrays env (unescapeAt true (uri ++ 0 :: tail) 0).mem,
      (unescapeAt true (uri ++ 0 :: tail) 0).query.map (fun q => cstr (m.drop q)) = (unescapeLoop uri).2.1 := by
  intro m hm
  have hspec := unescapeAt_start true hnul tail
  have hquery := hspec.query
  rw [if_pos rfl, Nat.zero_add] at hquery
  have hmem := unescapeAt_mem hnul tail
  have hend : (unescapeAt true (uri ++ 0 :: tail) 0).mem[(unescapeLoop uri).1.length]? = some 0 := by
    rw [hmem, List.getElem?_append_right le_rfl, Nat.sub_self]
    rfl
  have hstays := stays_uriArrays env c (List.mem_of_getElem? hend) m hm
  have hshort := length_cstr_le hend
  cases hq : (unescapeAt true (uri ++ 0 :: tail) 0).query <;> cases hf : (unescapeLoop uri).2.1 <;>
    rw [hq, hf] at hquery
  · rfl
  · exact hquery.elim
  · exact hquery.elim
  · rename_i q query
    obtain ⟨hdrop, hlow⟩ := hquery
    -- nothing is written from the query string on
    have hkept : m.drop q = query ++ 0 :: tail := by
      rw [hstays.kept q (hshort.trans_lt hlow), hspec.text, ← hdrop]
      apply drop_store
      rw [List.length_append, List.length_singleton]
      omega
    rw [Option.map_some, hkept, cstr_append_nul (unescapeLoop_query_nul hnul hf)]

/-- On a URI with well-formed escapes `unescape_uri` returns 1 and leaves the decoded path with its
terminator behind it; the query string is everything behind the first `?`, and stays so until
`translate_uri` returns. -/
theorem unescapeAt_keeps_query (hnul : 0 ∉ uri) (hesc : Escaped (pathPart uri)) (tail : Bytes)
    (env : Env) (c : Request) :
    (unescapeAt true (uri ++ 0 :: tail) 0).legal = true ∧
      percentDecode (pathPart uri) ++ [0] <+: (unescapeAt true (uri ++ 0 :: tail) 0).mem ∧
      ∀ m ∈ c.uriArrays env (unescapeAt true (uri ++ 0 :: tail) 0).mem,
        (unescapeAt true (uri ++ 0 :: tail) 0).query.map (fun q => cstr (m.drop q)) = queryAfter uri := by
  have hspec := unescapeAt_start true hnul tail
  have hquery := uriArrays_query hnul tail env c
  have hmem := unescapeAt_mem hnul tail
  have hloop := unescapeLoop_eq hesc
  refine ⟨?_, ?_, ?_⟩
  · rw [hspec.legal, hloop]
  · rw [hmem, hloop]
    exact ⟨_, List.append_assoc _ [0] _⟩
  · rw [hloop] at hquery
    exact hquery

end Query

/-- `/a%62?q%` in an array with something behind it. -/
theorem unescapeAt_keeps_query_sample :
    (unescapeAt true (text "/a%62?q%" ++ 0 :: text "old") 0).legal = true ∧
      percentDecode (pathPart (text "/a%62?q%")) ++ [0] <+:
        (unescapeAt true (text "/a%62?q%" ++ 0 :: text "old") 0).mem ∧
      ∀ m ∈ Request.uriArrays tinyEnv {} (unescapeAt true (text "/a%62?q%" ++ 0 :: text "old") 0).mem,
        (unescapeAt true (text "/a%62?q%" ++ 0 :: text "old") 0).query.map (fun q => cstr (m.drop q)) =
          queryAfter (text "/a%62?q%") :=
  unescapeAt_keeps_query (by decide +kernel) (by decide +kernel) (text "old") tinyEnv {}

end Boa
