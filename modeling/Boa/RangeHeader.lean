import Boa.Delivery

/-! The texts `range_parse` accepts, as a grammar, and what it records of them. -/
namespace Boa

/-- Two strings of digits around a hyphen; an empty one is a number not given. -/
@[ext] structure RangeElement where
  first : Bytes
  last : Bytes
  first_digits : ∀ d ∈ first, isdigit d
  last_digits : ∀ d ∈ last, isdigit d

namespace RangeElement

def Given (e : RangeElement) : Prop := e.first ≠ [] ∨ e.last ≠ []

/-- What the accumulators hold of a string of digits; -1 stands for none. -/
def number (ds : Bytes) : ℕ := if ds = [] then ulongMax else decimal ds % 2 ^ 64

/-- The range that `range_parse` submits for an element. -/
def recorded (e : RangeElement) : Range := ⟨number e.first, number e.last⟩

/-- The range that an element stands for. -/
def exact (e : RangeElement) : Range :=
  ⟨if e.first = [] then ulongMax else decimal e.first, if e.last = [] then ulongMax else decimal e.last⟩

/-- Both numbers are 4294967295: the test for an element without numbers takes it for one. -/
def Clash (e : RangeElement) : Prop := e.recorded = ⟨2 ^ 32 - 1, 2 ^ 32 - 1⟩

end RangeElement

def hyphen : UInt8 := 45
def comma : UInt8 := 44

def Digits (ds : Bytes) : Prop := ∀ d ∈ ds, isdigit d
def Spaces (ws : Bytes) : Prop := ∀ w ∈ ws, isspace w

/-- The end of the text, or a comma. -/
def AtComma (s : Bytes) : Prop := ∀ b ∈ s.head?, b = comma

/-- The end of the text, a comma or white space. -/
def AtBreak (s : Bytes) : Prop := ∀ b ∈ s.head?, b = comma ∨ isspace b

/-- The text behind `bytes=` lists these elements. -/
inductive Listed : Bytes → List RangeElement → Prop
  | done : Listed [] []
  | skip {b : UInt8} {s : Bytes} {es : List RangeElement} (hb : b = comma ∨ isspace b) (h : Listed s es) :
      Listed (b :: s) es
  | bounded {s : Bytes} {es : List RangeElement} (e : RangeElement) {gap gap' : Bytes} (hlast : e.last ≠ [])
      (hgap : Spaces gap) (hgap' : Spaces gap') (hopen : e.first = [] → gap = []) (hnext : AtBreak s)
      (h : Listed s es) : Listed (e.first ++ gap ++ hyphen :: (gap' ++ e.last ++ s)) (e :: es)
  | onward {s : Bytes} {es : List RangeElement} (e : RangeElement) {gap gap' : Bytes} (hlast : e.last = [])
      (hgap : Spaces gap) (hgap' : Spaces gap') (hopen : e.first = [] → gap = []) (hnext : AtComma s)
      (h : Listed s es) : Listed (e.first ++ gap ++ hyphen :: (gap' ++ s)) (e :: es)

section Codes

lemma ccode_digit {b : UInt8} (h : isdigit b) : ccode b = .digit := if_pos h

lemma ccode_white {b : UInt8} (h : isspace b) : ccode b = .white := by
  have hd : ¬ isdigit b = true := by
    simp only [isspace, isdigit, Bool.or_eq_true, beq_iff_eq, decide_eq_true_eq] at h ⊢
    rcases h with rfl | h
    · decide
    · omega
  unfold ccode
  rw [if_neg hd, if_pos h]

lemma ccode_cases (b : UInt8) : (ccode b = .digit ∧ isdigit b) ∨ (ccode b = .white ∧ isspace b) ∨
    (ccode b = .comma ∧ b = comma) ∨ (ccode b = .hyphen ∧ b = hyphen) ∨ ccode b = .other := by
  unfold ccode
  split_ifs with h1 h2 h3 h4
  · exact .inl ⟨rfl, h1⟩
  · exact .inr (.inl ⟨rfl, h2⟩)
  · exact .inr (.inr (.inl ⟨rfl, h3⟩))
  · exact .inr (.inr (.inr (.inl ⟨rfl, h4⟩)))
  · exact .inr (.inr (.inr (.inr rfl)))

/-- The value of more digits behind a value, on 64 bits. -/
def accumulate (n : ℕ) (ds : Bytes) : ℕ := ds.foldl (fun n d => (n * 10 + (d.toNat - 48)) % 2 ^ 64) n

lemma accumulate_mod (n : ℕ) (ds : Bytes) : accumulate (n % 2 ^ 64) ds % 2 ^ 64 =
    ds.foldl (fun n d => 10 * n + (d.toNat - 48)) n % 2 ^ 64 := by
  induction ds generalizing n with
  | nil => exact Nat.mod_mod n _
  | cons d ds ih =>
    rw [List.foldl_cons, ← ih]
    unfold accumulate
    rw [List.foldl_cons]
    congr 2
    omega

lemma accumulate_lt {n : ℕ} (hn : n < 2 ^ 64) (ds : Bytes) : accumulate n ds < 2 ^ 64 := by
  induction ds generalizing n with
  | nil => exact hn
  | cons d ds ih => exact ih (Nat.mod_lt _ (by decide))

lemma accumulate_zero {ds : Bytes} (h : ds ≠ []) : accumulate 0 ds = RangeElement.number ds := by
  have hmod := accumulate_mod 0 ds
  rw [Nat.zero_mod, Nat.mod_eq_of_lt (accumulate_lt (by decide) ds)] at hmod
  rw [hmod]
  unfold RangeElement.number decimal
  rw [if_neg h]

end Codes

section Accepts

variable {n m : ℕ} {ds ws s : Bytes} {es : List RangeElement}

lemma rangeLoop_digits_first (hds : Digits ds) :
    rangeLoop ⟨.startnum, n, m⟩ (ds ++ s) = rangeLoop ⟨.startnum, accumulate n ds, m⟩ s := by
  induction ds generalizing n with
  | nil => rfl
  | cons d ds ih =>
    rw [List.cons_append, rangeLoop, ccode_digit (hds d List.mem_cons_self)]
    exact ih fun x hx => hds x (List.mem_cons_of_mem d hx)

lemma rangeLoop_digits_last (hds : Digits ds) :
    rangeLoop ⟨.stopnum, n, m⟩ (ds ++ s) = rangeLoop ⟨.stopnum, n, accumulate m ds⟩ s := by
  induction ds generalizing m with
  | nil => rfl
  | cons d ds ih =>
    rw [List.cons_append, rangeLoop, ccode_digit (hds d List.mem_cons_self)]
    exact ih fun x hx => hds x (List.mem_cons_of_mem d hx)

lemma rangeLoop_spaces_gap2 (hws : Spaces ws) :
    rangeLoop ⟨.gap2, n, m⟩ (ws ++ s) = rangeLoop ⟨.gap2, n, m⟩ s := by
  induction ws with
  | nil => rfl
  | cons w ws ih =>
    rw [List.cons_append, rangeLoop, ccode_white (hws w List.mem_cons_self)]
    exact ih fun x hx => hws x (List.mem_cons_of_mem w hx)

lemma rangeLoop_spaces_gap1 (hws : Spaces ws) :
    rangeLoop ⟨.gap1, n, m⟩ (ws ++ hyphen :: s) = rangeLoop ⟨.gap2, n, m⟩ s := by
  induction ws with
  | nil => rfl
  | cons w ws ih =>
    rw [List.cons_append, rangeLoop, ccode_white (hws w List.mem_cons_self)]
    exact ih fun x hx => hws x (List.mem_cons_of_mem w hx)

lemma rangeLoop_spaces_first (hws : Spaces ws) :
    rangeLoop ⟨.startnum, n, m⟩ (ws ++ hyphen :: s) = rangeLoop ⟨.gap2, n, m⟩ s := by
  cases ws with
  | nil => rfl
  | cons w ws =>
    rw [List.cons_append, rangeLoop, ccode_white (hws w List.mem_cons_self)]
    exact rangeLoop_spaces_gap1 fun x hx => hws x (List.mem_cons_of_mem w hx)

/-- Up to the hyphen of an element. -/
lemma rangeLoop_hyphen (hds : Digits ds) (hws : Spaces ws) (hopen : ds = [] → ws = []) :
    rangeLoop {} (ds ++ ws ++ hyphen :: s) = rangeLoop ⟨.gap2, RangeElement.number ds, 0⟩ s := by
  cases ds with
  | nil =>
    rw [hopen rfl]
    rfl
  | cons d ds =>
    have htail : Digits ds := fun x hx => hds x (List.mem_cons_of_mem d hx)
    have hstep : rangeLoop {} (d :: ds ++ ws ++ hyphen :: s) =
        rangeLoop ⟨.startnum, accumulate 0 (d :: ds), 0⟩ (ws ++ hyphen :: s) := by
      rw [List.append_assoc, List.cons_append, rangeLoop, ccode_digit (hds d List.mem_cons_self)]
      exact rangeLoop_digits_first htail
    rw [hstep, rangeLoop_spaces_first hws, accumulate_zero (List.cons_ne_nil d ds)]

/-- From the hyphen of an element to behind its second number. -/
lemma rangeLoop_stop (hws : Spaces ws) (hds : Digits ds) (hne : ds ≠ []) :
    rangeLoop ⟨.gap2, n, 0⟩ (ws ++ ds ++ s) = rangeLoop ⟨.stopnum, n, RangeElement.number ds⟩ s := by
  rw [List.append_assoc, rangeLoop_spaces_gap2 hws, ← accumulate_zero hne]
  cases ds with
  | nil => exact absurd rfl hne
  | cons d ds =>
    have htail : Digits ds := fun x hx => hds x (List.mem_cons_of_mem d hx)
    rw [List.cons_append, rangeLoop, ccode_digit (hds d List.mem_cons_self)]
    exact rangeLoop_digits_last htail

lemma rangeLoop_skip {b : UInt8} (hb : b = comma ∨ isspace b) : rangeLoop {} (b :: s) = rangeLoop {} s := by
  rcases hb with rfl | hb
  · rfl
  · rw [rangeLoop, ccode_white hb]
    rfl

/-- The round that submits a range with both ends in place. -/
lemma rangeRound_stop {cc : Ccode} (hcc : cc = .white ∨ cc = .comma ∨ cc = .null) (k : ℕ) :
    rangeRound ⟨.stopnum, n, m⟩ cc k =
      if n = m ∧ n = 2 ^ 32 - 1 then none else some ([⟨n, m⟩], {}) := by
  rcases hcc with rfl | rfl | rfl <;> rfl

lemma rangeRound_open {cc : Ccode} (hcc : cc = .comma ∨ cc = .null) (k : ℕ) :
    rangeRound ⟨.gap2, n, m⟩ cc k = some ([⟨n, ulongMax⟩], {}) := by
  have hmax : ¬ (n = ulongMax ∧ n = 2 ^ 32 - 1) := fun h => absurd (h.1.symm.trans h.2) (by decide)
  have hround : rangeRound ⟨.gap2, n, m⟩ cc k =
      if n = ulongMax ∧ n = 2 ^ 32 - 1 then none else some ([⟨n, ulongMax⟩], {}) := by
    rcases hcc with rfl | rfl <;> rfl
  rw [hround, if_neg hmax]

/-- A range is submitted where its text ends, and the rest is read from the initial state. -/
lemma rangeLoop_submit (hnext : AtBreak s) :
    rangeLoop ⟨.stopnum, n, m⟩ s =
      if n = m ∧ n = 2 ^ 32 - 1 then ([], false)
      else (⟨n, m⟩ :: (rangeLoop {} s).1, (rangeLoop {} s).2) := by
  cases s with
  | nil =>
    rw [rangeLoop, rangeRound_stop (.inr (.inr rfl))]
    by_cases h : n = m ∧ n = 2 ^ 32 - 1
    · rw [if_pos h, if_pos h]
    · rw [if_neg h, if_neg h]
      rfl
  | cons b s =>
    have hb : b = comma ∨ isspace b := hnext b (by simp)
    have hcode : ccode b = .white ∨ ccode b = .comma ∨ ccode b = .null := by
      rcases hb with rfl | hb
      · exact .inr (.inl rfl)
      · exact .inl (ccode_white hb)
    rw [rangeLoop_skip hb, rangeLoop, rangeRound_stop hcode]
    by_cases h : n = m ∧ n = 2 ^ 32 - 1
    · rw [if_pos h, if_pos h]
    · rw [if_neg h, if_neg h]
      rfl

lemma rangeLoop_submit_open (hnext : AtComma s) :
    rangeLoop ⟨.gap2, n, m⟩ s = (⟨n, ulongMax⟩ :: (rangeLoop {} s).1, (rangeLoop {} s).2) := by
  cases s with
  | nil =>
    rw [rangeLoop, rangeRound_open (.inr rfl)]
    rfl
  | cons b s =>
    obtain rfl : b = comma := hnext b (by simp)
    rw [rangeLoop_skip (.inl rfl), rangeLoop, show ccode comma = .comma from rfl, rangeRound_open (.inl rfl)]
    rfl

/-- What a listed text makes the loop do: it records the elements unless one of them looks as
if it had no numbers. -/
lemma rangeLoop_listed (h : Listed s es) :
    ((∀ e ∈ es, ¬ e.Clash) → rangeLoop {} s = (es.map RangeElement.recorded, true)) ∧
      ((∃ e ∈ es, e.Clash) → (rangeLoop {} s).2 = false) := by
  have hclash : ∀ e : RangeElement, e.Clash ↔
      RangeElement.number e.first = RangeElement.number e.last ∧ RangeElement.number e.first = 2 ^ 32 - 1 := by
    intro e
    unfold RangeElement.Clash RangeElement.recorded
    rw [Range.mk.injEq]
    omega
  induction h with
  | done => exact ⟨fun _ => rfl, fun ⟨e, he, _⟩ => absurd he List.not_mem_nil⟩
  | skip hb h ih =>
    rw [rangeLoop_skip hb]
    exact ih
  | @bounded s es e gap gap' hlast hgap hgap' hopen hnext h ih =>
    rw [rangeLoop_hyphen e.first_digits hgap hopen, rangeLoop_stop hgap' e.last_digits hlast,
      rangeLoop_submit hnext]
    by_cases he : e.Clash
    · rw [if_pos ((hclash e).mp he)]
      exact ⟨fun hall => absurd he (hall e List.mem_cons_self), fun _ => rfl⟩
    · rw [if_neg (mt (hclash e).mpr he)]
      refine ⟨fun hall => ?_, fun ⟨d, hd, hdc⟩ => ?_⟩
      · rw [ih.1 fun d hd => hall d (List.mem_cons_of_mem e hd)]
        rfl
      · rcases List.mem_cons.mp hd with rfl | hd
        · exact absurd hdc he
        · exact ih.2 ⟨d, hd, hdc⟩
  | @onward s es e gap gap' hlast hgap hgap' hopen hnext h ih =>
    rw [rangeLoop_hyphen e.first_digits hgap hopen, rangeLoop_spaces_gap2 hgap',
      rangeLoop_submit_open hnext]
    have hnum : RangeElement.number e.last = ulongMax := if_pos hlast
    have he : ¬ e.Clash := by
      intro hc
      have hc := (hclash e).mp hc
      rw [hnum] at hc
      exact absurd (hc.1.symm.trans hc.2) (by decide)
    refine ⟨fun hall => ?_, fun ⟨d, hd, hdc⟩ => ?_⟩
    · rw [ih.1 fun d hd => hall d (List.mem_cons_of_mem e hd), List.map_cons]
      unfold RangeElement.recorded
      rw [hnum]
    · rcases List.mem_cons.mp hd with rfl | hd
      · exact absurd hdc he
      · exact ih.2 ⟨d, hd, hdc⟩

end Accepts

section Rejects

variable {s : Bytes} {b : UInt8}

/-- What can follow the hyphen of an element. -/
def ListedTail (s : Bytes) : Prop :=
  (∃ gap ds r, s = gap ++ ds ++ r ∧ Spaces gap ∧ Digits ds ∧ ds ≠ [] ∧ AtBreak r ∧ ∃ es, Listed r es) ∨
    ∃ gap r, s = gap ++ r ∧ Spaces gap ∧ AtComma r ∧ ∃ es, Listed r es

/-- What the loop accepts in each of its modes. -/
def ListedFrom : RangeMode → Bytes → Prop
  | .initial, s => ∃ es, Listed s es
  | .startnum, s => ∃ ds gap r, s = ds ++ gap ++ hyphen :: r ∧ Digits ds ∧ Spaces gap ∧ ListedTail r
  | .gap1, s => ∃ gap r, s = gap ++ hyphen :: r ∧ Spaces gap ∧ ListedTail r
  | .gap2, s => ListedTail s
  | .stopnum, s => ∃ ds r, s = ds ++ r ∧ Digits ds ∧ AtBreak r ∧ ∃ es, Listed r es

lemma digits_cons {ds : Bytes} (hb : isdigit b) (h : Digits ds) : Digits (b :: ds) :=
  List.forall_mem_cons.mpr ⟨hb, h⟩

lemma spaces_cons {ws : Bytes} (hb : isspace b) (h : Spaces ws) : Spaces (b :: ws) :=
  List.forall_mem_cons.mpr ⟨hb, h⟩

lemma digits_nil : Digits [] := List.forall_mem_nil _
lemma spaces_nil : Spaces [] := List.forall_mem_nil _

lemma listed_of_tail {first gap : Bytes} (hfirst : Digits first) (hgap : Spaces gap)
    (hopen : first = [] → gap = []) (h : ListedTail s) : ∃ es, Listed (first ++ gap ++ hyphen :: s) es := by
  rcases h with ⟨gap', ds, r, rfl, hgap', hds, hne, hr, es, hes⟩ | ⟨gap', r, rfl, hgap', hr, es, hes⟩
  · exact ⟨_, .bounded ⟨first, ds, hfirst, hds⟩ hne hgap hgap' hopen hr hes⟩
  · exact ⟨_, .onward ⟨first, [], hfirst, digits_nil⟩ rfl hgap hgap' hopen hr hes⟩

/-- One round backwards: what is accepted behind a character is accepted with it. -/
lemma listedFrom_cons {mode : RangeMode} (hact : (stable mode (ccode b)).2.1 ≠ .abort)
    (h : ListedFrom (stable mode (ccode b)).2.2 s) : ListedFrom mode (b :: s) := by
  rcases ccode_cases b with ⟨hc, hb⟩ | ⟨hc, hb⟩ | ⟨hc, rfl⟩ | ⟨hc, rfl⟩ | hc <;> rw [hc] at hact h
  · -- a digit opens an element or continues one of its numbers
    cases mode with
    | initial =>
      obtain ⟨ds, gap, r, rfl, hds, hgap, hr⟩ := h
      exact listed_of_tail (digits_cons hb hds) hgap nofun hr
    | startnum =>
      obtain ⟨ds, gap, r, rfl, hds, hgap, hr⟩ := h
      exact ⟨b :: ds, gap, r, rfl, digits_cons hb hds, hgap, hr⟩
    | gap1 => exact absurd rfl hact
    | gap2 =>
      obtain ⟨ds, r, rfl, hds, hr, hes⟩ := h
      exact .inl ⟨[], b :: ds, r, rfl, spaces_nil, digits_cons hb hds, List.cons_ne_nil b ds, hr, hes⟩
    | stopnum =>
      obtain ⟨ds, r, rfl, hds, hr, hes⟩ := h
      exact ⟨b :: ds, r, rfl, digits_cons hb hds, hr, hes⟩
  · cases mode with
    | initial =>
      obtain ⟨es, hes⟩ := h
      exact ⟨es, .skip (.inr hb) hes⟩
    | startnum =>
      obtain ⟨gap, r, rfl, hgap, hr⟩ := h
      exact ⟨[], b :: gap, r, rfl, digits_nil, spaces_cons hb hgap, hr⟩
    | gap1 =>
      obtain ⟨gap, r, rfl, hgap, hr⟩ := h
      exact ⟨b :: gap, r, rfl, spaces_cons hb hgap, hr⟩
    | gap2 =>
      rcases h with ⟨gap, ds, r, rfl, hgap, hds, hne, hr, hes⟩ | ⟨gap, r, rfl, hgap, hr, hes⟩
      · exact .inl ⟨b :: gap, ds, r, rfl, spaces_cons hb hgap, hds, hne, hr, hes⟩
      · exact .inr ⟨b :: gap, r, rfl, spaces_cons hb hgap, hr, hes⟩
    | stopnum =>
      obtain ⟨es, hes⟩ := h
      refine ⟨[], b :: s, rfl, digits_nil, fun x hx => ?_, es, .skip (.inr hb) hes⟩
      obtain rfl : b = x := by simpa using hx
      exact .inr hb
  · cases mode with
    | initial =>
      obtain ⟨es, hes⟩ := h
      exact ⟨es, .skip (.inl rfl) hes⟩
    | startnum => exact absurd rfl hact
    | gap1 => exact absurd rfl hact
    | gap2 =>
      obtain ⟨es, hes⟩ := h
      refine .inr ⟨[], comma :: s, rfl, spaces_nil, fun x hx => ?_, es, .skip (.inl rfl) hes⟩
      simpa using hx.symm
    | stopnum =>
      obtain ⟨es, hes⟩ := h
      refine ⟨[], comma :: s, rfl, digits_nil, fun x hx => ?_, es, .skip (.inl rfl) hes⟩
      obtain rfl : comma = x := by simpa using hx
      exact .inl rfl
  · cases mode with
    | initial => exact listed_of_tail digits_nil spaces_nil (fun _ => rfl) h
    | startnum => exact ⟨[], [], s, rfl, digits_nil, spaces_nil, h⟩
    | gap1 => exact ⟨[], s, rfl, spaces_nil, h⟩
    | gap2 => exact absurd rfl hact
    | stopnum => exact absurd rfl hact
  · cases mode <;> exact absurd rfl hact

lemma rangeRound_some {st d : RangeState} {cc : Ccode} {k : ℕ} {rs : List Range}
    (h : rangeRound st cc k = some (rs, d)) :
    (stable st.mode cc).2.1 ≠ .abort ∧ d.mode = (stable st.mode cc).2.2 := by
  revert h
  unfold rangeRound
  generalize stable st.mode cc = entry
  obtain ⟨p, act, mode⟩ := entry
  cases act with
  | none =>
    rintro ⟨⟩
    exact ⟨nofun, rfl⟩
  | abort => exact nofun
  | submit =>
    dsimp only
    split_ifs
    · exact nofun
    · rintro ⟨⟩
      exact ⟨nofun, rfl⟩

/-- Whatever the loop accepts is a list. -/
lemma listedFrom_of_rangeLoop {st : RangeState} (h : (rangeLoop st s).2 = true) : ListedFrom st.mode s := by
  induction s generalizing st with
  | nil =>
    rw [rangeLoop] at h
    obtain ⟨mode, n, m⟩ := st
    cases mode with
    | initial => exact ⟨[], .done⟩
    | startnum => exact absurd h Bool.false_ne_true
    | gap1 => exact absurd h Bool.false_ne_true
    | gap2 => exact .inr ⟨[], [], rfl, spaces_nil, nofun, [], .done⟩
    | stopnum => exact ⟨[], [], rfl, digits_nil, nofun, [], .done⟩
  | cons b s ih =>
    rw [rangeLoop] at h
    cases hround : rangeRound st (ccode b) (b.toNat - 48) with
    | none =>
      rw [hround] at h
      exact absurd h Bool.false_ne_true
    | some r =>
      obtain ⟨rs, d⟩ := r
      rw [hround] at h
      obtain ⟨hact, hmode⟩ := rangeRound_some hround
      have hrest := ih h
      rw [hmode] at hrest
      exact listedFrom_cons hact hrest

end Rejects

/-- The value of a Range header: the listed elements behind `bytes=`. -/
def RangeHeader (str : Bytes) (es : List RangeElement) : Prop :=
  startsWithCase (text "bytes=") str = true ∧ Listed (str.drop 6) es

section Parse

variable {c : Request} {str : Bytes} {es : List RangeElement}

lemma rangeParse_listed (h : RangeHeader str es) (hclash : ∀ e ∈ es, ¬ e.Clash) :
    c.rangeParse str = ({ c with
      ranges := c.ranges ++ es.map RangeElement.recorded
      numranges := c.numranges + es.length }, true) := by
  unfold Request.rangeParse
  rw [h.1, (rangeLoop_listed h.2).1 hclash]
  simp

lemma rangeParse_clash (h : RangeHeader str es) (hclash : ∃ e ∈ es, e.Clash) :
    (c.rangeParse str).2 = false := by
  unfold Request.rangeParse
  have hloop := (rangeLoop_listed h.2).2 hclash
  simp [h.1, hloop]

lemma rangeParse_cases (c : Request) (str : Bytes) :
    (startsWithCase (text "bytes=") str = false ∧ c.rangeParse str = (c, false)) ∨
    (startsWithCase (text "bytes=") str = true ∧ (rangeLoop {} (str.drop 6)).2 = true ∧
      (c.rangeParse str).2 = true) ∨
    (startsWithCase (text "bytes=") str = true ∧ (rangeLoop {} (str.drop 6)).2 = false ∧
      (c.rangeParse str).2 = false ∧ (c.rangeParse str).1.ranges = [⟨0, ulongMax⟩]) := by
  unfold Request.rangeParse
  cases hpre : startsWithCase (text "bytes=") str with
  | false => exact .inl ⟨rfl, rfl⟩
  | true =>
    cases hloop : (rangeLoop {} (str.drop 6)).2 with
    | true => exact .inr (.inl ⟨rfl, rfl, by simp [hloop]⟩)
    | false => exact .inr (.inr ⟨rfl, rfl, by simp [hloop], by simp [hloop]⟩)

lemma rangeHeader_of_rangeParse (h : (c.rangeParse str).2 = true) : ∃ es, RangeHeader str es := by
  rcases rangeParse_cases c str with ⟨-, he⟩ | ⟨hpre, hloop, -⟩ | ⟨-, -, he, -⟩
  · rw [he] at h
    exact absurd h Bool.false_ne_true
  · obtain ⟨es, hes⟩ := listedFrom_of_rangeLoop hloop
    exact ⟨es, hpre, hes⟩
  · rw [he] at h
    exact absurd h Bool.false_ne_true

lemma rangeParse_refused (h : (c.rangeParse str).2 = false) : (c.rangeParse str).1.ranges =
    if startsWithCase (text "bytes=") str then [⟨0, ulongMax⟩] else c.ranges := by
  rcases rangeParse_cases c str with ⟨hpre, he⟩ | ⟨-, -, he⟩ | ⟨hpre, -, -, he⟩
  · rw [he, hpre]
    rfl
  · rw [he] at h
    exact absurd h.symm Bool.false_ne_true
  · rw [he, hpre]
    rfl

end Parse

/-- No run of digits in the text denotes 2^32 - 1 or more. -/
def SmallNumbers (str : Bytes) : Prop := ∀ ds, ds <:+: str → Digits ds → decimal ds < 2 ^ 32 - 1

/-- `range_parse` accepts exactly the lists of elements with at least one number, appends what
they stand for, and otherwise leaves the marker of an error, or nothing new without `bytes=`. -/
structure Request.ParsesRanges (c : Request) (str : Bytes) : Prop where
  accepts : ∀ es, RangeHeader str es → (∀ e ∈ es, e.Given) → c.rangeParse str = ({ c with
    ranges := c.ranges ++ es.map RangeElement.exact
    numranges := c.numranges + es.length }, true)
  rejects : (¬ ∃ es, RangeHeader str es ∧ ∀ e ∈ es, e.Given) → (c.rangeParse str).2 = false ∧
    (c.rangeParse str).1.ranges = if startsWithCase (text "bytes=") str then [⟨0, ulongMax⟩] else c.ranges

section Small

variable {str s : Bytes} {es : List RangeElement}

lemma decimal_lt {ds : Bytes} (h : Digits ds) : decimal ds < 10 ^ ds.length := by
  have hfold : ∀ n, ds.foldl (fun n d => 10 * n + (d.toNat - 48)) n < (n + 1) * 10 ^ ds.length := by
    induction ds with
    | nil => exact fun n => by simp
    | cons d ds ih =>
      intro n
      have hd : d.toNat - 48 ≤ 9 := by
        have hd := h d List.mem_cons_self
        simp only [isdigit, decide_eq_true_eq] at hd
        omega
      have ih := ih (fun x hx => h x (List.mem_cons_of_mem d hx)) (10 * n + (d.toNat - 48))
      rw [List.foldl_cons, List.length_cons]
      calc _ < (10 * n + (d.toNat - 48) + 1) * 10 ^ ds.length := ih
        _ ≤ ((n + 1) * 10) * 10 ^ ds.length := Nat.mul_le_mul_right _ (by omega)
        _ = (n + 1) * 10 ^ (ds.length + 1) := by rw [Nat.pow_succ, Nat.mul_assoc, Nat.mul_comm 10]
  have hzero := hfold 0
  rwa [Nat.zero_add, Nat.one_mul] at hzero

/-- The numbers of nine digits are small. -/
lemma smallNumbers_of_length (h : str.length ≤ 9) : SmallNumbers str := by
  intro ds hds hdigits
  have hlen := hds.length_le
  have hpow : 10 ^ ds.length ≤ 10 ^ 9 := Nat.pow_le_pow_right (by decide) (by omega)
  have hlt := decimal_lt hdigits
  omega

/-- The numbers of a listed element occur in the text. -/
lemma Listed.mem_within (h : Listed s es) : ∀ e ∈ es, e.first <:+: s ∧ e.last <:+: s := by
  induction h with
  | done => exact fun e he => absurd he List.not_mem_nil
  | @skip b s es hb h ih =>
    exact fun e he => ⟨(ih e he).1.trans (List.suffix_cons b s).isInfix,
      (ih e he).2.trans (List.suffix_cons b s).isInfix⟩
  | @bounded s es e gap gap' hlast hgap hgap' hopen hnext h ih =>
    intro d hd
    rcases List.mem_cons.mp hd with rfl | hd
    · exact ⟨⟨[], gap ++ hyphen :: (gap' ++ d.last ++ s), by simp⟩,
        ⟨d.first ++ gap ++ hyphen :: gap', s, by simp⟩⟩
    · have hs : s <:+: e.first ++ gap ++ hyphen :: (gap' ++ e.last ++ s) :=
        ⟨e.first ++ gap ++ hyphen :: (gap' ++ e.last), [], by simp⟩
      exact ⟨(ih d hd).1.trans hs, (ih d hd).2.trans hs⟩
  | @onward s es e gap gap' hlast hgap hgap' hopen hnext h ih =>
    intro d hd
    rcases List.mem_cons.mp hd with rfl | hd
    · exact ⟨⟨[], gap ++ hyphen :: (gap' ++ s), by simp⟩, by rw [hlast]; exact List.nil_infix⟩
    · have hs : s <:+: e.first ++ gap ++ hyphen :: (gap' ++ s) :=
        ⟨e.first ++ gap ++ hyphen :: gap', [], by simp⟩
      exact ⟨(ih d hd).1.trans hs, (ih d hd).2.trans hs⟩

/-- Small numbers are recorded as they are. -/
lemma recorded_eq_exact (hsmall : SmallNumbers str) (h : RangeHeader str es) :
    ∀ e ∈ es, e.recorded = e.exact ∧ ¬ e.Clash := by
  intro e he
  obtain ⟨h1, h2⟩ := h.2.mem_within e he
  have hfirst := hsmall e.first (h1.trans (List.drop_suffix 6 str).isInfix) e.first_digits
  have hlast := hsmall e.last (h2.trans (List.drop_suffix 6 str).isInfix) e.last_digits
  have hmax : ulongMax = 2 ^ 64 - 1 := rfl
  refine ⟨?_, fun hc => ?_⟩
  · unfold RangeElement.recorded RangeElement.exact RangeElement.number
    rw [Nat.mod_eq_of_lt (by omega), Nat.mod_eq_of_lt (by omega)]
  · have hc := congrArg Range.start hc
    have hc : RangeElement.number e.first = 2 ^ 32 - 1 := hc
    unfold RangeElement.number at hc
    split_ifs at hc <;> omega

lemma given_iff_exact (hsmall : SmallNumbers str) (h : RangeHeader str es) :
    ∀ e ∈ es, e.Given ↔ e.exact ≠ ⟨ulongMax, ulongMax⟩ := by
  intro e he
  obtain ⟨h1, h2⟩ := h.2.mem_within e he
  have hfirst := hsmall e.first (h1.trans (List.drop_suffix 6 str).isInfix) e.first_digits
  have hlast := hsmall e.last (h2.trans (List.drop_suffix 6 str).isInfix) e.last_digits
  have hmax : ulongMax = 2 ^ 64 - 1 := rfl
  unfold RangeElement.Given RangeElement.exact
  by_cases hf : e.first = []
  · by_cases hl : e.last = []
    · simp [hf, hl]
    · simp only [hf, hl, if_true, if_false, ne_eq, not_true_eq_false, not_false_eq_true, false_or,
        Range.mk.injEq, true_and, true_iff]
      omega
  · simp only [hf, if_false, ne_eq, not_false_eq_true, true_or, true_iff, Range.mk.injEq, not_and]
    omega

end Small

/-- `range_parse` accepts its grammar, and nothing but it, unless a list has an element without
numbers. -/
theorem rangeParse_grammar_iff {c : Request} {str : Bytes} (hsmall : SmallNumbers str) :
    c.ParsesRanges str ↔ ¬ ∃ es, RangeHeader str es ∧ ∃ e ∈ es, ¬ e.Given := by
  have hparse : ∀ es, RangeHeader str es → c.rangeParse str = ({ c with
      ranges := c.ranges ++ es.map RangeElement.exact
      numranges := c.numranges + es.length }, true) := by
    intro es h
    rw [rangeParse_listed h fun e he => (recorded_eq_exact hsmall h e he).2,
      List.map_congr_left fun e he => (recorded_eq_exact hsmall h e he).1]
  constructor
  · rintro hp ⟨es, hes, e, he, hhollow⟩
    -- another reading of the text would record the same ranges, and so lack a number too
    have hnone : ¬ ∃ es, RangeHeader str es ∧ ∀ e ∈ es, e.Given := by
      rintro ⟨es', hes', hgiven⟩
      have heq := congrArg (fun r => r.1.ranges) ((hparse es hes).symm.trans (hparse es' hes'))
      have heq : es.map RangeElement.exact = es'.map RangeElement.exact := List.append_cancel_left heq
      have hmem : e.exact ∈ es'.map RangeElement.exact := heq ▸ List.mem_map_of_mem he
      obtain ⟨e', he', hsame⟩ := List.mem_map.mp hmem
      have hne := (given_iff_exact hsmall hes' e' he').mp (hgiven e' he')
      rw [hsame] at hne
      exact hhollow ((given_iff_exact hsmall hes e he).mpr hne)
    have hfalse := (hp.rejects hnone).1
    rw [hparse es hes] at hfalse
    exact absurd hfalse.symm Bool.false_ne_true
  · intro hall
    have hgiven : ∀ es, RangeHeader str es → ∀ e ∈ es, e.Given := by
      intro es hes e he
      by_contra hn
      exact hall ⟨es, hes, e, he, hn⟩
    refine ⟨fun es hes _ => hparse es hes, fun hnone => ?_⟩
    have hfalse : (c.rangeParse str).2 = false := by
      rw [← Bool.not_eq_true]
      intro htrue
      obtain ⟨es, hes⟩ := rangeHeader_of_rangeParse htrue
      exact hnone ⟨es, hes, hgiven es hes⟩
    exact ⟨hfalse, rangeParse_refused hfalse⟩

theorem rangeParse_grammar_short : Request.ParsesRanges {} (text "bytes=2-3") := by
  refine (rangeParse_grammar_iff (smallNumbers_of_length (by decide +kernel))).mpr ?_
  rintro ⟨es, hes, e, he, hhollow⟩
  have hloop : (rangeLoop {} ((text "bytes=2-3").drop 6)).1 = [⟨2, 3⟩] := by decide +kernel
  have hsmall : SmallNumbers (text "bytes=2-3") := smallNumbers_of_length (by decide +kernel)
  rw [(rangeLoop_listed hes.2).1 fun d hd => (recorded_eq_exact hsmall hes d hd).2] at hloop
  have hmem : e.recorded ∈ es.map RangeElement.recorded := List.mem_map_of_mem he
  have hloop : es.map RangeElement.recorded = [⟨2, 3⟩] := hloop
  have hnone : ¬ (⟨ulongMax, ulongMax⟩ : Range) ∈ [(⟨2, 3⟩ : Range)] := by decide
  have hboth : e.first = [] ∧ e.last = [] := by simpa [RangeElement.Given] using hhollow
  rw [hloop] at hmem
  unfold RangeElement.recorded RangeElement.number at hmem
  rw [if_pos hboth.1, if_pos hboth.2] at hmem
  exact hnone hmem

/-- A bare hyphen is taken for a range. -/
theorem hollow_accepted : ∃ (c : Request) (str : Bytes), SmallNumbers str ∧ (c.rangeParse str).2 = true ∧
    (c.rangeParse str).1.ranges = [⟨ulongMax, ulongMax⟩] ∧ ¬ c.ParsesRanges str := by
  refine ⟨{}, text "bytes=-", smallNumbers_of_length (by decide +kernel), by decide +kernel,
    by decide +kernel, fun hp => ?_⟩
  have hmem : ∀ d ∈ (text "bytes=-").drop 6, ¬ isdigit d := by decide +kernel
  have hnone : ¬ ∃ es, RangeHeader (text "bytes=-") es ∧ ∀ e ∈ es, e.Given := by
    rintro ⟨es, hes, hgiven⟩
    have hempty : ∀ ds : Bytes, ds <:+: (text "bytes=-").drop 6 → Digits ds → ds = [] := by
      intro ds hds hdigits
      refine List.eq_nil_iff_forall_not_mem.mpr fun d hd => ?_
      exact hmem d (hds.subset hd) (hdigits d hd)
    have hnil : es = [] := by
      refine List.eq_nil_iff_forall_not_mem.mpr fun e he => ?_
      obtain ⟨h1, h2⟩ := hes.2.mem_within e he
      rcases hgiven e he with hg | hg
      · exact hg (hempty e.first h1 e.first_digits)
      · exact hg (hempty e.last h2 e.last_digits)
    have hranges := congrArg (fun r => r.1.ranges) (hp.accepts es hes hgiven)
    rw [hnil] at hranges
    exact absurd hranges (by decide +kernel)
  have hfalse := (hp.rejects hnone).1
  exact absurd hfalse (by decide +kernel)

/-- The numbers given for an element are recorded as such: they are neither reduced nor one of the
values that `ranges_fixup` takes for a missing number. -/
structure RangeElement.Keeps (e : RangeElement) (r : Range) : Prop where
  start : e.first ≠ [] → r.start = decimal e.first ∧ r.start ≠ ulongMax
  stop : e.last ≠ [] → r.stop = decimal e.last ∧ r.stop ≠ ulongMax ∧ r.stop ≠ 2 ^ 32 - 1

/-- The numbers given for an element fit the accumulators and are no marker. -/
def RangeElement.Fits (e : RangeElement) : Prop :=
  (e.first ≠ [] → decimal e.first < 2 ^ 64 - 1) ∧
    (e.last ≠ [] → decimal e.last < 2 ^ 64 - 1 ∧ decimal e.last ≠ 2 ^ 32 - 1)

/-- Unless the header is rejected, each of its elements keeps its numbers. -/
def Request.KeepsNumbers (c : Request) (str : Bytes) : Prop :=
  ∀ es, RangeHeader str es → (c.rangeParse str).2 = true →
    ∃ rs, (c.rangeParse str).1.ranges = c.ranges ++ rs ∧ List.Forall₂ RangeElement.Keeps es rs

lemma RangeElement.keeps_recorded_iff (e : RangeElement) : e.Keeps e.recorded ↔ e.Fits := by
  have hmax : ulongMax = 2 ^ 64 - 1 := rfl
  have hnum : ∀ ds : Bytes, ds ≠ [] → number ds = decimal ds % 2 ^ 64 := fun ds h => if_neg h
  have hlt : ∀ n : ℕ, n % 2 ^ 64 < 2 ^ 64 := fun n => Nat.mod_lt n (by decide)
  constructor
  · rintro ⟨h1, h2⟩
    refine ⟨fun h => ?_, fun h => ?_⟩
    · obtain ⟨heq, hne⟩ := h1 h
      have heq : number e.first = decimal e.first := heq
      have hne : number e.first ≠ ulongMax := hne
      have := hlt (decimal e.first)
      rw [hnum e.first h] at heq hne
      omega
    · obtain ⟨heq, hne, hne'⟩ := h2 h
      have heq : number e.last = decimal e.last := heq
      have hne : number e.last ≠ ulongMax := hne
      have hne' : number e.last ≠ 2 ^ 32 - 1 := hne'
      have := hlt (decimal e.last)
      rw [hnum e.last h] at heq hne hne'
      omega
  · rintro ⟨h1, h2⟩
    refine ⟨fun h => ?_, fun h => ?_⟩
    · have hlt := h1 h
      show number e.first = _ ∧ number e.first ≠ _
      rw [hnum e.first h, Nat.mod_eq_of_lt (by omega)]
      exact ⟨rfl, by omega⟩
    · obtain ⟨hlt, hne⟩ := h2 h
      show number e.last = _ ∧ number e.last ≠ _ ∧ number e.last ≠ _
      rw [hnum e.last h, Nat.mod_eq_of_lt (by omega)]
      exact ⟨rfl, by omega, hne⟩

/-- Numbers are kept exactly if they all fit, or one element gives 4294967295 (modulo 2^64) for
both of its numbers, which rejects the header. -/
theorem rangeParse_keeps_iff {c : Request} {str : Bytes} : c.KeepsNumbers str ↔
    ∀ es, RangeHeader str es → (∃ e ∈ es, e.Clash) ∨ ∀ e ∈ es, e.Fits := by
  refine forall₂_congr fun es hes => ?_
  by_cases hclash : ∃ e ∈ es, e.Clash
  · refine iff_of_true (fun htrue => ?_) (.inl hclash)
    rw [rangeParse_clash hes hclash] at htrue
    exact absurd htrue Bool.false_ne_true
  · have hparse := rangeParse_listed (c := c) hes fun e he hc => hclash ⟨e, he, hc⟩
    rw [hparse]
    have hkeeps : List.Forall₂ RangeElement.Keeps es (es.map RangeElement.recorded) ↔ ∀ e ∈ es, e.Fits := by
      rw [List.forall₂_map_right_iff, List.forall₂_same]
      exact forall₂_congr fun e _ => e.keeps_recorded_iff
    constructor
    · intro h
      obtain ⟨rs, heq, hall⟩ := h rfl
      have heq : es.map RangeElement.recorded = rs := List.append_cancel_left heq
      rw [← heq] at hall
      exact .inr (hkeeps.mp hall)
    · rintro (h | h)
      · exact absurd h hclash
      · exact fun _ => ⟨es.map RangeElement.recorded, rfl, hkeeps.mpr h⟩

/-- The number 2^64 is recorded as 0. -/
theorem overflow_recorded : ∃ (c : Request) (str : Bytes), (c.rangeParse str).2 = true ∧
    (c.rangeParse str).1.ranges = [⟨0, ulongMax⟩] ∧ ¬ c.KeepsNumbers str := by
  let e : RangeElement := ⟨text "18446744073709551616", [], by decide +kernel, digits_nil⟩
  refine ⟨{}, text "bytes=18446744073709551616-", by decide +kernel, by decide +kernel, fun hkeeps => ?_⟩
  have hlisted : Listed (e.first ++ [] ++ hyphen :: ([] ++ [])) [e] :=
    .onward e rfl spaces_nil spaces_nil (fun _ => rfl) nofun .done
  have htext : (text "bytes=18446744073709551616-").drop 6 = e.first ++ [] ++ hyphen :: ([] ++ []) := by
    decide +kernel
  rw [← htext] at hlisted
  obtain ⟨rs, hranges, hall⟩ := hkeeps [e] ⟨by decide +kernel, hlisted⟩ (by decide +kernel)
  obtain ⟨r, us, hr, hus, rfl⟩ := List.forall₂_cons_left_iff.mp hall
  have hstart := (hr.start (by decide +kernel)).1
  have hranges : (Request.rangeParse {} (text "bytes=18446744073709551616-")).1.ranges = r :: us := hranges
  have hzero : ((Request.rangeParse {} (text "bytes=18446744073709551616-")).1.ranges.head?.map Range.start) =
      some 0 := by decide +kernel
  rw [hranges] at hzero
  have hzero : r.start = 0 := by simpa using hzero
  have hdec : decimal e.first = 2 ^ 64 := by decide +kernel
  omega

end Boa
