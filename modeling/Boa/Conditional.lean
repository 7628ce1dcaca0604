import Boa.Calendar
import Boa.Delivery

/-! The date that the server sends as Last-Modified, read back from If-Modified-Since. -/
namespace Boa

/-- The broken-down time that `gmtime` has to give for a second: that of the calendar. -/
def Tm.Denotes (t : Tm) (s : ℤ) : Prop :=
  ∃ d : Calendar.Civil, d.seconds = s ∧ t.year = d.year ∧ t.mon = d.month ∧ (t.mday : ℕ) = d.day ∧
    (t.hour : ℕ) = d.hour ∧ (t.min : ℕ) = d.minute ∧ (t.sec : ℕ) = d.second

section Compare

variable {a b : Tm} {s t : ℤ}

lemma laterThan_cons (x y : ℤ) (xs ys : DateKey) :
    laterThan (x :: xs) (y :: ys) = true ↔ y < x ∨ (y = x ∧ laterThan xs ys = true) := by
  rw [laterThan]
  split_ifs with h
  · simp [h]
  · rw [decide_eq_true_iff]
    exact ⟨.inl, fun hor => hor.elim id fun he => absurd he.1.symm h⟩

/-- The comparisons of `modified_since` find the later of two times. -/
lemma laterThan_dateKey (ha : a.Denotes s) (hb : b.Denotes t) :
    laterThan a.dateKey b.dateKey = decide (t < s) := by
  obtain ⟨d, rfl, hay, ham, had, hah, hai, has⟩ := ha
  obtain ⟨e, rfl, hby, hbm, hbd, hbh, hbi, hbs⟩ := hb
  have hd1 := d.minute_lt
  have hd2 := d.second_lt
  have he1 := e.minute_lt
  have he2 := e.second_lt
  rw [Bool.eq_iff_iff, decide_eq_true_iff, Calendar.Civil.seconds_lt_iff]
  unfold Tm.dateKey Calendar.Civil.Before Calendar.Civil.daySecond
  rw [hay, ham, had, hah, hai, has, hby, hbm, hbd, hbh, hbi, hbs]
  have hnil : laterThan [] [] = false := rfl
  simp only [laterThan_cons, hnil, Bool.false_eq_true, and_false, or_false]
  omega

end Compare

section Scan

variable {ds r : Bytes}

lemma not_isspace_of_isdigit {b : UInt8} (h : isdigit b) : isspace b = false := by
  simp only [isdigit, isspace, decide_eq_true_eq, Bool.or_eq_false_iff, beq_eq_false_iff_ne,
    decide_eq_false_iff_not] at h ⊢
  refine ⟨fun hb => ?_, by omega⟩
  rw [hb] at h
  exact absurd h (by decide)

lemma scanInt_unsigned {s l : Bytes} {d : UInt8} (h : s.dropWhile isspace = d :: l) (h43 : d ≠ 43)
    (h45 : d ≠ 45) : scanInt s = if (d :: l).takeWhile isdigit = [] then none
      else some ((BitVec.ofInt 32 (min (decimal ((d :: l).takeWhile isdigit) : ℤ) (2 ^ 63 - 1))).toInt,
        (d :: l).dropWhile isdigit) := by
  unfold scanInt
  rw [h]
  dsimp only
  split
  · next heq => exact absurd (List.cons.inj heq).1 h43
  · next heq => exact absurd (List.cons.inj heq).1 h45
  · simp

/-- A run of digits, and the number it denotes. -/
structure Reads (ds : Bytes) (n : ℕ) : Prop where
  digits : ∀ d ∈ ds, isdigit d
  ne_nil : ds ≠ []
  value : decimal ds = n
  small : n < 2 ^ 31

/-- `%d` reads a run of digits, behind a blank or at once. -/
lemma scanInt_reads {n : ℕ} (h : Reads ds n) (hr : ∀ b ∈ r.head?, isdigit b = false) (blank : Bool) :
    scanInt ((if blank then [space] else []) ++ (ds ++ r)) = some ((n : ℤ), r) := by
  obtain ⟨hds, hne, rfl, hsmall⟩ := h
  obtain ⟨d, ds', rfl⟩ := List.exists_cons_of_ne_nil hne
  have hd := hds d List.mem_cons_self
  have hspace := not_isspace_of_isdigit hd
  have hdrop : ((if blank then [space] else []) ++ (d :: ds' ++ r)).dropWhile isspace = d :: (ds' ++ r) := by
    cases blank
    · simp [hspace]
    · simp [hspace, show isspace space = true from rfl]
  have htake : (d :: (ds' ++ r)).takeWhile isdigit = d :: ds' := by
    rw [← List.cons_append, List.takeWhile_append_of_pos hds]
    cases r with
    | nil => simp
    | cons b r => simp [hr b (by simp)]
  have hrest : (d :: (ds' ++ r)).dropWhile isdigit = r := by
    rw [← List.cons_append, List.dropWhile_append_of_pos hds]
    cases r with
    | nil => rfl
    | cons b r => simp [hr b (by simp)]
  have hvalue : (BitVec.ofInt 32 (min (decimal (d :: ds') : ℤ) (2 ^ 63 - 1))).toInt = decimal (d :: ds') := by
    rw [min_eq_left (by omega), BitVec.toInt_ofInt, Int.bmod_eq_of_le (by omega) (by omega)]
  rw [scanInt_unsigned hdrop (by rintro rfl; exact absurd hd (by decide))
    (by rintro rfl; exact absurd hd (by decide)), htake, hrest, if_neg hne, hvalue]

lemma scanStr_word {w : Bytes} (hw : ∀ b ∈ w, isspace b = false) (hlen : w.length = 3) :
    scanStr 3 (space :: (w ++ space :: r)) = some (w, space :: r) := by
  have hne : w ≠ [] := fun h => by rw [h] at hlen; exact absurd hlen (by decide)
  obtain ⟨b, w', rfl⟩ := List.exists_cons_of_ne_nil hne
  have hdrop : (space :: (b :: w' ++ space :: r)).dropWhile isspace = b :: w' ++ space :: r := by
    simp [hw b List.mem_cons_self, show isspace space = true from rfl]
  have htake : (b :: w' ++ space :: r).takeWhile (!isspace ·) = b :: w' := by
    rw [List.takeWhile_append_of_pos fun x hx => by rw [hw x hx]; rfl]
    simp [show isspace space = true from rfl]
  unfold scanStr
  rw [hdrop]
  dsimp only
  rw [htake, List.take_of_length_le hlen.le, if_neg hne, List.drop_left]

lemma reads_two {n : ℕ} (h : n < 100) : Reads (two n) n := by
  obtain ⟨h1, h2⟩ := isdigit_ofNat (n := n / 10) (by omega)
  obtain ⟨h3, h4⟩ := isdigit_ofNat (n := n % 10) (by omega)
  refine ⟨?_, List.cons_ne_nil _ _, ?_, by omega⟩
  · exact List.forall_mem_cons.mpr ⟨h1, List.forall_mem_singleton.mpr h3⟩
  · unfold two decimal
    simp only [List.foldl_cons, List.foldl_nil, h2, h4]
    omega

lemma simpleItoa_four {n : ℕ} (h1 : 1000 ≤ n) (h2 : n < 10000) :
    simpleItoa n = [UInt8.ofNat (48 + n / 1000), UInt8.ofNat (48 + n / 100 % 10),
      UInt8.ofNat (48 + n / 10 % 10), UInt8.ofNat (48 + n % 10)] := by
  unfold simpleItoa
  rw [Nat.mod_eq_of_lt (by omega)]
  rw [itoaLoop, if_neg (by omega), itoaLoop, if_neg (by omega), itoaLoop, if_neg (by omega), itoaLoop,
    if_pos (by omega)]
  rw [show n / 10 / 10 = n / 100 by omega, show n / 100 / 10 = n / 1000 by omega,
    show n / 1000 % 10 = n / 1000 by omega]

lemma reads_year {n : ℕ} (h1 : 1000 ≤ n) (h2 : n < 10000) : Reads (simpleItoa n) n := by
  obtain ⟨a1, a2⟩ := isdigit_ofNat (n := n / 1000) (by omega)
  obtain ⟨b1, b2⟩ := isdigit_ofNat (n := n / 100 % 10) (by omega)
  obtain ⟨c1, c2⟩ := isdigit_ofNat (n := n / 10 % 10) (by omega)
  obtain ⟨d1, d2⟩ := isdigit_ofNat (n := n % 10) (by omega)
  rw [simpleItoa_four h1 h2]
  refine ⟨?_, List.cons_ne_nil _ _, ?_, by omega⟩
  · exact List.forall_mem_cons.mpr ⟨a1, List.forall_mem_cons.mpr ⟨b1, List.forall_mem_cons.mpr
      ⟨c1, List.forall_mem_singleton.mpr d1⟩⟩⟩
  · unfold decimal
    simp only [List.foldl_cons, List.foldl_nil, a2, b2, c2, d2]
    omega

/-- The names that `rfc822_time_buf` writes are those that `month2int` knows. -/
lemma monthTab_word (i : Fin 12) : ∃ w, monthTab.getD i [] = w ++ [space] ∧ w.length = 3 ∧
    (∀ b ∈ w, isspace b = false) ∧ month2int w = some (i : ℕ) := by
  have hall : ∀ i : Fin 12, monthTab.getD i [] = (monthTab.getD i []).take 3 ++ [space] ∧
      ((monthTab.getD i []).take 3).length = 3 ∧ (∀ b ∈ (monthTab.getD i []).take 3, isspace b = false) ∧
      month2int ((monthTab.getD i []).take 3) = some (i : ℕ) := by
    decide +kernel
  exact ⟨_, hall i⟩

lemma dayTab_word (i : Fin 7) : ∀ b ∈ dayTab.getD i [], b ≠ space := by
  revert i
  decide +kernel

lemma scanTime_two {h m sec : ℕ} (hh : h < 100) (hm : m < 100) (hs : sec < 100)
    (hr : ∀ b ∈ r.head?, isdigit b = false) :
    scanTime (space :: (two h ++ colon :: (two m ++ colon :: (two sec ++ r)))) =
      some ((h : ℤ), (m : ℤ), (sec : ℤ), r) := by
  have hcolon : ∀ l : Bytes, ∀ b ∈ (colon :: l).head?, isdigit b = false := by
    intro l b hb
    obtain rfl : colon = b := by simpa using hb
    rfl
  have h1 := scanInt_reads (reads_two hh) (hcolon (two m ++ colon :: (two sec ++ r))) true
  have h2 := scanInt_reads (reads_two hm) (hcolon (two sec ++ r)) false
  have h3 := scanInt_reads (reads_two hs) hr false
  simp only [if_true, List.cons_append, List.nil_append] at h1
  simp only [Bool.false_eq_true, if_false, List.nil_append] at h2 h3
  unfold scanTime
  simp only [h1, Option.bind_eq_bind, Option.bind_some, scanChar, if_true, h2, h3]
  rfl

/-- What `rfc822_time_buf` writes behind the year. -/
def Tm.clock (t : Tm) : Bytes :=
  space :: (two t.hour ++ colon :: (two t.min ++ colon :: (two t.sec ++ text " GMT")))

lemma not_isdigit_space (l : Bytes) : ∀ b ∈ (space :: l).head?, isdigit b = false := by
  intro b hb
  obtain rfl : space = b := by simpa using hb
  rfl

lemma scanTime_clock (t : Tm) :
    scanTime t.clock = some (((t.hour : ℕ) : ℤ), ((t.min : ℕ) : ℤ), ((t.sec : ℕ) : ℤ), text " GMT") := by
  have hgmt : text " GMT" = space :: text "GMT" := by decide +kernel
  have hr : ∀ b ∈ (text " GMT").head?, isdigit b = false := by
    rw [hgmt]
    exact not_isdigit_space _
  have h1 := t.hour.isLt
  have h2 := t.min.isLt
  have h3 := t.sec.isLt
  exact scanTime_two (by omega) (by omega) (by omega) hr

/-- The first format reads the date back. -/
lemma scanDate_rfc822 (t : Tm) (h1 : 1000 ≤ t.year) (h2 : t.year < 10000) : ∃ w,
    month2int w = some (t.mon : ℕ) ∧ scanDate (rfc822Text t) = some ⟨((t.mday : ℕ) : ℤ), w, t.year,
      ((t.hour : ℕ) : ℤ), ((t.min : ℕ) : ℤ), ((t.sec : ℕ) : ℤ)⟩ := by
  obtain ⟨w, hmon, hlen, hword, hint⟩ := monthTab_word t.mon
  obtain ⟨y, hy⟩ : ∃ y : ℕ, t.year = y := ⟨t.year.toNat, by omega⟩
  have htext : rfc822Text t = dayTab.getD t.wday [] ++
      (space :: (two t.mday ++ space :: (w ++ space :: (simpleItoa y ++ t.clock)))) := by
    unfold rfc822Text Tm.clock
    rw [hmon, hy]
    simp
  have hdrop : (rfc822Text t).dropWhile (· ≠ space) =
      space :: (two t.mday ++ space :: (w ++ space :: (simpleItoa y ++ t.clock))) := by
    rw [htext, List.dropWhile_append_of_pos fun b hb => decide_eq_true (dayTab_word t.wday b hb)]
    simp
  have hmday := t.mday.isLt
  have hday := scanInt_reads (reads_two (n := t.mday) (by omega))
    (not_isdigit_space (w ++ space :: (simpleItoa y ++ t.clock))) true
  have hmonth := scanStr_word (r := simpleItoa y ++ t.clock) hword hlen
  have hyear := scanInt_reads (reads_year (n := y) (by omega) (by omega))
    (show ∀ b ∈ t.clock.head?, isdigit b = false from not_isdigit_space _) true
  simp only [if_true, List.cons_append, List.nil_append] at hday hyear
  refine ⟨w, hint, ?_⟩
  have hfirst : scanDayFirst 3 (space :: (two t.mday ++ space :: (w ++ space :: (simpleItoa y ++ t.clock)))) =
      some ⟨((t.mday : ℕ) : ℤ), w, t.year, ((t.hour : ℕ) : ℤ), ((t.min : ℕ) : ℤ), ((t.sec : ℕ) : ℤ)⟩ := by
    unfold scanDayFirst
    simp only [hday, hmonth, hyear, scanTime_clock, Option.bind_eq_bind, Option.bind_some, hy]
    rfl
  unfold scanDate
  rw [hdrop]
  dsimp only
  rw [hfirst]
  rfl

end Scan

/-- `date_to_tm` reads a date of the server back, for the years that it admits. -/
lemma dateToTm_rfc822 {t : Tm} {s : ℤ} (hd : t.Denotes s) (hs : 0 < s) (hfour : t.year < 10000) :
    dateToTm (rfc822Text t) = if t.year ≤ 2020 then some t.dateKey else none := by
  obtain ⟨d, rfl, hy, hm, hday, hh, hi, hsec⟩ := hd
  have hyear := Calendar.Civil.year_of_nonneg hs.le
  obtain ⟨w, hint, hscan⟩ := scanDate_rfc822 t (by omega) hfour
  have hpos := d.day_pos
  have hlt := t.mday.isLt
  have hhour := t.hour.isLt
  have hmin := t.min.isLt
  have hsecond := d.second_lt
  unfold dateToTm Tm.dateKey
  simp only [hscan, hint, Option.bind_eq_bind, Option.bind_some]
  rw [if_neg (show ¬ t.year < 70 by omega), if_pos (show 1900 < t.year by omega)]
  by_cases h : t.year ≤ 2020
  · rw [if_pos h, if_neg (by omega)]
  · rw [if_neg h, if_pos (by omega)]

/-- A client that sends the date of the server back is told whether the file is newer, and gets
304 exactly if it is not. -/
structure Echoed (env : Env) (m t : ℤ) : Prop where
  answer : modifiedSince env m (rfc822TimeBuf env t) = some (decide (t < m))
  notModified : ∀ (c : Request) (f : File), f.mtime = m → c.ifModifiedSince = some (rfc822TimeBuf env t) →
    (c.notModified env f = true ↔ m ≤ t)

/-- The dates of the server are understood up to the year 2020. -/
theorem modifiedSince_echoed_iff {env : Env} {m t : ℤ} (hm : (env.gmtime m).Denotes m)
    (ht : (env.gmtime t).Denotes t) (hpos : 0 < t) (hfour : (env.gmtime t).year < 10000) :
    Echoed env m t ↔ (env.gmtime t).year ≤ 2020 := by
  have hbuf : rfc822TimeBuf env t = rfc822Text (env.gmtime t) := by
    unfold rfc822TimeBuf
    rw [if_neg (by omega)]
  have hread := dateToTm_rfc822 ht hpos hfour
  have hanswer : modifiedSince env m (rfc822TimeBuf env t) =
      if (env.gmtime t).year ≤ 2020 then some (decide (t < m)) else none := by
    unfold modifiedSince
    rw [hbuf, hread]
    split_ifs
    · rw [Option.map_some, laterThan_dateKey hm ht]
    · rfl
  constructor
  · intro h
    by_contra hlate
    have hnone := h.answer
    rw [hanswer, if_neg hlate] at hnone
    exact absurd hnone nofun
  · intro hyear
    rw [if_pos hyear] at hanswer
    refine ⟨hanswer, fun c f hf hdate => ?_⟩
    unfold Request.notModified
    rw [hdate]
    dsimp only
    rw [hf, hanswer]
    by_cases hlt : t < m
    · simp [hlt]
    · simp [hlt]
      omega

lemma firstMinute_denotes {s : ℕ} (h : s < 60) : (firstMinute.gmtime s).Denotes s := by
  refine ⟨⟨1970, 0, 1, 0, 0, s, le_rfl, by decide, by decide, by decide, h⟩, ?_, rfl, rfl, rfl, rfl, rfl, ?_⟩
  · simp [Calendar.Civil.seconds, Calendar.Civil.yearDay, Calendar.Civil.daySecond, Calendar.monthStart,
      show Calendar.yearStart 1970 = 0 from rfl]
  · show (s % 60) % 61 = s
    omega

theorem modifiedSince_echoed_minute : Echoed firstMinute 7 5 :=
  (modifiedSince_echoed_iff (firstMinute_denotes (s := 7) (by decide)) (firstMinute_denotes (s := 5) (by decide))
    (by decide) (by decide)).mpr (by decide)

/-- A file of the year 2021 is sent again to a client that has it. -/
theorem newYear_refused : ∃ env t, 0 < t ∧ (env.gmtime t).Denotes t ∧ (env.gmtime t).year < 10000 ∧
    modifiedSince env t (rfc822TimeBuf env t) = none ∧ ¬ Echoed env t t := by
  have hnone : modifiedSince newYear 1609459200 (rfc822TimeBuf newYear 1609459200) = none := by decide +kernel
  refine ⟨newYear, 1609459200, by decide, ?_, by decide, hnone, fun h => ?_⟩
  · exact ⟨⟨2021, 0, 1, 0, 0, 0, by decide, by decide, by decide, by decide, by decide⟩, by decide, rfl, rfl,
      rfl, rfl, rfl, rfl⟩
  · exact absurd (hnone.symm.trans h.answer) nofun

end Boa
