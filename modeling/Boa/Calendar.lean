import Mathlib

/-! The Gregorian calendar on a time line of seconds: a date and a time of day denote one second,
and earlier ones denote earlier seconds. Nothing here depends on the program. -/
namespace Calendar

/-- Days from the start of 1970 to the start of a year. -/
def yearStart (y : ℤ) : ℤ := 365 * (y - 1970) + (y - 1969) / 4 - (y - 1901) / 100 + (y - 1601) / 400

def isLeap (y : ℤ) : Bool := decide (y % 4 = 0 ∧ (y % 100 ≠ 0 ∨ y % 400 = 0))

def monthLength (leap : Bool) : Fin 12 → ℕ :=
  ![31, if leap then 29 else 28, 31, 30, 31, 30, 31, 31, 30, 31, 30, 31]

/-- Days from the start of a year to the start of a month. -/
def monthStart (leap : Bool) (m : Fin 12) : ℕ := (((List.finRange 12).take m).map (monthLength leap)).sum

def yearLength (leap : Bool) : ℕ := if leap then 366 else 365

lemma yearStart_succ (y : ℤ) : yearStart (y + 1) = yearStart y + yearLength (isLeap y) := by
  unfold yearStart yearLength isLeap
  split_ifs with h
  · simp only [decide_eq_true_eq] at h
    omega
  · simp only [decide_eq_true_eq] at h
    omega

lemma yearStart_mono : Monotone yearStart := by
  refine monotone_int_of_le_succ fun y => ?_
  rw [yearStart_succ]
  omega

lemma month_within (leap : Bool) (m : Fin 12) : monthStart leap m + monthLength leap m ≤ yearLength leap := by
  revert leap m
  decide

lemma month_before (leap : Bool) (m n : Fin 12) (h : m < n) :
    monthStart leap m + monthLength leap m ≤ monthStart leap n := by
  revert leap m n
  decide

/-- A date and a time of day. -/
structure Civil where
  year : ℤ
  month : Fin 12
  day : ℕ
  hour : ℕ
  minute : ℕ
  second : ℕ
  day_pos : 1 ≤ day
  day_le : day ≤ monthLength (isLeap year) month
  hour_lt : hour < 24
  minute_lt : minute < 60
  second_lt : second < 60

namespace Civil

/-- Days from the start of the year. -/
def yearDay (c : Civil) : ℕ := monthStart (isLeap c.year) c.month + (c.day - 1)

/-- Seconds from the start of the day. -/
def daySecond (c : Civil) : ℕ := 3600 * c.hour + 60 * c.minute + c.second

/-- Seconds from the start of 1970. -/
def seconds (c : Civil) : ℤ := 86400 * (yearStart c.year + c.yearDay) + c.daySecond

lemma yearDay_lt (c : Civil) : c.yearDay < yearLength (isLeap c.year) := by
  have h := month_within (isLeap c.year) c.month
  have h1 := c.day_pos
  have h2 := c.day_le
  unfold yearDay
  omega

lemma daySecond_lt (c : Civil) : c.daySecond < 86400 := by
  have h1 := c.hour_lt
  have h2 := c.minute_lt
  have h3 := c.second_lt
  unfold daySecond
  omega

/-- The order of dates and times, the year first. -/
def Before (a b : Civil) : Prop :=
  a.year < b.year ∨ (a.year = b.year ∧ (a.month < b.month ∨ (a.month = b.month ∧ (a.day < b.day ∨
    (a.day = b.day ∧ a.daySecond < b.daySecond)))))

lemma seconds_lt_of_before {a b : Civil} (h : a.Before b) : a.seconds < b.seconds := by
  have ha := a.daySecond_lt
  have hb := b.daySecond_lt
  unfold seconds
  rcases h with h | ⟨hy, h⟩
  · have hday := a.yearDay_lt
    have hstart := yearStart_mono (show a.year + 1 ≤ b.year from h)
    rw [yearStart_succ] at hstart
    omega
  · rw [hy]
    have hday : a.yearDay < b.yearDay ∨ (a.yearDay = b.yearDay ∧ a.daySecond < b.daySecond) := by
      have hpa := a.day_pos
      have hpb := b.day_pos
      have hla := a.day_le
      unfold yearDay
      rw [hy] at hla ⊢
      rcases h with h | ⟨hm, h⟩
      · have hbefore := month_before (isLeap b.year) a.month b.month h
        omega
      · rw [hm]
        omega
    omega

lemma before_or (a b : Civil) : a.Before b ∨ b.Before a ∨
    (a.year = b.year ∧ a.month = b.month ∧ a.day = b.day ∧ a.daySecond = b.daySecond) := by
  unfold Before
  omega

/-- Dates and times are in the order of their seconds. -/
theorem seconds_lt_iff {a b : Civil} : a.seconds < b.seconds ↔ a.Before b := by
  refine ⟨fun hlt => ?_, seconds_lt_of_before⟩
  rcases before_or a b with h | h | ⟨hy, hm, hd, hs⟩
  · exact h
  · have hlt' := seconds_lt_of_before h
    omega
  · have heq : a.seconds = b.seconds := by
      unfold seconds yearDay
      rw [hy, hm, hd, hs]
    omega

/-- Times before the year 1970 are negative. -/
lemma year_of_nonneg {c : Civil} (h : 0 ≤ c.seconds) : 1970 ≤ c.year := by
  by_contra hlt
  have hday := c.yearDay_lt
  have hsec := c.daySecond_lt
  have hstart := yearStart_mono (show c.year + 1 ≤ 1970 by omega)
  rw [yearStart_succ, show yearStart 1970 = 0 from rfl] at hstart
  unfold seconds at h
  omega

end Civil
end Calendar
