import Boa.Types

/-! Dates of `If-Modified-Since` headers (util.c). -/
namespace Boa

/-- `month2int`; `none` is -1. -/
def month2int (name : Bytes) : Option ℕ :=
  match name with
  | 65 :: s => some (if s.head? = some 112 then 3 else 7)
  | 68 :: _ => some 11
  | 70 :: _ => some 1
  | 74 :: s => some (if s.head? = some 97 then 0 else if s.getD 1 0 = 110 then 5 else 6)
  | 77 :: s => some (if s.getD 1 0 = 114 then 2 else 4)
  | 78 :: _ => some 10
  | 79 :: _ => some 9
  | 83 :: _ => some 8
  | _ => none

/-- One `%d` conversion of `sscanf`: `strtol` saturates at 64 bits and the result
is cut to an `int`. -/
def scanInt (s : Bytes) : Option (ℤ × Bytes) :=
  let s := s.dropWhile isspace
  let (neg, s) := match s with
    | 43 :: r => (false, r)
    | 45 :: r => (true, r)
    | r => (false, r)
  let ds := s.takeWhile isdigit
  if ds = [] then none
  else
    let n : ℤ := decimal ds
    let n := if neg then max (-n) (-2 ^ 63) else min n (2 ^ 63 - 1)
    some ((BitVec.ofInt 32 n).toInt, s.dropWhile isdigit)

/-- One `%ns` conversion. -/
def scanStr (n : ℕ) (s : Bytes) : Option (Bytes × Bytes) :=
  let s := s.dropWhile isspace
  let word := (s.takeWhile (!isspace ·)).take n
  if word = [] then none else some (word, s.drop word.length)

/-- A literal character of a format. -/
def scanChar (b : UInt8) : Bytes → Option Bytes
  | c :: s => if c = b then some s else none
  | [] => none

/-- The fields of `struct tm` that `date_to_tm` fills from a date. -/
structure DateFields where
  day : ℤ
  month : Bytes
  year : ℤ
  hour : ℤ
  minute : ℤ
  second : ℤ
  deriving DecidableEq, Repr

/-- `%d:%d:%d`. -/
def scanTime (s : Bytes) : Option (ℤ × ℤ × ℤ × Bytes) := do
  let (h, s) ← scanInt s
  let s ← scanChar colon s
  let (m, s) ← scanInt s
  let s ← scanChar colon s
  let (sec, s) ← scanInt s
  return (h, m, sec, s)

/-- `"%d %ns %d %d:%d:%d GMT"`. -/
def scanDayFirst (n : ℕ) (s : Bytes) : Option DateFields := do
  let (day, s) ← scanInt s
  let (month, s) ← scanStr n s
  let (year, s) ← scanInt s
  let (h, m, sec, _) ← scanTime s
  return ⟨day, month, year, h, m, sec⟩

/-- `"%d-%3s-%d %d:%d:%d GMT"`. -/
def scanDashed (s : Bytes) : Option DateFields := do
  let (day, s) ← scanInt s
  let s ← scanChar 45 s
  let (month, s) ← scanStr 3 s
  let s ← scanChar 45 s
  let (year, s) ← scanInt s
  let (h, m, sec, _) ← scanTime s
  return ⟨day, month, year, h, m, sec⟩

/-- `"%3s %d %d:%d:%d %d"`. -/
def scanAsctime (s : Bytes) : Option DateFields := do
  let (month, s) ← scanStr 3 s
  let (day, s) ← scanInt s
  let (h, m, sec, s) ← scanTime s
  let (year, _) ← scanInt s
  return ⟨day, month, year, h, m, sec⟩

/-- The four formats of `date_to_tm`, in order; the last one starts at the day. -/
def scanDate (date : Bytes) : Option DateFields :=
  match date.dropWhile (· ≠ space) with
  | [] => none
  | s => scanDayFirst 3 s <|> scanDashed s <|> scanAsctime s <|> scanDayFirst 10 date

/-- The part of `struct tm` that `modified_since` compares, oldest digit first. -/
abbrev DateKey := List ℤ

/-- `date_to_tm`. -/
def dateToTm (date : Bytes) : Option DateKey := do
  let d ← scanDate date
  let year := if d.year < 70 then d.year + 100 else d.year
  let year := if 1900 < year then year - 1900 else year
  let mon ← month2int d.month
  if d.second < 0 ∨ 59 < d.second ∨ d.minute < 0 ∨ 59 < d.minute ∨ d.hour < 0 ∨ 23 < d.hour ∨
      d.day < 1 ∨ 31 < d.day ∨ year < 70 ∨ 120 < year then none
  else some [year, mon, d.day, d.hour, d.minute, d.second]

def Tm.dateKey (t : Tm) : DateKey :=
  [t.year - 1900, (t.mon : ℕ), (t.mday : ℕ), (t.hour : ℕ), (t.min : ℕ), (t.sec : ℕ)]

/-- The comparisons of `modified_since`: the first difference decides. -/
def laterThan : DateKey → DateKey → Bool
  | a :: as, b :: bs => if a = b then laterThan as bs else b < a
  | _, _ => false

/-- `modified_since`; `none` is -1. -/
def modifiedSince (env : Env) (mtime : ℤ) (date : Bytes) : Option Bool :=
  (dateToTm date).map fun d => laterThan (env.gmtime mtime).dateKey d

end Boa
