import Boa.Response

/-! The Range header (range.c): the table-driven parser and the fix-up against
the file size. The pool of free nodes is left out; a list of ranges is a value. -/
namespace Boa

inductive RangeMode
  | initial | startnum | gap1 | gap2 | stopnum
  deriving DecidableEq, Repr

inductive Ccode
  | digit | white | comma | hyphen | null | other
  deriving DecidableEq, Repr

/-- First action field of a table entry: push or disable an end of the range. -/
inductive RangePush
  | none | pushBeginning | pushEnd | disableBeginning | disableEnd
  deriving DecidableEq, Repr

/-- Second action field: abort or submit. -/
inductive RangeAct
  | none | abort | submit
  deriving DecidableEq, Repr

def ccode (b : UInt8) : Ccode :=
  if isdigit b then .digit
  else if isspace b then .white
  else if b = 44 then .comma
  else if b = 45 then .hyphen
  else .other

/-- The table `stable` of `range_parse`. -/
def stable : RangeMode → Ccode → RangePush × RangeAct × RangeMode
  | .initial, .digit => (.pushBeginning, .none, .startnum)
  | .initial, .white => (.none, .none, .initial)
  | .initial, .comma => (.none, .none, .initial)
  | .initial, .hyphen => (.disableBeginning, .none, .gap2)
  | .initial, .null => (.none, .none, .initial)
  | .startnum, .digit => (.pushBeginning, .none, .startnum)
  | .startnum, .white => (.none, .none, .gap1)
  | .startnum, .hyphen => (.none, .none, .gap2)
  | .gap1, .white => (.none, .none, .gap1)
  | .gap1, .hyphen => (.none, .none, .gap2)
  | .gap2, .digit => (.pushEnd, .none, .stopnum)
  | .gap2, .white => (.none, .none, .gap2)
  | .gap2, .comma => (.disableEnd, .submit, .initial)
  | .gap2, .null => (.disableEnd, .submit, .initial)
  | .stopnum, .digit => (.pushEnd, .none, .stopnum)
  | .stopnum, .white => (.none, .submit, .initial)
  | .stopnum, .comma => (.none, .submit, .initial)
  | .stopnum, .null => (.none, .submit, .initial)
  | _, _ => (.none, .abort, .initial)

/-- The local variables of `range_parse`. -/
structure RangeState where
  mode : RangeMode := .initial
  start : ℕ := 0
  stop : ℕ := 0

/-- The four `ACTMASK1` cases, on 64-bit accumulators. -/
def RangeState.push (st : RangeState) (p : RangePush) (digit : ℕ) : RangeState :=
  match p with
  | .none => st
  | .pushBeginning => { st with start := (st.start * 10 + digit) % 2 ^ 64 }
  | .disableBeginning => { st with start := ulongMax }
  | .pushEnd => { st with stop := (st.stop * 10 + digit) % 2 ^ 64 }
  | .disableEnd => { st with stop := ulongMax }

/-- One round of the loop: `none` is the abort, otherwise the range submitted, if
any, and the new state. The marker compared with is `(unsigned) -1`, 32 bits wide. -/
def rangeRound (st : RangeState) (cc : Ccode) (digit : ℕ) : Option (List Range × RangeState) :=
  let (p, act, mode) := stable st.mode cc
  let st := st.push p digit
  match act with
  | .abort => none
  | .none => some ([], { st with mode := mode })
  | .submit =>
    if st.start = st.stop ∧ st.start = 2 ^ 32 - 1 then none
    else some ([⟨st.start, st.stop⟩], ⟨mode, 0, 0⟩)

/-- The ranges handed to `range_add`, and whether the loop got to the end. -/
def rangeLoop (st : RangeState) : Bytes → List Range × Bool
  | [] =>
    match rangeRound st .null 0 with
    | none => ([], false)
    | some (rs, _) => (rs, true)
  | b :: s =>
    match rangeRound st (ccode b) (b.toNat - 48) with
    | none => ([], false)
    | some (rs, st) =>
      let rest := rangeLoop st s
      (rs ++ rest.1, rest.2)

namespace Request

/-- `range_parse`; `range_abort` leaves a single marker, and the count of ranges
keeps those it threw away. -/
def rangeParse (c : Request) (str : Bytes) : Request × Bool :=
  if !startsWithCase (text "bytes=") str then (c, false)
  else
    let r := rangeLoop {} (str.drop 6)
    let c := { c with numranges := c.numranges + r.1.length }
    if r.2 then ({ c with ranges := c.ranges ++ r.1 }, true)
    else ({ c with ranges := [⟨0, ulongMax⟩] }, false)

end Request

/-- The loop body of `ranges_fixup` for one range of a file of `filesize` bytes. -/
def fixupRange (filesize : ℕ) (r : Range) : Option Range :=
  let stop := if r.stop = 2 ^ 32 - 1 ∨ filesize ≤ r.stop then filesize - 1 else r.stop
  let r : Range := if r.start = ulongMax then ⟨filesize - stop, filesize - 1⟩ else ⟨r.start, stop⟩
  if offNegative r.start ∨ r.stop < r.start then none else some r

def fixupRanges (filesize : ℕ) (rs : List Range) : List Range :=
  if filesize = 0 then [] else rs.filterMap (fixupRange filesize)

/-- `ranges_fixup`. -/
def Request.rangesFixup (env : Env) (c : Request) : Request × Bool :=
  let c := { c with ranges := fixupRanges c.filesize c.ranges }
  if c.ranges = [] then (c.sendRInvalidRange env, false) else (c, true)

end Boa
