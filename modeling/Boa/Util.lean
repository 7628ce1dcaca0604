import Boa.Bytes
import Boa.Memory

/-! String utilities (util.c): percent-decoding, path cleaning, host checking. -/
namespace Boa
open Memory

/-- One digit of `HEX_TO_DECIMAL`; `char` is signed and the result is cut to a byte. -/
def hexDigit (c : UInt8) : UInt8 :=
  if 65 ≤ c.toNat ∧ c.toNat < 128 then (c &&& 0xdf) - 65 + 10 else c - 48

/-- `HEX_TO_DECIMAL`. -/
def hexToDecimal (c d : UInt8) : UInt8 := hexDigit c * 16 + hexDigit d

/-- The search for a query string behind a fragment. -/
def queryAfter (s : Bytes) : Option Bytes :=
  match s.dropWhile (· ≠ question) with
  | [] => none
  | _ :: q => some q

/-- The loop of `unescape_uri`: the bytes written, the query string found, and
whether the string was legal. -/
def unescapeLoop : Bytes → Bytes × Option Bytes × Bool
  | [] => ([], none, true)
  | c :: s =>
    if c = percent then
      match s with
      | a :: b :: s =>
        let r := unescapeLoop s
        (hexToDecimal a b :: r.1, r.2)
      | _ => ([], none, false)
    else if c = question then ([], some s, true)
    else if c = hash then ([], queryAfter s, true)
    else
      let r := unescapeLoop s
      (c :: r.1, r.2)

/-- `unescape_uri` with a place for the query string. The string left behind ends
at the first NUL, which an escape may have written. -/
def unescapeUri (uri : Bytes) : Bytes × Option Bytes × Bool :=
  let r := unescapeLoop uri
  (cstr r.1, r.2)

/-- The loop of `clean_pathname`. In its inner loop (`skip`), right behind a `/`,
it steps over `/`, `./` and `../`; leaving that loop it copies the next character,
which is no `/`. -/
def cleanLoop : Bool → Bytes → Bytes
  | _, [] => []
  | false, c :: s => if c = slash then slash :: cleanLoop true s else c :: cleanLoop false s
  | true, c :: s =>
    if c = slash then cleanLoop true s
    else if c = dot then
      match s with
      | d :: s =>
        if d = slash then cleanLoop true s
        else if d = dot then
          match s with
          | e :: s => if e = slash then cleanLoop true s else c :: d :: e :: cleanLoop false s
          | [] => [c, d]
        else c :: d :: cleanLoop false s
      | [] => [c]
    else c :: cleanLoop false s

/-- `clean_pathname`. -/
def cleanPathname (pathname : Bytes) : Bytes := cleanLoop false pathname

/-- The interior loop of `check_host`. -/
def checkHostLoop : Bool → Bytes → Bool
  | _, [] => true
  | periodOk, c :: s =>
    if isalnum c || c == 45 then checkHostLoop true s
    else if c == dot && periodOk then checkHostLoop false s
    else false

/-- `check_host`: `none` is the error value -1. -/
def checkHost (r : Bytes) : Option ℕ :=
  match r with
  | [] => none
  | c :: s =>
    if !isalnum c then none
    else if 63 < r.length then none
    else if !checkHostLoop true s then none
    else if !isalnum (r.getLastD 0) then none
    else some r.length

/-- `strlower`. -/
def strlower (s : Bytes) : Bytes := s.map tolower

/-- `to_upper`, which also turns `-` into `_`. -/
def toUpper (s : Bytes) : Bytes := s.map fun c => if c = 45 then 95 else toupper c

end Boa
