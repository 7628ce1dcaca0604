import Mathlib

/-! Byte strings: literals, the characters the server treats specially, ASCII
case, substring search and decimal conversion. -/
namespace Boa

abbrev Bytes := List UInt8

/-- The bytes of an ASCII literal. -/
@[irreducible] def text (s : String) : Bytes := s.toByteArray.data.toList

def tab : UInt8 := 9
def lf : UInt8 := 10
def cr : UInt8 := 13
def space : UInt8 := 32
def hash : UInt8 := 35
def percent : UInt8 := 37
def dot : UInt8 := 46
def slash : UInt8 := 47
def colon : UInt8 := 58
def question : UInt8 := 63
def tilde : UInt8 := 126

def crlf : Bytes := [cr, lf]

/-- `toupper` and `tolower` in the C locale. -/
def toupper (b : UInt8) : UInt8 := if 97 ≤ b.toNat ∧ b.toNat ≤ 122 then b - 32 else b
def tolower (b : UInt8) : UInt8 := if 65 ≤ b.toNat ∧ b.toNat ≤ 90 then b + 32 else b

def isdigit (b : UInt8) : Bool := decide (48 ≤ b.toNat ∧ b.toNat ≤ 57)
def isalpha (b : UInt8) : Bool :=
  decide (65 ≤ b.toNat ∧ b.toNat ≤ 90 ∨ 97 ≤ b.toNat ∧ b.toNat ≤ 122)
def isalnum (b : UInt8) : Bool := isalpha b || isdigit b

/-- `isspace` in the C locale. -/
def isspace (b : UInt8) : Bool := b == 32 || decide (9 ≤ b.toNat ∧ b.toNat ≤ 13)

/-- `strncasecmp(s, pat, strlen(pat)) == 0`. -/
def startsWithCase (pat s : Bytes) : Bool := (s.take pat.length).map tolower == pat.map tolower

/-- `strstr`: the offset of the first occurrence. -/
def strstr (pat : Bytes) : Bytes → Option ℕ
  | [] => if pat.isPrefixOf [] then some 0 else none
  | b :: s => if pat.isPrefixOf (b :: s) then some 0 else (strstr pat s).map (· + 1)

lemma isdigit_ofNat {n : ℕ} (h : n < 10) : isdigit (UInt8.ofNat (48 + n)) = true ∧
    (UInt8.ofNat (48 + n)).toNat - 48 = n := by
  have hval : (UInt8.ofNat (48 + n)).toNat = 48 + n := by
    rw [UInt8.toNat_ofNat']
    omega
  unfold isdigit
  rw [hval]
  exact ⟨decide_eq_true (by omega), by omega⟩

/-- The digit loop of `simple_itoa`; 20 digits hold every 64-bit value. -/
def itoaLoop : ℕ → ℕ → Bytes → Bytes
  | 0, _, acc => acc
  | fuel + 1, i, acc =>
    let acc := UInt8.ofNat (48 + i % 10) :: acc
    if i / 10 = 0 then acc else itoaLoop fuel (i / 10) acc

def simpleItoa (i : ℕ) : Bytes := itoaLoop 21 (i % 2 ^ 64) []

lemma itoaLoop_digits {fuel i : ℕ} {acc : Bytes} (hacc : ∀ b ∈ acc, isdigit b = true) :
    (∀ b ∈ itoaLoop fuel i acc, isdigit b = true) ∧ (itoaLoop fuel i acc).length ≤ fuel + acc.length := by
  induction fuel generalizing i acc with
  | zero => exact ⟨hacc, Nat.le_add_left _ _⟩
  | succ fuel ih =>
    have hdigit := isdigit_ofNat (Nat.mod_lt i (show 0 < 10 by decide))
    have hnext : ∀ b ∈ UInt8.ofNat (48 + i % 10) :: acc, isdigit b = true := by
      intro b hb
      rcases List.mem_cons.mp hb with rfl | hb
      · exact hdigit.1
      · exact hacc b hb
    unfold itoaLoop
    split_ifs
    · refine ⟨hnext, ?_⟩
      simp only [List.length_cons]
      omega
    · have h := ih (i := i / 10) hnext
      refine ⟨h.1, h.2.trans ?_⟩
      simp only [List.length_cons]
      omega

lemma simpleItoa_digits (n : ℕ) : (∀ b ∈ simpleItoa n, isdigit b = true) ∧ (simpleItoa n).length ≤ 21 :=
  itoaLoop_digits fun _ h => absurd h List.not_mem_nil

/-- The value of a run of decimal digits. -/
def decimal (ds : Bytes) : ℕ := ds.foldl (fun n d => 10 * n + (d.toNat - 48)) 0

lemma decimal_append_digit (ds : Bytes) (d : UInt8) : decimal (ds ++ [d]) = 10 * decimal ds + (d.toNat - 48) := by
  unfold decimal
  rw [List.foldl_append]
  rfl

/-- `atoi` on a string that starts with a digit, reduced to a 32-bit `int`. -/
def atoi (s : Bytes) : ℤ := (BitVec.ofNat 32 (decimal (s.takeWhile isdigit))).toInt

/-- `boa_atoi`: only the canonical form of a non-negative `int` is accepted;
`none` stands for the error value -1. -/
def boaAtoi (s : Bytes) : Option ℕ :=
  match s with
  | [] => none
  | d :: _ =>
    if !isdigit d then none
    else if atoi s < 0 then none
    else if s = simpleItoa (atoi s).toNat then some (atoi s).toNat
    else none

/-- One `%u` conversion of `sscanf`: white space, an optional sign, digits.
`strtoul` saturates at 64 bits and the result is cut to an `unsigned int`. -/
def scanUnsigned (s : Bytes) : Option (ℕ × Bytes) :=
  let s := s.dropWhile isspace
  let (neg, s) := match s with
    | 43 :: r => (false, r)
    | 45 :: r => (true, r)
    | r => (false, r)
  let ds := s.takeWhile isdigit
  if ds = [] then none
  else
    let n := min (decimal ds) (2 ^ 64 - 1)
    let n := if neg ∧ decimal ds < 2 ^ 64 then 2 ^ 64 - n else n
    some (n % 2 ^ 32, s.dropWhile isdigit)

/-- `sscanf(s, "HTTP/%u.%u", &p1, &p2) == 2`. -/
def scanHttpVersion (s : Bytes) : Option (ℕ × ℕ) :=
  if (text "HTTP/").isPrefixOf s then
    match scanUnsigned (s.drop 5) with
    | some (p1, 46 :: r) => (scanUnsigned r).map fun p => (p1, p.1)
    | _ => none
  else none

end Boa
