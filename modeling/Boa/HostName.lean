import Boa.Util

/-! The host names `check_host` accepts: its loop decides a language of strings. -/
namespace Boa

/-- The loop of `check_host` behind the character `c`, with `period_ok` and `len`. It ends
with the last character and the length, or not at all where the function returns -1. -/
def hostLoop (c : UInt8) (periodOk : Bool) (len : ℕ) : Bytes → Option (UInt8 × ℕ)
  | [] => some (c, len)
  | d :: s =>
    if isalnum d || d == 45 then hostLoop d true (len + 1) s
    else if d == dot && periodOk then hostLoop d false (len + 1) s
    else none

/-- `check_host` with the value it returns; there may be no string at all. -/
def checkHostInt : Option Bytes → ℤ
  | none => -1
  | some r =>
    if !isalnum (r.headD 0) then -1
    else if 63 < r.length then -1
    else
      match hostLoop (r.headD 0) true 1 r.tail with
      | none => -1
      | some (c, len) => if !isalnum c then -1 else len

/-- A character a host name may have. -/
def HostChar (c : UInt8) : Prop := isalpha c = true ∨ isdigit c = true ∨ c = 45 ∨ c = dot

/-- The host names: short strings of letters, digits, hyphens and single periods that begin
and end with a letter or digit. -/
structure IsHost (r : Bytes) : Prop where
  nonempty : 1 ≤ r.length
  short : r.length ≤ 63
  chars : ∀ c ∈ r, HostChar c
  first : ∀ c ∈ r.head?, isalpha c = true ∨ isdigit c = true
  last : ∀ c ∈ r.getLast?, isalpha c = true ∨ isdigit c = true
  spaced : ¬ [dot, dot] <:+: r

lemma isalnum_iff (c : UInt8) : isalnum c = true ↔ isalpha c = true ∨ isdigit c = true := by
  simp [isalnum]

lemma isalnum_dot : isalnum dot = false := by decide

lemma isalnum_ne_dot {c : UInt8} (h : isalnum c = true) : c ≠ dot := by
  rintro rfl
  simp [isalnum_dot] at h

/-- A character in front adds two adjacent periods only by being the first of them. -/
lemma dots_cons (c : UInt8) (s : Bytes) :
    [dot, dot] <:+: c :: s ↔ (c = dot ∧ s.head? = some dot) ∨ [dot, dot] <:+: s := by
  rw [List.infix_cons_iff]
  cases s with
  | nil => simp
  | cons d s => simp [eq_comm]

/-- The loop that keeps only the flag: a period may not follow a period, and every
character is allowed. -/
lemma checkHostLoop_iff (p : Bool) (s : Bytes) :
    checkHostLoop p s = true ↔
      (∀ c ∈ s, HostChar c) ∧ ¬ [dot, dot] <:+: s ∧ (p = false → s.head? ≠ some dot) := by
  induction s generalizing p with
  | nil => simp [checkHostLoop]
  | cons c s ih =>
    by_cases hword : isalnum c = true ∨ c = 45
    · have hne : c ≠ dot := by
        rcases hword with h | rfl
        · exact isalnum_ne_dot h
        · decide
      have hchar : HostChar c := by
        rcases hword with h | h
        · rcases (isalnum_iff c).1 h with h | h <;> simp [HostChar, h]
        · simp [HostChar, h]
      simp [checkHostLoop, hword, ih, dots_cons, hne, hchar]
    · by_cases hdot : c = dot
      · subst hdot
        cases p <;> simp [checkHostLoop, hword, ih, dots_cons, HostChar]
        tauto
      · have hchar : ¬ HostChar c := by
          simp only [HostChar, hdot, or_false]
          rw [← or_assoc, ← isalnum_iff]
          exact hword
        simp [checkHostLoop, hword, hdot, hchar]

/-- The loop with the last character and the length passes where the one with the flag does. -/
lemma hostLoop_eq (c : UInt8) (p : Bool) (len : ℕ) (s : Bytes) :
    hostLoop c p len s =
      if checkHostLoop p s then some (s.getLastD c, len + s.length) else none := by
  induction s generalizing c p len with
  | nil => simp [hostLoop, checkHostLoop]
  | cons d s ih =>
    simp only [hostLoop, checkHostLoop]
    split_ifs <;> simp_all [List.getLast?_cons, Nat.add_comm, Nat.add_left_comm]

/-- The value `check_host` returns is the one the request handling was given. -/
lemma checkHostInt_eq (r : Bytes) :
    checkHostInt (some r) = ((checkHost r).map fun n : ℕ => (n : ℤ)).getD (-1) := by
  cases r with
  | nil => simp [checkHostInt, checkHost, show isalnum 0 = false by decide]
  | cons c s =>
    simp only [checkHostInt, checkHost, hostLoop_eq, List.headD_cons, List.tail_cons,
      List.getLastD_cons, List.length_cons, Nat.add_comm 1]
    split_ifs <;> simp_all

/-- A string is accepted when it is a host name, and it is counted whole. -/
lemma checkHost_iff (r : Bytes) (n : ℕ) : checkHost r = some n ↔ IsHost r ∧ n = r.length := by
  cases r with
  | nil => simpa [checkHost] using fun h : IsHost [] => absurd h.nonempty (by simp)
  | cons c s =>
    have hlast : (c :: s).getLast? = some (s.getLast?.getD c) := List.getLast?_cons
    have hhost : IsHost (c :: s) ↔ isalnum c = true ∧ s.length + 1 ≤ 63 ∧ checkHostLoop true s = true ∧
        isalnum (s.getLast?.getD c) = true := by
      rw [checkHostLoop_iff]
      constructor
      · intro h
        have hc : isalnum c = true := (isalnum_iff c).2 (h.first c rfl)
        refine ⟨hc, h.short, ⟨fun d hd => h.chars d (by simp [hd]), ?_, by simp⟩, ?_⟩
        · have hspaced := h.spaced
          simp only [dots_cons, not_or] at hspaced
          exact hspaced.2
        · exact (isalnum_iff _).2 (h.last _ hlast)
      · rintro ⟨hc, hlen, ⟨hchars, hspaced, -⟩, hend⟩
        have hword := (isalnum_iff c).1 hc
        exact {
          nonempty := by simp
          short := hlen
          chars := by
            intro d hd
            rcases List.mem_cons.1 hd with rfl | hd
            · rcases hword with h | h <;> simp [HostChar, h]
            · exact hchars d hd
          first := by simpa using hword
          last := by simpa [hlast] using (isalnum_iff _).1 hend
          spaced := by simp [dots_cons, isalnum_ne_dot hc, hspaced] }
    rw [hhost]
    simp only [checkHost, List.length_cons]
    split_ifs <;> simp_all
    omega

/-- No accepted character is a slash. -/
lemma HostChar.ne_slash {c : UInt8} (h : HostChar c) : c ≠ slash := by
  rintro rfl
  simp [HostChar, show isalpha slash = false by decide, show isdigit slash = false by decide,
    show slash ≠ dot by decide, show ¬ slash = 45 by decide] at h

/-- A host name is one segment of a path, and none that leads elsewhere. -/
lemma IsHost.segment {r : Bytes} (h : IsHost r) : slash ∉ r ∧ r ≠ [dot] ∧ r ≠ [dot, dot] := by
  have hdot : ¬ (isalpha dot = true ∨ isdigit dot = true) := by
    rw [← isalnum_iff, isalnum_dot]
    simp
  refine ⟨fun hmem => (h.chars slash hmem).ne_slash rfl, ?_, ?_⟩
  · rintro rfl
    exact hdot (h.first dot rfl)
  · rintro rfl
    exact hdot (h.first dot rfl)

/-- `check_host` accepts exactly the host names, with their length; what it accepts is a
harmless path segment, and anything else gives -1. -/
theorem checkHostInt_exact (r : Bytes) :
    (0 < checkHostInt (some r) ↔ IsHost r) ∧
      (0 < checkHostInt (some r) → checkHostInt (some r) = r.length) ∧
      (¬ IsHost r → checkHostInt (some r) = -1) ∧
      (0 < checkHostInt (some r) → slash ∉ r ∧ r ≠ [dot] ∧ r ≠ [dot, dot]) := by
  by_cases h : IsHost r
  · have hval : checkHostInt (some r) = r.length := by
      rw [checkHostInt_eq, (checkHost_iff r r.length).2 ⟨h, rfl⟩]
      rfl
    have hpos : 0 < checkHostInt (some r) := by
      have := h.nonempty
      omega
    exact ⟨⟨fun _ => h, fun _ => hpos⟩, fun _ => hval, fun hno => absurd h hno, fun _ => h.segment⟩
  · have hnone : checkHost r = none := by
      rw [Option.eq_none_iff_forall_ne_some]
      exact fun n hn => h ((checkHost_iff r n).1 hn).1
    have hval : checkHostInt (some r) = -1 := by
      rw [checkHostInt_eq, hnone]
      rfl
    simp [hval, h]

end Boa
