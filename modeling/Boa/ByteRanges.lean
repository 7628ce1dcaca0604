import Boa.Delivery

/-! Byte ranges as RFC 2616, section 14.35.1, defines them, against what `ranges_fixup`
makes of them. -/
namespace Boa

section Lists

variable {α β : Type*} {f g : α → Option β} {l : List α}

lemma length_filterMap_le (h : ∀ x ∈ l, (g x).isSome → (f x).isSome) :
    (l.filterMap g).length ≤ (l.filterMap f).length := by
  induction l with
  | nil => rfl
  | cons x l ih =>
    have ih := ih fun y hy => h y (List.mem_cons_of_mem x hy)
    have hx := h x List.mem_cons_self
    cases hg : g x with
    | none =>
      rw [List.filterMap_cons_none hg]
      exact ih.trans (List.Sublist.length_le ((List.sublist_cons_self x l).filterMap f))
    | some b =>
      obtain ⟨a, hf⟩ := Option.isSome_iff_exists.mp (hx (by rw [hg]; rfl))
      rw [List.filterMap_cons_some hg, List.filterMap_cons_some hf]
      exact Nat.succ_le_succ ih

/-- Two partial maps, one of them defined wherever the other is, select the same from a list
only if they agree on it. -/
lemma filterMap_eq_iff (h : ∀ x ∈ l, (g x).isSome → (f x).isSome) :
    l.filterMap f = l.filterMap g ↔ ∀ x ∈ l, f x = g x := by
  refine ⟨fun heq => ?_, List.filterMap_congr⟩
  induction l with
  | nil => exact fun x hx => absurd hx List.not_mem_nil
  | cons x l ih =>
    have htail := fun y hy => h y (List.mem_cons_of_mem x hy)
    have hx := h x List.mem_cons_self
    rw [List.forall_mem_cons]
    cases hf : f x with
    | none =>
      have hg : g x = none := by
        by_contra hn
        have hsome := hx (Option.isSome_iff_ne_none.mpr hn)
        rw [hf] at hsome
        exact absurd hsome Bool.false_ne_true
      rw [List.filterMap_cons_none hf, List.filterMap_cons_none hg] at heq
      exact ⟨hg.symm, ih htail heq⟩
    | some a =>
      cases hg : g x with
      | none =>
        -- the longer selection would have to equal the shorter one
        rw [List.filterMap_cons_some hf, List.filterMap_cons_none hg] at heq
        have hlen := congrArg List.length heq
        have hle := length_filterMap_le htail
        rw [List.length_cons] at hlen
        omega
      | some b =>
        rw [List.filterMap_cons_some hf, List.filterMap_cons_some hg] at heq
        obtain ⟨hab, htails⟩ := List.cons.inj heq
        exact ⟨congrArg some hab, ih htail htails⟩

end Lists

/-- The three forms of a byte range, with numbers that an `unsigned long` holds. -/
inductive RangeSpec
  | bounded (first last : ℕ) (h : first ≤ last ∧ last < 2 ^ 64)
  | onward (first : ℕ) (h : first < 2 ^ 64)
  | suffix (n : ℕ) (h : n < 2 ^ 64)

namespace RangeSpec

/-- The form in which `range_parse` records a range. -/
def encode : RangeSpec → Range
  | bounded first last _ => ⟨first, last⟩
  | onward first _ => ⟨first, ulongMax⟩
  | suffix n _ => ⟨ulongMax, n⟩

/-- The bytes of a file that a range stands for; `none` if it is unsatisfiable. -/
def resolve (filesize : ℕ) : RangeSpec → Option Range
  | bounded first last _ => if first < filesize then some ⟨first, min last (filesize - 1)⟩ else none
  | onward first _ => if first < filesize then some ⟨first, filesize - 1⟩ else none
  | suffix n _ => if 1 ≤ n then some ⟨filesize - n, filesize - 1⟩ else none

/-- A suffix is shorter than the file, no number is a marker of `ranges_fixup` for a number not
given, unless the file is so small that this makes no difference. -/
def Plain (filesize : ℕ) : RangeSpec → Prop
  | bounded first last _ =>
    (last = 2 ^ 32 - 1 → filesize ≤ 2 ^ 32) ∧ (first = ulongMax → filesize = 1)
  | onward first _ => first = ulongMax → filesize = 1
  | suffix n _ => n < filesize ∧ (n = 2 ^ 32 - 1 → filesize ≤ 2 ^ 32)

end RangeSpec

section Fixup

variable {filesize : ℕ}

/-- The end of a range after the first test of `ranges_fixup`. -/
def clipStop (filesize stop : ℕ) : ℕ :=
  if stop = 2 ^ 32 - 1 ∨ filesize ≤ stop then filesize - 1 else stop

lemma clipStop_lt (hpos : 0 < filesize) (stop : ℕ) : clipStop filesize stop < filesize := by
  unfold clipStop
  split_ifs <;> omega

lemma offNegative_eq_false {n : ℕ} (h : n < 2 ^ 63) : offNegative n = false := by
  rw [offNegative, decide_eq_true h]
  rfl

lemma fixupRange_suffix (hpos : 0 < filesize) (hsize : filesize < 2 ^ 63) (n : ℕ) :
    fixupRange filesize ⟨ulongMax, n⟩ =
      if 0 < clipStop filesize n then some ⟨filesize - clipStop filesize n, filesize - 1⟩ else none := by
  have hlt := clipStop_lt hpos n
  unfold fixupRange
  dsimp only
  rw [if_pos rfl]
  change (if offNegative (filesize - clipStop filesize n) = true ∨
    filesize - 1 < filesize - clipStop filesize n then none else
      some (⟨filesize - clipStop filesize n, filesize - 1⟩ : Range)) = _
  rw [offNegative_eq_false (by omega)]
  by_cases h : 0 < clipStop filesize n
  · rw [if_pos h, if_neg (by simp; omega)]
  · rw [if_neg h, if_pos (by simp; omega)]

lemma fixupRange_given (hpos : 0 < filesize) (hsize : filesize < 2 ^ 63) {first last : ℕ}
    (h : first ≠ ulongMax) : fixupRange filesize ⟨first, last⟩ =
      if first ≤ clipStop filesize last then some ⟨first, clipStop filesize last⟩ else none := by
  have hlt := clipStop_lt hpos last
  unfold fixupRange
  dsimp only
  rw [if_neg h]
  change (if offNegative first = true ∨ clipStop filesize last < first then none else
    some (⟨first, clipStop filesize last⟩ : Range)) = _
  by_cases hle : first ≤ clipStop filesize last
  · rw [if_pos hle, offNegative_eq_false (by omega), if_neg (by simp; omega)]
  · rw [if_neg hle, if_pos (.inr (by omega))]

/-- On a plain range the source does what the standard says. -/
lemma fixupRange_resolve_iff (hpos : 0 < filesize) (hsize : filesize < 2 ^ 63) (s : RangeSpec) :
    fixupRange filesize s.encode = s.resolve filesize ↔ s.Plain filesize := by
  have hmax : ulongMax = 2 ^ 64 - 1 := rfl
  have hclip : clipStop filesize ulongMax = filesize - 1 := if_pos (.inr (by omega))
  cases s with
  | bounded first last h =>
    obtain ⟨h1, h2⟩ := h
    simp only [RangeSpec.encode, RangeSpec.resolve, RangeSpec.Plain]
    by_cases hm : first = ulongMax
    · obtain rfl : last = ulongMax := by omega
      rw [hm, fixupRange_suffix hpos hsize, if_neg (show ¬ ulongMax < filesize by omega), hclip]
      split_ifs <;> simp <;> omega
    · rw [fixupRange_given hpos hsize hm]
      unfold clipStop
      split_ifs <;> simp <;> omega
  | onward first h =>
    simp only [RangeSpec.encode, RangeSpec.resolve, RangeSpec.Plain]
    by_cases hm : first = ulongMax
    · rw [hm, fixupRange_suffix hpos hsize, hclip, if_neg (show ¬ ulongMax < filesize by omega)]
      split_ifs <;> simp <;> omega
    · rw [fixupRange_given hpos hsize hm, hclip]
      split_ifs <;> simp <;> omega
  | suffix n h =>
    simp only [RangeSpec.encode, RangeSpec.resolve, RangeSpec.Plain]
    rw [fixupRange_suffix hpos hsize]
    unfold clipStop
    split_ifs <;> simp <;> omega

/-- A file of one byte only loses ranges, and a longer one only gains some: whichever way the
source goes wrong, it is everywhere in one direction. -/
lemma fixupRange_monotone (hpos : 0 < filesize) (hsize : filesize < 2 ^ 63) :
    (∀ s : RangeSpec, (fixupRange filesize s.encode).isSome → (s.resolve filesize).isSome) ∨
      ∀ s : RangeSpec, (s.resolve filesize).isSome → (fixupRange filesize s.encode).isSome := by
  have hmax : ulongMax = 2 ^ 64 - 1 := rfl
  have hclip : clipStop filesize ulongMax = filesize - 1 := if_pos (.inr (by omega))
  by_cases hone : filesize = 1
  · left
    rintro (⟨first, last, h⟩ | ⟨first, h⟩ | ⟨n, h⟩) hs
    · have hlt := clipStop_lt hpos last
      simp only [RangeSpec.encode, RangeSpec.resolve] at hs ⊢
      by_cases hm : first = ulongMax
      · obtain rfl : last = ulongMax := by omega
        rw [hm, fixupRange_suffix hpos hsize, if_neg (by omega)] at hs
        exact absurd hs Bool.false_ne_true
      · rw [fixupRange_given hpos hsize hm] at hs
        split_ifs at hs with hle
        · rw [if_pos (by omega)]
          rfl
        · exact absurd hs Bool.false_ne_true
    · simp only [RangeSpec.encode, RangeSpec.resolve] at hs ⊢
      by_cases hm : first = ulongMax
      · rw [hm, fixupRange_suffix hpos hsize, if_neg (by omega)] at hs
        exact absurd hs Bool.false_ne_true
      · rw [fixupRange_given hpos hsize hm] at hs
        split_ifs at hs with hle
        · rw [if_pos (by omega)]
          rfl
        · exact absurd hs Bool.false_ne_true
    · have hlt := clipStop_lt hpos n
      simp only [RangeSpec.encode, RangeSpec.resolve] at hs ⊢
      rw [fixupRange_suffix hpos hsize, if_neg (by omega)] at hs
      exact absurd hs Bool.false_ne_true
  · right
    rintro (⟨first, last, h⟩ | ⟨first, h⟩ | ⟨n, h⟩) hs
    · simp only [RangeSpec.encode, RangeSpec.resolve] at hs ⊢
      split_ifs at hs with hlt
      · rw [fixupRange_given hpos hsize (by omega)]
        unfold clipStop
        split_ifs <;> first | rfl | omega
      · exact absurd hs Bool.false_ne_true
    · simp only [RangeSpec.encode, RangeSpec.resolve] at hs ⊢
      split_ifs at hs with hlt
      · rw [fixupRange_given hpos hsize (by omega), hclip, if_pos (by omega)]
        rfl
      · exact absurd hs Bool.false_ne_true
    · simp only [RangeSpec.encode, RangeSpec.resolve] at hs ⊢
      split_ifs at hs with h1
      · rw [fixupRange_suffix hpos hsize]
        unfold clipStop
        split_ifs <;> first | rfl | omega
      · exact absurd hs Bool.false_ne_true

lemma fixupRanges_resolve_iff (hpos : 0 < filesize) (hsize : filesize < 2 ^ 63)
    (specs : List RangeSpec) :
    fixupRanges filesize (specs.map RangeSpec.encode) = specs.filterMap (RangeSpec.resolve filesize) ↔
      ∀ s ∈ specs, s.Plain filesize := by
  have hall : (∀ s ∈ specs, fixupRange filesize s.encode = s.resolve filesize) ↔
      ∀ s ∈ specs, s.Plain filesize :=
    forall₂_congr fun s _ => fixupRange_resolve_iff hpos hsize s
  unfold fixupRanges
  rw [if_neg (by omega), List.filterMap_map, ← hall]
  rcases fixupRange_monotone hpos hsize with hmono | hmono
  · have hiff := filterMap_eq_iff (l := specs) (g := fixupRange filesize ∘ RangeSpec.encode) fun s _ => hmono s
    rw [eq_comm, hiff]
    exact forall₂_congr fun s _ => eq_comm
  · exact filterMap_eq_iff fun s _ => hmono s

end Fixup

/-- `ranges_fixup` leaves the resolutions of the satisfiable ranges, in order, and answers 416
exactly if there are none. -/
structure Request.Resolves (env : Env) (c : Request) (specs : List RangeSpec) : Prop where
  ranges : (c.rangesFixup env).1.ranges = specs.filterMap (RangeSpec.resolve c.filesize)
  fails : (c.rangesFixup env).2 = false ↔ specs.filterMap (RangeSpec.resolve c.filesize) = []
  answer : (c.rangesFixup env).2 = false → (c.rangesFixup env).1.responseStatus = 416

lemma Request.rangesFixup_cases (env : Env) (c : Request) :
    (fixupRanges c.filesize c.ranges = [] ∧ (c.rangesFixup env).2 = false ∧
      (c.rangesFixup env).1.ranges = [] ∧ (c.rangesFixup env).1.responseStatus = 416) ∨
    (fixupRanges c.filesize c.ranges ≠ [] ∧
      c.rangesFixup env = ({ c with ranges := fixupRanges c.filesize c.ranges }, true)) := by
  unfold Request.rangesFixup
  dsimp only
  by_cases h : fixupRanges c.filesize c.ranges = []
  · left
    rw [if_pos h]
    have hcode : ∀ d : Request, (d.sendRInvalidRange env).responseStatus = 416 := fun d => by
      unfold Request.sendRInvalidRange Request.sendR
      dsimp only
      split_ifs <;> rfl
    obtain ⟨o, code, he, -⟩ := Request.sendRInvalidRange_refused env
      { c with ranges := fixupRanges c.filesize c.ranges }
    refine ⟨h, rfl, ?_, hcode _⟩
    dsimp only
    rw [he]
    exact h
  · right
    rw [if_neg h]
    exact ⟨h, rfl⟩

/-- `ranges_fixup` follows the standard exactly on lists of plain ranges. -/
theorem rangesFixup_resolves_iff (env : Env) {c : Request} {specs : List RangeSpec}
    (hc : c.ranges = specs.map RangeSpec.encode) (hpos : 0 < c.filesize) (hsize : c.filesize < 2 ^ 63) :
    c.Resolves env specs ↔ ∀ s ∈ specs, s.Plain c.filesize := by
  rw [← fixupRanges_resolve_iff hpos hsize, ← hc]
  rcases c.rangesFixup_cases env with ⟨hnil, hfail, hranges, hcode⟩ | ⟨hne, he⟩
  · constructor
    · intro h
      rw [hnil, ← h.ranges, hranges]
    · intro h
      rw [hnil] at h
      exact ⟨by rw [hranges, h], by simp [hfail, ← h], fun _ => hcode⟩
  · have hranges : (c.rangesFixup env).1.ranges = fixupRanges c.filesize c.ranges := by rw [he]
    have hok : (c.rangesFixup env).2 = true := by rw [he]
    constructor
    · intro h
      rw [← hranges, h.ranges]
    · intro h
      refine ⟨hranges.trans h, ?_, fun hf => absurd (hok.symm.trans hf) (by decide)⟩
      rw [← h, hok]
      exact iff_of_false (by decide) hne

/-- A request for three ranges of a file of 600 bytes, the last of them a suffix. -/
def threeSpecs : List RangeSpec :=
  [.bounded 0 10 (by decide), .onward 33 (by decide), .suffix 500 (by decide)]

theorem rangesFixup_resolves_three :
    Request.Resolves tinyEnv { ranges := threeSpecs.map RangeSpec.encode, filesize := 600 } threeSpecs := by
  have h := rangesFixup_resolves_iff tinyEnv
    (c := { ranges := threeSpecs.map RangeSpec.encode, filesize := 600 }) rfl (by decide) (by decide)
  refine h.mpr ?_
  unfold threeSpecs
  simp [RangeSpec.Plain, ulongMax]

/-- The last ten bytes of a file of ten bytes start at its second byte. -/
theorem suffix_drops_first : ∃ (c : Request) (specs : List RangeSpec),
    c.ranges = specs.map RangeSpec.encode ∧ 0 < c.filesize ∧ c.filesize < 2 ^ 63 ∧
      ∀ env, (c.rangesFixup env).1.ranges = [⟨1, 9⟩] ∧ ¬ c.Resolves env specs := by
  refine ⟨{ ranges := [⟨ulongMax, 10⟩], filesize := 10 }, [.suffix 10 (by decide)], rfl, by decide, by decide,
    fun env => ?_⟩
  have hfixed : fixupRanges 10 [⟨ulongMax, 10⟩] = [⟨1, 9⟩] := by decide +kernel
  have hranges : (Request.rangesFixup env { ranges := [⟨ulongMax, 10⟩], filesize := 10 }).1.ranges = [⟨1, 9⟩] := by
    rcases Request.rangesFixup_cases env { ranges := [⟨ulongMax, 10⟩], filesize := 10 } with ⟨hnil, -⟩ | ⟨-, he⟩
    · exact absurd (hfixed.symm.trans hnil) (by decide)
    · rw [he]
      exact hfixed
  refine ⟨hranges, fun h => ?_⟩
  have hresolve := h.ranges
  rw [hranges] at hresolve
  exact absurd hresolve (by decide +kernel)

end Boa
