import Boa.InPlace
import Boa.Once

/-! Which characters get into the lines that `read_header` hands on. -/
namespace Boa
open Memory History

/-- A line without control characters but TAB. -/
def CleanLine (line : Bytes) : Prop := ∀ b ∈ line, b = tab ∨ 32 ≤ b ∧ b ≠ 127

instance (line : Bytes) : Decidable (CleanLine line) :=
  inferInstanceAs (Decidable (∀ b ∈ line, b = tab ∨ 32 ≤ b ∧ b ≠ 127))

/-- A character that stays in a line though it is a control character, or makes one stay: DEL passes the
test of `read_header`, and a CR is not looked at again when no line end follows it. -/
def slipsIn (s : Status) (uc : UInt8) : Bool :=
  uc == 127 || (s = .oneCr || s = .twoCr) && uc != cr && uc != lf

/-- The loop of `read_header` meets such a character. -/
def slips : Status → Bytes → Bool
  | _, [] => false
  | s, uc :: bs =>
    !illegalChar uc && (slipsIn s uc || nextStatus s uc != .bodyRead && slips (nextStatus s uc) bs)

/-- The runs in which the parser meets none. -/
def Tidy : Label → Request → Prop
  | .pass _, c => c.status.inHeader → slips c.status (c.clientStream.drop c.parsePos) = false
  | _, _ => True

/-- The lines handed on are clean. -/
def CleanIn (t : List Event) : Prop := ∀ line, .logline line ∈ t ∨ .optionLine line ∈ t → CleanLine line

/-- An event that hands on no line. -/
def Event.wordless (e : Event) : Prop := ∀ line, e ≠ .logline line ∧ e ≠ .optionLine line

/-- The string from `header_line` up to `n`. -/
def Request.lineTo (c : Request) (n : ℕ) : Bytes := cstr (slice c.clientStream c.headerLine.off n)

/-- What is clean while a line is read: all of it, or what comes before the CR that may end it. -/
structure Tidied (c : Request) : Prop where
  marked : c.Marked
  pos : c.headerLine.off ≤ c.parsePos
  size : c.parsePos ≤ c.clientStream.length
  text : c.status = .readHeader ∨ c.status = .oneLf → CleanLine (c.lineTo c.parsePos)
  ended : c.status = .oneCr → c.headerLine.off ≤ c.headerEnd.off ∧ CleanLine (c.lineTo c.headerEnd.off)

lemma Event.wordless_of_later {e : Event} (h : e.later) : e.wordless := by
  intro line
  constructor
  · rintro rfl
    exact h
  · rintro rfl
    exact h

lemma CleanIn.adds {t t' : List Event} (ht : CleanIn t) (h : Adds Event.wordless t t') : CleanIn t' := by
  intro line hline
  rcases hline with hl | hl
  · exact ht line (.inl ((h.mem hl).resolve_right fun hw => (hw line).1 rfl))
  · exact ht line (.inr ((h.mem hl).resolve_right fun hw => (hw line).2 rfl))

lemma CleanIn.logline {t : List Event} {line : Bytes} (ht : CleanIn t) (h : CleanLine line) :
    CleanIn (t ++ [.logline line]) := by
  intro l hl
  simp only [List.mem_append, List.mem_singleton, Event.logline.injEq, reduceCtorEq, or_false] at hl
  rcases hl with (hl | rfl) | hl
  · exact ht l (.inl hl)
  · exact h
  · exact ht l (.inr hl)

lemma CleanIn.optionLine {t : List Event} {line : Bytes} (ht : CleanIn t) (h : CleanLine line) :
    CleanIn (t ++ [.optionLine line]) := by
  intro l hl
  simp only [List.mem_append, List.mem_singleton, Event.optionLine.injEq, reduceCtorEq, or_false] at hl
  rcases hl with hl | hl | rfl
  · exact ht l (.inl hl)
  · exact ht l (.inr hl)
  · exact h

/-! ### The text of a line -/

lemma CleanLine.of_prefix {s t : Bytes} (h : CleanLine t) (hs : s <+: t) : CleanLine s :=
  fun b hb => h b (hs.subset hb)

/-- One more character of the string. -/
lemma CleanLine.snoc {s : Bytes} {uc : UInt8} (h : CleanLine (cstr s)) (huc : CleanLine [uc]) :
    CleanLine (cstr (s ++ [uc])) := by
  by_cases hs : 0 ∈ s
  · obtain ⟨t, ht⟩ := exists_cstr_append hs
    have hsame : cstr (s ++ [uc]) = cstr s := by
      rw [ht, List.append_assoc, List.cons_append, cstr_append_nul (cstr_nul s), cstr_append_nul (cstr_nul s)]
    rw [hsame]
    exact h
  · rw [cstr_of_not_mem hs] at h
    have hboth : CleanLine (s ++ [uc]) := by
      intro b hb
      rcases List.mem_append.mp hb with hb | hb
      · exact h b hb
      · exact huc b hb
    exact hboth.of_prefix (List.takeWhile_prefix _)

lemma slice_snoc {m rest : Bytes} {i n : ℕ} {uc : UInt8} (h : m.drop n = uc :: rest) (hi : i ≤ n) :
    slice m i (n + 1) = slice m i n ++ [uc] := by
  have hone : slice m n (n + 1) = [uc] := by
    rw [slice, h, Nat.add_sub_cancel_left]
    rfl
  rw [← hone, slice_append_slice hi (Nat.le_succ n)]

lemma cstr_slice_prefix (m : Bytes) (i n : ℕ) : cstr (slice m i n) <+: cstr (m.drop i) := by
  unfold cstr slice
  rw [← List.take_takeWhile]
  exact List.take_prefix _ _

lemma clean_of_legal {uc : UInt8} (hi : illegalChar uc = false) (hcr : uc ≠ cr) (hlf : uc ≠ lf) (hdel : uc ≠ 127) :
    CleanLine [uc] := by
  intro b hb
  rw [List.mem_singleton.mp hb]
  by_cases htab : uc = tab
  · exact .inl htab
  · simp only [illegalChar, bne_iff_ne, ne_eq, hcr, hlf, htab, not_false_eq_true, Bool.and_eq_false_imp,
      Bool.and_eq_true, and_self, Bool.or_eq_false_iff, decide_eq_false_iff_not, forall_const] at hi
    exact .inr ⟨UInt8.le_iff_toNat_le.mpr (by simpa using hi.1), hdel⟩

/-- A NUL is put where the line ends. -/
lemma lineAt_terminateLine {c : Request} (hle : c.headerLine.off ≤ c.headerEnd.off)
    (hlt : c.headerEnd.off < c.clientStream.length) :
    c.terminateLine.lineAt = c.lineTo c.headerEnd.off := by
  have hset : (c.clientStream.set c.headerEnd.off 0).drop c.headerLine.off =
      slice c.clientStream c.headerLine.off c.headerEnd.off ++ 0 :: c.clientStream.drop (c.headerEnd.off + 1) := by
    have hlen : (c.clientStream.take c.headerEnd.off).length = c.headerEnd.off :=
      List.length_take_of_le hlt.le
    rw [List.set_eq_take_append_cons_drop, if_pos hlt, List.drop_append_of_le_length (by omega), List.drop_take]
    rfl
  show cstr ((c.clientStream.set c.headerEnd.off 0).drop c.headerLine.off) = _
  rw [hset, cstr_terminated]
  rfl

/-! ### The steps of the parser -/

section Steps

variable {env : Env} {c d : Request} {uc : UInt8} {rest : Bytes} {r : Option Ret}

/-! How a status of the header is reached. -/

section Status

variable {s : Status}

/-- A character is CR, LF or neither of them. -/
lemma nextStatus_plain (hin : s.inHeader) (hcr : uc ≠ cr) (hlf : uc ≠ lf) : nextStatus s uc = .readHeader := by
  unfold nextStatus
  cases s with
  | readHeader => simp [hcr, hlf]
  | oneCr => simp [hcr, hlf]
  | oneLf => simp [hcr, hlf]
  | twoCr => simp [hcr, hlf]
  | _ => exact absurd hin (by decide)

lemma nextStatus_oneLf (hin : s.inHeader) (h : nextStatus s uc = .oneLf) :
    (s = .readHeader ∨ s = .oneCr) ∧ uc = lf := by
  by_cases hlf : uc = lf
  · subst hlf
    revert h
    cases s <;> decide
  · by_cases hcr : uc = cr
    · subst hcr
      revert h
      cases s <;> decide
    · rw [nextStatus_plain hin hcr hlf] at h
      cases h

lemma nextStatus_oneCr (hin : s.inHeader) (h : nextStatus s uc = .oneCr) :
    (s = .readHeader ∨ s = .oneCr) ∧ uc = cr := by
  by_cases hcr : uc = cr
  · subst hcr
    revert h
    cases s <;> decide
  · by_cases hlf : uc = lf
    · subst hlf
      revert h
      cases s <;> decide
    · rw [nextStatus_plain hin hcr hlf] at h
      cases h

lemma nextStatus_readHeader (hin : s.inHeader) (h : nextStatus s uc = .readHeader) (hslip : slipsIn s uc = false) :
    (s = .readHeader ∨ s = .oneLf) ∧ uc ≠ cr ∧ uc ≠ lf := by
  have hcr : uc ≠ cr := by
    rintro rfl
    revert h
    revert hin
    cases s <;> decide
  have hlf : uc ≠ lf := by
    rintro rfl
    revert h
    revert hin
    cases s <;> decide
  refine ⟨?_, hcr, hlf⟩
  cases s with
  | readHeader => exact .inl rfl
  | oneLf => exact .inr rfl
  | oneCr => simp [slipsIn, hcr, hlf] at hslip
  | twoCr => simp [slipsIn, hcr, hlf] at hslip
  | _ => exact absurd hin (by decide)

end Status

/-- The text behind one more character that belongs to the line. -/
lemma Tidied.grow (h : Tidied c) (hdrop : c.clientStream.drop c.parsePos = uc :: rest)
    (hs : c.status = .readHeader ∨ c.status = .oneLf) (huc : CleanLine [uc]) :
    CleanLine ((c.advance uc).lineTo (c.advance uc).parsePos) := by
  show CleanLine (cstr (slice c.clientStream c.headerLine.off (c.parsePos + 1)))
  rw [slice_snoc hdrop h.pos]
  exact (h.text hs).snoc huc

/-- A line end is marked where the text stops being clean. -/
lemma Tidied.mark (h : Tidied c) (hs : c.status = .readHeader ∨ c.status = .oneCr)
    (huc : uc = cr ∨ uc = lf) : (c.advance uc).headerLine.off ≤ (c.advance uc).headerEnd.off ∧
      CleanLine ((c.advance uc).lineTo (c.advance uc).headerEnd.off) := by
  have hline : ∀ n, (c.advance uc).lineTo n = c.lineTo n := fun _ => rfl
  rw [hline]
  rcases hs with hs | hs
  · have hend : (c.advance uc).headerEnd = ⟨.clientStream, c.parsePos⟩ := by
      unfold Request.advance marksEnd
      rcases huc with rfl | rfl
      · simp [hs]
      · simp [hs]
    rw [hend]
    exact ⟨h.pos, h.text (.inl hs)⟩
  · have hend : (c.advance uc).headerEnd = c.headerEnd := by
      unfold Request.advance marksEnd
      simp [hs]
    rw [hend]
    exact h.ended hs

/-- Where a line ends it was marked. -/
lemma Tidied.line_end (h : Tidied c) (hs : (c.advance uc).status = .oneLf) (hin : c.status.inHeader) :
    (c.advance uc).headerLine.off ≤ (c.advance uc).headerEnd.off ∧
      CleanLine ((c.advance uc).lineTo (c.advance uc).headerEnd.off) := by
  obtain ⟨hfrom, rfl⟩ := nextStatus_oneLf hin hs
  exact h.mark hfrom (.inr rfl)

/-- A character within a line. -/
lemma Tidied.skip (h : Tidied c) (hdrop : c.clientStream.drop c.parsePos = uc :: rest)
    (hi : illegalChar uc = false) (hslip : slipsIn c.status uc = false) (hin : c.status.inHeader)
    (hs : (c.advance uc).status ≠ .oneLf) (hin' : (c.advance uc).status.inHeader) : Tidied (c.advance uc) := by
  have hdel : uc ≠ 127 := by
    rintro rfl
    simp [slipsIn] at hslip
  refine ⟨(Request.advance_taken h.marked uc).marked hin', h.pos.trans (Nat.le_succ _), lt_length_of_drop hdrop,
    fun htext => ?_, fun hcr => ?_⟩
  · obtain ⟨hfrom, hcr, hlf⟩ := nextStatus_readHeader hin (htext.resolve_right hs) hslip
    exact h.grow hdrop hfrom (clean_of_legal hi hcr hlf hdel)
  · obtain ⟨hfrom, rfl⟩ := nextStatus_oneCr hin hcr
    exact h.mark hfrom (.inl rfl)

lemma Refused.wordless (h : Refused c d) : Adds Event.wordless c.trace d.trace := by
  obtain ⟨o, code, rfl, -, hr⟩ := h
  exact hr.adds.mono fun e he => Event.wordless_of_later (Event.later_of_answers (Event.answers_of_reply he))

lemma processHeaderEnd_wordless (env : Env) (h0 : c.bufferStart = 0) :
    Adds Event.wordless c.trace (c.processHeaderEnd env).1.trace := by
  have hlog : Adds Event.wordless c.trace (c.log .headerEnd).trace := .snoc fun _ => ⟨nofun, nofun⟩
  have hend := (Request.processHeaderEnd_concluded (S := False) env c h0).adds
  refine hlog.trans (hend.mono fun e he => ?_)
  rcases he with he | he
  · exact Event.wordless_of_later (Event.later_of_answers he)
  · intro line
    constructor
    · rintro rfl
      exact he
    · rintro rfl
      exact he

lemma endHeader_wordless (env : Env) (h0 : c.bufferStart = 0) :
    Adds Event.wordless c.trace (c.endHeader env).1.trace := by
  refine (processHeaderEnd_wordless env h0).trans ((endHeader_adds env c).mono fun e he => ?_)
  exact Event.wordless_of_later (Event.later_of_answers he)

/-- What a line leaves to the next one. -/
lemma Tidied.start (hm : d.startLine.Marked) (hs : d.status ≠ .oneCr) (hle : d.parsePos ≤ d.clientStream.length) :
    Tidied d.startLine := by
  refine ⟨hm, le_rfl, hle, fun _ => ?_, fun hcr => absurd hcr hs⟩
  show CleanLine (cstr (slice d.clientStream d.parsePos d.parsePos))
  rw [slice_self]
  exact fun b hb => absurd hb List.not_mem_nil

/-- A POST without a version stays in its header: the parser still points to the request line, which the
NUL behind it ends. -/
lemma Tidied.entered (h0 : c.bufferStart = 0) (hr : (c.processHeaderEnd env).2 ≠ .done) (hs : c.status = .oneLf)
    (hle : c.headerLine.off ≤ c.parsePos) (hsize : c.parsePos ≤ c.clientStream.length) (hclean : CleanLine c.lineAt)
    (hm : (c.processHeaderEnd env).1.Marked) (hin : (c.processHeaderEnd env).1.status.inHeader) :
    Tidied (c.processHeaderEnd env).1 := by
  have hconc := Request.processHeaderEnd_concluded (S := False) env c h0
  obtain ⟨-, hstream, -, -, -, -, -, hpos⟩ := Request.of_kept (Request.of_fixed hconc.fixed).1
  obtain ⟨hlate, -⟩ | ⟨-, -, hstatus, -, hpiping⟩ := hconc.next hr
  · exact absurd (Status.inHeader_iff.mp hin) (by omega)
  · have hstatus : (c.processHeaderEnd env).1.status = .oneLf := hstatus.trans hs
    have hline : (c.processHeaderEnd env).1.headerLine = c.headerLine := by
      simp only [Request.piping, Prod.mk.injEq] at hpiping
      exact hpiping.1
    have hstream : (c.processHeaderEnd env).1.clientStream = c.clientStream := hstream
    have hpos : (c.processHeaderEnd env).1.parsePos = c.parsePos := hpos
    refine ⟨hm, ?_, ?_, fun _ => ?_, fun hcr => ?_⟩
    · rw [hline, hpos]
      exact hle
    · rw [hstream, hpos]
      exact hsize
    · refine hclean.of_prefix ?_
      unfold Request.lineTo Request.lineAt
      rw [hline, hstream]
      exact cstr_slice_prefix _ _ _
    · rw [hstatus] at hcr
      cases hcr

/-- One character: the line it ends is clean, and so is what it leaves. -/
lemma ByteStep.clean (h : ByteStep env c uc d r) (hp : Parsing False c) (hc : CleanIn c.trace) (ht : Tidied c)
    (hdrop : c.clientStream.drop c.parsePos = uc :: rest)
    (hslip : illegalChar uc = false → slipsIn c.status uc = false) :
    CleanIn d.trace ∧ (r ≠ some .done → d.status.inHeader → Tidied d) := by
  have htaken := h.taken hp.start ht.marked
  have hlt : c.parsePos < c.clientStream.length := lt_length_of_drop hdrop
  have hsize : (c.advance uc).parsePos ≤ (c.advance uc).terminateLine.clientStream.length := by
    show c.parsePos + 1 ≤ (c.clientStream.set _ _).length
    rw [List.length_set]
    exact hlt
  have hline : (c.advance uc).status = .oneLf → CleanLine (c.advance uc).terminateLine.lineAt := by
    intro hs
    obtain ⟨hle, hclean⟩ := ht.line_end hs hp.header
    have hmark : (c.advance uc).headerEnd.off < c.parsePos + 1 :=
      (Request.advance_taken ht.marked uc).marked (by rw [hs]; decide) (by rw [hs]; decide)
    rw [lineAt_terminateLine hle (show (c.advance uc).headerEnd.off < c.clientStream.length by omega)]
    exact hclean
  have hdone : ∀ {e : Request}, CleanIn e.trace → Refused e d →
      CleanIn d.trace ∧ (some Ret.done ≠ some .done → d.status.inHeader → Tidied d) := fun he hd =>
    ⟨he.adds hd.wordless, fun hn => absurd rfl hn⟩
  cases h with
  | illegal hi hd => exact hdone (by exact hc.adds (.snoc fun _ => ⟨nofun, nofun⟩)) hd
  | tooLong hi hs hl hd => exact hdone (by exact hc.adds (.snoc fun _ => ⟨nofun, nofun⟩)) hd
  | skip hi h1 h2 => exact ⟨hc, fun _ hin => ht.skip hdrop hi (hslip hi) hp.header h1 hin⟩
  | option hi hs hl hd hcount =>
    have hclean : CleanIn _ := hc.optionLine (hline hs)
    have hmarked := htaken nofun
    obtain ⟨_, _, _, _, _, _, _, _, _, _, _, _, rfl⟩ := hd
    refine ⟨hclean, fun _ hin => .start (hmarked.marked hin) ?_ hsize⟩
    show (c.advance uc).status ≠ .oneCr
    rw [hs]
    decide
  | optionStop hi hs hl hd =>
    have hclean : CleanIn _ := hc.optionLine (hline hs)
    obtain ⟨e, ⟨_, _, _, _, _, _, _, _, _, _, _, _, rfl⟩, ⟨rfl, -⟩ | ⟨-, hr⟩⟩ := hd
    · exact ⟨hclean, fun hn => absurd rfl hn⟩
    · exact hdone hclean hr
  | logline hi hs hl hd hv =>
    have hclean : CleanIn _ := hc.logline (hline hs)
    have hmarked := htaken nofun
    obtain ⟨_, _, _, _, _, _, rfl, -⟩ := hd
    refine ⟨hclean, fun _ hin => .start (hmarked.marked hin) ?_ hsize⟩
    show (c.advance uc).status ≠ .oneCr
    rw [hs]
    decide
  | loglineStop hi hs hl hd he =>
    have hclean : CleanIn _ := hc.logline (hline hs)
    obtain ⟨_, _, _, _, _, _, rfl, -⟩ := hd
    exact hdone hclean he
  | @short e hi hs hl hd hv =>
    have hclean : CleanIn e.trace := by
      have hlog : CleanIn _ := hc.logline (hline hs)
      obtain ⟨_, _, _, _, _, _, rfl, -⟩ := hd
      exact hlog
    have hstart : e.bufferStart = 0 := by
      obtain ⟨_, _, _, _, _, _, rfl, -⟩ := hd
      exact hp.start
    have hsame : e.status = .oneLf ∧ e.lineAt = (c.advance uc).terminateLine.lineAt ∧
        e.headerLine.off ≤ e.parsePos ∧ e.parsePos ≤ e.clientStream.length := by
      obtain ⟨_, _, _, _, _, _, rfl, -⟩ := hd
      exact ⟨hs, rfl, ht.pos.trans (Nat.le_succ _), hsize⟩
    refine ⟨hclean.adds (processHeaderEnd_wordless env hstart), fun hr hin => ?_⟩
    have hr' : (e.processHeaderEnd env).2 ≠ .done := fun hd => hr (congrArg some hd)
    obtain ⟨hstatus, htext, hle, hlength⟩ := hsame
    exact .entered hstart hr' hstatus hle hlength (htext ▸ hline hs) ((htaken hr).marked hin) hin
  | finish hi hs =>
    refine ⟨hc.adds (endHeader_wordless (c := c.advance uc) env hp.start), fun hr hin => ?_⟩
    exact absurd hin (endHeader_behind hp.start fun hd => hr (congrArg some hd))

/-- The test of the loop, taken apart. -/
lemma slips_cons {s : Status} (h : slips s (uc :: rest) = false) (hi : illegalChar uc = false) :
    slipsIn s uc = false ∧ (nextStatus s uc ≠ .bodyRead → slips (nextStatus s uc) rest = false) := by
  unfold slips at h
  rw [hi, Bool.not_false, Bool.true_and, Bool.or_eq_false_iff] at h
  refine ⟨h.1, fun hne => ?_⟩
  have hgo : (nextStatus s uc != .bodyRead) = true := bne_iff_ne.mpr hne
  rw [hgo, Bool.true_and] at h
  exact h.2

/-- A byte that the loop goes on from is a legal one. -/
lemma ByteStep.legal (h : ByteStep env c uc d none) : illegalChar uc = false := by
  cases h with
  | skip hi => exact hi
  | option hi => exact hi
  | logline hi => exact hi

open Request in
/-- The loop of `read_header`, when no character ahead slips in. -/
lemma scanHeader_clean (env : Env) (bs : Bytes) {c : Request} (hp : Parsing False c) (hc : CleanIn c.trace)
    (ht : Tidied c) (hdrop : c.clientStream.drop c.parsePos = bs) (hslips : slips c.status bs = false) :
    CleanIn (scanHeader env c bs).1.trace ∧ ((scanHeader env c bs).2 ≠ some .done →
      (scanHeader env c bs).1.status.inHeader → Tidied (scanHeader env c bs).1) := by
  induction bs generalizing c with
  | nil => exact ⟨hc, fun _ _ => ht⟩
  | cons uc bs ih =>
    have hstep := headerByte_step env c uc
    have hended := hstep.ended hp
    have hbyte := hstep.clean hp hc ht hdrop fun hi => (slips_cons hslips hi).1
    unfold scanHeader
    generalize c.headerByte env uc = r at hstep hended hbyte
    obtain ⟨d, _ | ret⟩ := r
    · have htaken : Taken 1 c d := hstep.taken hp.start ht.marked (by simp)
      have hstatus : d.status = nextStatus c.status uc := hstep.status
      have hd : Parsing False d := hended.1 rfl
      have hahead : d.clientStream.drop d.parsePos = bs := by
        rw [htaken.ahead]
        exact drop_succ hdrop
      have hnext : slips d.status bs = false := by
        rw [hstatus]
        refine (slips_cons hslips hstep.legal).2 fun hend => ?_
        have hin := hd.header
        rw [hstatus, hend] at hin
        exact absurd hin (by decide)
      exact ih hd hbyte.1 (hbyte.2 (by simp) hd.header) hahead hnext
    · exact ⟨hbyte.1, fun hr => hbyte.2 hr⟩

/-- What is received lies behind the line. -/
lemma Tidied.receive (h : Tidied c) (bs : Bytes) :
    Tidied { c.popClient.log (.received bs) with clientStream := c.clientStream ++ bs } := by
  have hslice : ∀ n ≤ c.clientStream.length, slice (c.clientStream ++ bs) c.headerLine.off n =
      slice c.clientStream c.headerLine.off n := by
    intro n hn
    rw [slice, slice, ← List.drop_take, ← List.drop_take, List.take_append_of_le_length hn]
  refine ⟨h.marked, h.pos, ?_, fun hs => ?_, fun hs => ?_⟩
  · show c.parsePos ≤ (c.clientStream ++ bs).length
    rw [List.length_append]
    exact h.size.trans (Nat.le_add_right _ _)
  · show CleanLine (cstr (slice (c.clientStream ++ bs) c.headerLine.off c.parsePos))
    rw [hslice _ h.size]
    exact h.text hs
  · have hs : c.status = .oneCr := hs
    have hlt : c.headerEnd.off < c.parsePos := h.marked (by rw [hs]; decide)
    show _ ∧ CleanLine (cstr (slice (c.clientStream ++ bs) c.headerLine.off c.headerEnd.off))
    rw [hslice _ (hlt.le.trans h.size)]
    exact h.ended hs

lemma readMore_clean (hc : CleanIn c.trace) (ht : Tidied c) :
    CleanIn c.readMore.1.trace ∧ (c.readMore.2 ≠ .done → Tidied c.readMore.1) := by
  have hnote : ∀ e : Event, e.wordless → CleanIn (c.trace ++ [e]) := fun e he => hc.adds (.snoc he)
  have hpop : Tidied c.popClient := ⟨ht.marked, ht.pos, ht.size, ht.text, ht.ended⟩
  unfold Request.readMore
  dsimp only
  split_ifs
  · exact ⟨hnote _ fun _ => ⟨nofun, nofun⟩, fun hn => absurd rfl hn⟩
  · split
    · exact ⟨hc, fun _ => hpop⟩
    · exact ⟨hc, fun _ => hpop⟩
    · exact ⟨hc, fun hn => absurd rfl hn⟩
    · exact ⟨hnote _ fun _ => ⟨nofun, nofun⟩, fun hn => absurd rfl hn⟩
    · exact ⟨hnote _ fun _ => ⟨nofun, nofun⟩, fun _ => ht.receive _⟩

open Request in
lemma readHeader_clean (env : Env) (hp : Parsing False c) (hc : CleanIn c.trace) (ht : Tidied c)
    (hslips : slips c.status (c.clientStream.drop c.parsePos) = false) :
    CleanIn (c.readHeader env).1.trace ∧
      ((c.readHeader env).2 ≠ .done → (c.readHeader env).1.status.inHeader → Tidied (c.readHeader env).1) := by
  have hscan := scanHeader_clean env (c.clientStream.drop c.parsePos) hp hc ht rfl hslips
  have hended := scanHeader_ended env hp (c.clientStream.drop c.parsePos)
  unfold readHeader
  generalize scanHeader env c (c.clientStream.drop c.parsePos) = r at hscan hended
  obtain ⟨d, _ | ret⟩ := r
  · have hd : Tidied d := hscan.2 nofun (hended.1 rfl).header
    have hlt : d.status < .bodyRead := (hended.1 rfl).header
    obtain ⟨h1, h2⟩ := readMore_clean hscan.1 hd
    dsimp only
    rw [if_pos hlt]
    exact ⟨h1, fun hr _ => h2 hr⟩
  · exact ⟨hscan.1, fun hr => hscan.2 fun he => hr (Option.some.inj he)⟩

end Steps

/-- How a header is read in runs without a character that slips in. -/
lemma clean_rule : HeaderRule Tidy CleanIn fun c => c.status.inHeader → Tidied c where
  nil line h := by simp at h
  later ht h := ht.adds (h.mono fun _ => Event.wordless_of_later)
  fresh o l hs _ _ := by
    have hempty : CleanLine (cstr (slice l.clientStream 0 0)) := by
      rw [slice_self]
      exact fun b hb => absurd hb List.not_mem_nil
    refine ⟨fun hne => absurd hs hne, le_rfl, Nat.zero_le _, fun _ => hempty, fun hcr => ?_⟩
    exact absurd (hs.symm.trans hcr) nofun
  heed env c hc := by
    obtain ⟨k, hk⟩ := Request.heedSigterm_eq env c
    rw [hk]
    intro hin
    have ht := hc hin
    exact ⟨ht.marked, ht.pos, ht.size, ht.text, ht.ended⟩
  read env c hP hp hc ht := by
    have ht := ht hp.header
    exact readHeader_clean env hp hc ⟨ht.marked, ht.pos, ht.size, ht.text, ht.ended⟩ (hP hp.header)

/-- In runs in which no DEL is read and no CR is followed by anything but CR and LF, no line that
`read_header` hands on has a control character other than TAB. -/
theorem lines_clean {c : Request} {p : Place} (h : Reach Tidy c p) : ∀ t ∈ c.traces, CleanIn t :=
  (clean_rule.reach h).1

theorem lines_clean_get : CleanIn (receivedGet.processRequest aliasEnv).1.trace := by
  have hread := Reach.pass (P := Tidy) (aliasClient "GET /a HTTP/1.0\r\n\r\n")
    (.accept aliasEnv tinyPeer {} trivial) fun _ => by decide +kernel
  have hready : ((Request.getRequest aliasEnv tinyPeer {}).processRequest
    (aliasClient "GET /a HTTP/1.0\r\n\r\n")).2 = .ready := by decide +kernel
  rw [hready] at hread
  have hahead : Tidy (.pass aliasEnv) receivedGet := fun _ => by decide +kernel
  exact lines_clean (.pass aliasEnv hread hahead) _ (List.mem_append_right _ (List.mem_singleton_self _))

/-- A CR in the middle of the request line, and a DEL. -/
theorem stray_controls : ∃ c p, Reachable c p ∧ ∃ t ∈ c.traces, ∃ line, .logline line ∈ t ∧
    cr ∈ line ∧ 127 ∈ line ∧ ¬ CleanLine line := by
  have hstart : Reachable (Request.getRequest aliasEnv tinyPeer {}) .ready := .accept aliasEnv tinyPeer {} trivial
  have hrun : ((Request.getRequest aliasEnv tinyPeer {}).rounds
      [aliasClient "GET /\rx\x7f HTTP/1.0\r\n\r\n"]).any (fun c =>
        decide (Event.logline (text "GET /\rx\x7f HTTP/1.0") ∈ (c.processRequest aliasEnv).1.trace)) = true := by
    decide +kernel
  obtain ⟨c, hc, ht⟩ := (Option.any_eq_true _ _).mp hrun
  have hreach : Reachable c .ready := reach_rounds hstart (fun _ => trivial) (fun _ _ _ => trivial) hc
  exact ⟨_, _, .pass aliasEnv hreach trivial, (c.processRequest aliasEnv).1.trace, by simp [Request.traces], _,
    of_decide_eq_true ht, by decide +kernel, by decide +kernel, by decide +kernel⟩

end Boa
