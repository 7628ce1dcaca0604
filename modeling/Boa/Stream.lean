import Boa.Runs

/-! What the header parser does to the bytes received from the client: it takes
them one by one and leaves those ahead of it alone. -/
namespace Boa
open Memory History

/-- The bytes an event wrote to the temporary file of a POST. -/
def Event.postedBytes : Event → Bytes
  | .posted bs => bs
  | _ => []

/-- The contents of the temporary file. -/
def postedBytes (t : List Event) : Bytes := t.flatMap Event.postedBytes

@[simp] lemma postedBytes_snoc (t : List Event) (e : Event) :
    postedBytes (t ++ [e]) = postedBytes t ++ e.postedBytes := by
  simp [postedBytes]

lemma postedBytes_adds {K : Event → Prop} {t t' : List Event} (h : Adds K t t')
    (hK : ∀ e, K e → e.postedBytes = []) : postedBytes t' = postedBytes t := by
  obtain ⟨es, rfl, hes⟩ := h
  have hnil : es.flatMap Event.postedBytes = [] :=
    List.flatMap_eq_nil_iff.mpr fun e he => hK e (hes e he)
  rw [postedBytes, postedBytes, List.flatMap_append, hnil, List.append_nil]

lemma Event.postedBytes_of_answers {e : Event} (h : e.answers) : e.postedBytes = [] := by
  cases e <;> first | rfl | exact h.elim

lemma Event.postedBytes_of_overwrites {c : Request} {e : Event} (h : e.overwrites c) :
    e.postedBytes = [] := by
  cases e <;> first | rfl | exact h.elim

/-- `header_end` was set on the line that is being ended. -/
def Request.Marked (c : Request) : Prop := c.status ≠ .readHeader → c.headerEnd.off < c.parsePos

/-- `d` is `c` after the parser has taken `n` bytes. -/
structure Taken (n : ℕ) (c d : Request) : Prop where
  pos : d.parsePos = c.parsePos + n
  ahead : d.clientStream.drop d.parsePos = c.clientStream.drop (c.parsePos + n)
  length : d.clientStream.length = c.clientStream.length
  client : d.client = c.client
  posted : postedBytes d.trace = postedBytes c.trace
  marked : d.status.inHeader → d.Marked

lemma Taken.trans {m n : ℕ} {c d e : Request} (h : Taken m c d) (h' : Taken n d e) :
    Taken (m + n) c e where
  pos := by rw [h'.pos, h.pos, Nat.add_assoc]
  ahead := by
    have ha := congrArg (List.drop n) h.ahead
    rw [List.drop_drop, List.drop_drop, Nat.add_assoc] at ha
    rw [h'.ahead, ha]
  length := h'.length.trans h.length
  client := h'.client.trans h.client
  posted := h'.posted.trans h.posted
  marked := h'.marked

namespace Request

lemma advance_taken {c : Request} (hm : c.Marked) (uc : UInt8) : Taken 1 c (c.advance uc) := by
  refine ⟨rfl, rfl, rfl, rfl, rfl, fun _ hs => ?_⟩
  show (if marksEnd c.status uc then (⟨.clientStream, c.parsePos⟩ : Ptr) else c.headerEnd).off <
    c.parsePos + 1
  split_ifs with hk
  · exact Nat.lt_succ_self _
  · have hne : c.status ≠ .readHeader := by
      intro he
      apply hs
      simp only [advance, nextStatus, marksEnd, he, decide_true, Bool.true_and, Bool.or_eq_true,
        beq_iff_eq, not_or] at hk ⊢
      simp [hk]
    exact Nat.lt_succ_of_lt (hm hne)

/-- The NUL at the end of a line stands behind the parser. -/
lemma terminateLine_taken {c d : Request} (h : Taken 1 c d) (hs : d.status = .oneLf) :
    Taken 1 c d.terminateLine := by
  have hmark : d.headerEnd.off < d.parsePos := h.marked (by rw [hs]; decide) (by simp [hs])
  refine ⟨h.pos, ?_, ?_, h.client, h.posted, fun _ _ => hmark⟩
  · show (d.clientStream.set d.headerEnd.off 0).drop d.parsePos = _
    rw [List.drop_set_of_lt hmark]
    exact h.ahead
  · show (d.clientStream.set d.headerEnd.off 0).length = _
    rw [List.length_set]
    exact h.length

/-- Going on after an event of the parser. -/
lemma Taken.log {n : ℕ} {c d : Request} (h : Taken n c d) {e : Event} (he : e.postedBytes = []) :
    Taken n c (d.log e) := by
  refine ⟨h.pos, h.ahead, h.length, h.client, ?_, h.marked⟩
  show postedBytes (d.trace ++ [e]) = _
  rw [postedBytes_snoc, he, List.append_nil]
  exact h.posted

lemma OptionOf.taken {n : ℕ} {c d e : Request} (h : Taken n c d) (ho : OptionOf d e) : Taken n c e := by
  obtain ⟨_, _, _, _, _, _, _, _, _, _, _, _, rfl⟩ := ho
  exact ⟨h.pos, h.ahead, h.length, h.client, h.posted, h.marked⟩

lemma LoglineOf.taken {n : ℕ} {c d e : Request} (h : Taken n c d) (ho : LoglineOf d e) : Taken n c e := by
  obtain ⟨_, _, _, _, _, _, rfl, -⟩ := ho
  have hl := Taken.log h (e := .logline d.lineAt) rfl
  exact ⟨h.pos, h.ahead, h.length, h.client, hl.posted, h.marked⟩

lemma startLine_taken {n : ℕ} {c d : Request} (h : Taken n c d) : Taken n c d.startLine :=
  ⟨h.pos, h.ahead, h.length, h.client, h.posted, h.marked⟩

/-- `process_header_end` leaves the stream to the body. -/
lemma processHeaderEnd_taken {env : Env} {n : ℕ} {c d : Request} (h : Taken n c d)
    (h0 : d.bufferStart = 0) (hr : (d.processHeaderEnd env).2 ≠ .done) :
    Taken n c (d.processHeaderEnd env).1 := by
  have hc := processHeaderEnd_concluded (S := False) env d h0
  obtain ⟨hk, hclient⟩ := of_fixed hc.fixed
  obtain ⟨-, hstream, -, -, -, -, -, hpos⟩ := of_kept hk
  have hstream' : (d.processHeaderEnd env).1.clientStream = d.clientStream := hstream
  have hpos' : (d.processHeaderEnd env).1.parsePos = d.parsePos := hpos
  refine ⟨hpos'.trans h.pos, ?_, ?_, hclient.trans h.client, ?_, fun hin => ?_⟩
  · rw [hstream', hpos']
    exact h.ahead
  · rw [hstream']
    exact h.length
  · refine Eq.trans ?_ (Taken.log h (e := .headerEnd) rfl).posted
    exact postedBytes_adds hc.adds fun e he =>
      he.elim Event.postedBytes_of_answers Event.postedBytes_of_overwrites
  · obtain ⟨h6, -⟩ | ⟨-, -, hs, -, hp⟩ := hc.next hr
    · exact absurd h6 (Nat.not_le_of_lt (Nat.lt_of_lt_of_le hin (by decide)))
    · have hs' : (d.processHeaderEnd env).1.status = d.status := hs
      have hp' : (d.processHeaderEnd env).1.headerEnd = d.headerEnd := by
        simp only [piping, Prod.mk.injEq] at hp
        exact hp.2.1
      intro hne
      rw [hp', hpos']
      rw [hs'] at hin hne
      exact h.marked hin hne

lemma endHeader_taken {env : Env} {n : ℕ} {c d : Request} (h : Taken n c d) (h0 : d.bufferStart = 0)
    (hr : (d.endHeader env).2 ≠ .done) : Taken n c (d.endHeader env).1 := by
  obtain ⟨-, he⟩ | ⟨hd, he⟩ | ⟨hd, -, he⟩ := endHeader_cases env d
  · rw [he] at hr ⊢
    exact processHeaderEnd_taken h h0 hr
  · rw [he] at hr
    exact absurd hd hr
  · rw [he] at hr ⊢
    have hc := processHeaderEnd_taken h h0 hd
    obtain ⟨hl, hend, size, pos, hb | ⟨e, hb, -⟩⟩ := startBody_cases env (d.processHeaderEnd env).1
    · rw [hb]
      refine ⟨hc.pos, hc.ahead, hc.length, hc.client, hc.posted, fun hin => ?_⟩
      exact absurd hin (show ¬ Status.inHeader .bodyWrite by decide)
    · rw [hb] at hr
      exact absurd rfl hr

end Request

open Request in
/-- A byte that does not end the request is taken. -/
lemma ByteStep.taken {env : Env} {c d : Request} {uc : UInt8} {r : Option Ret}
    (h : ByteStep env c uc d r) (h0 : c.bufferStart = 0) (hm : c.Marked) (hr : r ≠ some .done) :
    Taken 1 c d := by
  have hadv := advance_taken hm uc
  cases h with
  | illegal hi hd => exact absurd rfl hr
  | skip hi h1 h2 => exact hadv
  | tooLong hi hs hl hd => exact absurd rfl hr
  | option hi hs hl hd hc =>
    have hline := Taken.log (terminateLine_taken hadv hs)
      (e := .optionLine (c.advance uc).terminateLine.lineAt) rfl
    exact startLine_taken (OptionOf.taken hline hd)
  | optionStop hi hs hl hd => exact absurd rfl hr
  | logline hi hs hl hd hv =>
    exact startLine_taken (LoglineOf.taken (terminateLine_taken hadv hs) hd)
  | loglineStop hi hs hl hd he => exact absurd rfl hr
  | @short d hi hs hl hd hv =>
    have hline := LoglineOf.taken (terminateLine_taken hadv hs) hd
    have hstart : d.bufferStart = 0 := by
      obtain ⟨_, _, _, _, _, _, rfl, -⟩ := hd
      exact h0
    exact processHeaderEnd_taken hline hstart fun hd => hr (by rw [hd])
  | finish hi hs => exact endHeader_taken hadv h0 fun hd => hr (by rw [hd])

/-- Where the parser can be after `n` bytes, when it stops there: still in the
header, past it, or at the set-up of a body. -/
def Stopped (env : Env) (n : ℕ) (c : Request) (r : Request × Ret) : Prop :=
  Taken n c r.1 ∧ (r.1.status.inHeader ∨ 6 ≤ r.1.status.rank ∨
    ∃ e, Taken n c e ∧ e.startBody env = r)

lemma Stopped.after {env : Env} {m n : ℕ} {c d : Request} {r : Request × Ret} (h : Taken m c d)
    (h' : Stopped env n d r) : Stopped env (m + n) c r := by
  obtain ⟨ht, hcase⟩ := h'
  refine ⟨h.trans ht, hcase.imp_right fun hr => hr.imp_right ?_⟩
  rintro ⟨e, he, hb⟩
  exact ⟨e, h.trans he, hb⟩

open Request in
lemma ByteStep.stopped {env : Env} {c d : Request} {uc : UInt8} {ret : Ret}
    (h : ByteStep env c uc d (some ret)) (h0 : c.bufferStart = 0) (hm : c.Marked) (hr : ret ≠ .done) :
    Stopped env 1 c (d, ret) := by
  have ht := h.taken h0 hm fun he => hr (Option.some.inj he)
  refine ⟨ht, ?_⟩
  cases h with
  | illegal hi hd => exact absurd rfl hr
  | tooLong hi hs hl hd => exact absurd rfl hr
  | optionStop hi hs hl hd => exact absurd rfl hr
  | loglineStop hi hs hl hd he => exact absurd rfl hr
  | @short d hi hs hl hd hv =>
    have hstart : d.bufferStart = 0 := by
      obtain ⟨_, _, _, _, _, _, rfl, -⟩ := hd
      exact h0
    have hstatus : d.status = .oneLf := by
      obtain ⟨_, _, _, _, _, _, rfl, -⟩ := hd
      exact hs
    obtain ⟨h6, -⟩ | ⟨-, -, he, -⟩ := (processHeaderEnd_concluded (S := False) env d hstart).next hr
    · exact .inr (.inl h6)
    · refine .inl ?_
      rw [show (d.processHeaderEnd env).1.status = d.status from he, hstatus]
      decide
  | finish hi hs =>
    obtain ⟨hm, he⟩ | ⟨hd, he⟩ | ⟨hd, -, he⟩ := endHeader_cases env (c.advance uc)
    · rw [he] at hr ⊢
      obtain ⟨h6, -⟩ | ⟨-, hp, -⟩ :=
        (processHeaderEnd_concluded (S := False) env (c.advance uc) h0).next hr
      · exact .inr (.inl h6)
      · exact absurd hp hm
    · rw [he] at hr
      exact absurd hd hr
    · exact .inr (.inr ⟨_, processHeaderEnd_taken (advance_taken hm uc) h0 hd, he.symm⟩)

lemma Taken.refl {c : Request} (hm : c.Marked) : Taken 0 c c :=
  ⟨rfl, rfl, rfl, rfl, rfl, fun _ => hm⟩

namespace Request

/-- The loop of `read_header` takes all the bytes it is given or stops at one. -/
lemma scanHeader_taken (env : Env) {c : Request} (h : Parsing False c) (hm : c.Marked) (bs : Bytes) :
    ((scanHeader env c bs).2 = none → Taken bs.length c (scanHeader env c bs).1) ∧
      ∀ ret, (scanHeader env c bs).2 = some ret → ret ≠ .done →
        ∃ n ≤ bs.length, Stopped env n c ((scanHeader env c bs).1, ret) := by
  induction bs generalizing c with
  | nil => exact ⟨fun _ => .refl hm, by simp [scanHeader]⟩
  | cons uc bs ih =>
    have hstep := headerByte_step env c uc
    have hended := hstep.ended h
    unfold scanHeader
    generalize c.headerByte env uc = r at hstep hended
    obtain ⟨d, _ | ret⟩ := r
    · have h1 : Taken 1 c d := hstep.taken h.start hm (by simp)
      have hd : Parsing False d := hended.1 rfl
      obtain ⟨ih1, ih2⟩ := ih hd (h1.marked hd.header)
      refine ⟨fun hn => ?_, fun ret hret hne => ?_⟩
      · rw [List.length_cons, Nat.add_comm]
        exact h1.trans (ih1 hn)
      · obtain ⟨n, hn, ht⟩ := ih2 ret hret hne
        exact ⟨1 + n, by rw [List.length_cons]; omega, .after h1 ht⟩
    · refine ⟨by simp, fun ret' hret hne => ?_⟩
      obtain rfl : ret = ret' := Option.some.inj hret
      exact ⟨1, by rw [List.length_cons]; omega, hstep.stopped h.start hm hne⟩

/-- `read_header` stops at a byte, or takes all there is and then reads more. -/
lemma readHeader_taken {env : Env} {c : Request} (h : Parsing False c) (hm : c.Marked)
    (hr : (c.readHeader env).2 ≠ .done) :
    (∃ n ≤ c.clientStream.length - c.parsePos, Stopped env n c (c.readHeader env)) ∨
    ∃ d, Taken (c.clientStream.length - c.parsePos) c d ∧ Parsing False d ∧
      c.readHeader env = d.readMore := by
  have hscan := scanHeader_ended env h (c.clientStream.drop c.parsePos)
  have htaken := scanHeader_taken env h hm (c.clientStream.drop c.parsePos)
  unfold readHeader at hr ⊢
  generalize scanHeader env c (c.clientStream.drop c.parsePos) = r at hscan htaken hr ⊢
  rw [List.length_drop] at htaken
  obtain ⟨d, _ | ret⟩ := r
  · have hd := hscan.1 rfl
    have hlt : d.status < .bodyRead := hd.header
    dsimp only
    rw [if_pos hlt]
    exact .inr ⟨d, htaken.1 rfl, hd, rfl⟩
  · exact .inl (htaken.2 ret rfl hr)

end Request
end Boa
