import Boa.Piping

/-! One round of `process_requests` and whole runs: the bounds of the buffer always
hold, and on an orderly socket the response bytes stay in order. -/
namespace Boa
open Memory History

variable {S : Prop}

/-- A request between two rounds, or the result of a handler that is not finished. -/
structure Live (S : Prop) (c : Request) : Prop extends Flow S c where
  early : c.status.rank < 6 → c.bufferEnd = 0
  body : c.status = .bodyRead → c.headerLine = ⟨.buffer, 0⟩ ∧ c.headerEnd = ⟨.buffer, 0⟩

/-- What a round leaves behind, by the return value of its handler. -/
def Ended (S : Prop) (r : Request × Ret) : Prop :=
  (r.2 ≠ .done → Live S r.1) ∧ (r.2 = .done → Over S r.1)

lemma Settled.ended {r : Request × Ret} (h : Settled S r) (hl : 6 ≤ r.1.status.rank) : Ended S r := by
  refine ⟨fun hn => ⟨h.1 hn, fun hr => absurd hl (by omega), fun hb => ?_⟩, h.2⟩
  rw [hb] at hl
  exact absurd hl (by decide)

lemma Over.ended {c : Request} (h : Over S c) : Ended S (c, .done) :=
  ⟨fun hn => absurd rfl hn, fun _ => h⟩

lemma Live.ended {c : Request} {ret : Ret} (h : Live S c) (hr : ret ≠ .done) : Ended S (c, ret) :=
  ⟨fun _ => h, fun hd => absurd hd hr⟩

lemma Refused.over {c d : Request} (h : Refused c d) (hs : c.toOut.Sound S) : Over S d :=
  ((h.effect (S := S)).sound hs).over

/-! ### The header -/

/-- A request whose header is being read. -/
structure Parsing (S : Prop) (c : Request) : Prop extends Out.Sound S c.toOut where
  header : c.status.inHeader
  empty : c.bufferEnd = 0

lemma Status.inHeader_iff {s : Status} : s.inHeader ↔ s.rank < 4 := Iff.rfl

lemma Status.inHeader.not_piped {s : Status} (h : s.inHeader) : ¬ s.piped := by
  rintro (rfl | rfl) <;> exact absurd h (by decide)

lemma Parsing.live {c : Request} (h : Parsing S c) : Live S c := by
  have hh := h.header
  refine ⟨h.toSound.flowing fun hp => absurd hp hh.not_piped, fun _ => h.empty, fun hb => ?_⟩
  rw [hb] at hh
  exact absurd hh (by decide)

lemma Parsing.start {c : Request} (h : Parsing S c) : c.bufferStart = 0 :=
  Nat.le_zero.mp (h.empty ▸ h.start_le)

lemma nextStatus_inHeader {s : Status} {uc : UInt8} (h : s.inHeader)
    (hb : nextStatus s uc ≠ .bodyRead) : (nextStatus s uc).inHeader := by
  cases s <;> first | exact absurd h (by decide) | skip
  all_goals
    unfold nextStatus at hb ⊢
    dsimp only at hb ⊢
    split_ifs at hb ⊢ <;> first | exact absurd rfl hb | decide

namespace Request

lemma advance_sound {c : Request} (h : c.toOut.Sound S) (uc : UInt8) : (c.advance uc).toOut.Sound S :=
  Out.setStatus_sound h _

lemma LoglineOf.sound {c d : Request} (hd : LoglineOf c d) (h : c.toOut.Sound S) : d.toOut.Sound S := by
  obtain ⟨m, v, uri, hh, ka, idx, rfl, -⟩ := hd
  exact Out.log_sound h ⟨fun _ => rfl, rfl⟩

lemma OptionOf.out_eq {c d : Request} (hd : OptionOf c d) : d.toOut = c.toOut := by
  obtain ⟨_, _, _, _, _, _, _, _, _, _, _, _, rfl⟩ := hd
  rfl

/-- `process_header_end` on a request that has answered nothing yet. -/
lemma processHeaderEnd_ended {env : Env} {c : Request} (h : c.toOut.Sound S) (h0 : c.bufferEnd = 0)
    (hs : c.status.rank < 4) : Ended S (c.processHeaderEnd env) := by
  have hstart : c.bufferStart = 0 := Nat.le_zero.mp (h0 ▸ h.start_le)
  have hc := processHeaderEnd_concluded (S := S) env c hstart
  have hsound := hc.sound (Out.log_sound h ⟨fun _ => rfl, rfl⟩)
  have hcalm : (c.processHeaderEnd env).1.Calm := by
    refine hc.calm fun hp => absurd hp ?_
    exact Status.inHeader.not_piped hs
  refine ⟨fun hn => ⟨hsound.flowing hcalm, fun hr => ?_, fun hb => ?_⟩, fun _ => hsound.over⟩
  · rcases hc.next hn with ⟨h6, -⟩ | ⟨-, -, -, he, -⟩
    · omega
    · exact he.trans h0
  · rcases hc.next hn with ⟨h6, -⟩ | ⟨-, -, he, -⟩
    · rw [hb] at h6
      exact absurd h6 (by decide)
    · rw [he] at hb
      rw [show c.status = .bodyRead from hb] at hs
      exact absurd hs (by decide)

/-- The end of a header block: status `BODY_READ` is left again at once. -/
lemma endHeader_ended {env : Env} {c : Request} (h : c.toOut.Sound S) (h0 : c.bufferEnd = 0)
    (hs : c.status = .bodyRead) : Ended S (c.endHeader env) := by
  have hstart : c.bufferStart = 0 := Nat.le_zero.mp (h0 ▸ h.start_le)
  have hc := processHeaderEnd_concluded (S := S) env c hstart
  have hsound := hc.sound (Out.log_sound h ⟨fun _ => rfl, rfl⟩)
  have hcalm : (c.processHeaderEnd env).1.Calm := by
    refine hc.calm fun hp => absurd hp ?_
    rw [show (c.log .headerEnd).status = .bodyRead from hs]
    decide
  rcases endHeader_cases env c with ⟨hm, he⟩ | ⟨hr, he⟩ | ⟨hr, hm, he⟩
  · rw [he]
    refine ⟨fun hn => ⟨hsound.flowing hcalm, fun hr => ?_, fun hb => ?_⟩, fun _ => hsound.over⟩
    · rcases hc.next hn with ⟨h6, -⟩ | ⟨-, hp, -⟩
      · omega
      · exact absurd hp hm
    · rcases hc.next hn with ⟨h6, -⟩ | ⟨-, hp, -⟩
      · rw [hb] at h6
        exact absurd h6 (by decide)
      · exact absurd hp hm
  · rw [he]
    exact ⟨fun hn => absurd hr hn, fun _ => hsound.over⟩
  · rw [he]
    have hend : (c.processHeaderEnd env).1.bufferEnd = 0 := by
      rcases hc.next hr with ⟨-, hp⟩ | ⟨-, -, -, he, -⟩
      · exact absurd hm hp
      · exact he.trans h0
    obtain ⟨hl, he, size, pos, hb | ⟨e, hb, href⟩⟩ := startBody_cases env (c.processHeaderEnd env).1
    · rw [hb]
      refine Live.ended ⟨Out.Sound.flowing (Out.setStatus_sound hsound .bodyWrite) ?_, ?_, ?_⟩ (by simp)
      · exact fun hp => absurd hp (show ¬ Status.piped .bodyWrite by decide)
      · exact fun _ => hend
      · exact fun hb => by cases hb
    · rw [hb]
      exact (href.over (Out.setStatus_sound hsound .bodyWrite)).ended

end Request

open Request in
/-- What one byte of the header leaves behind. -/
lemma ByteStep.ended {env : Env} {c d : Request} {uc : UInt8} {r : Option Ret}
    (h : ByteStep env c uc d r) (hc : Parsing S c) :
    (r = none → Parsing S d) ∧ ∀ ret, r = some ret → Ended S (d, ret) := by
  have hadv := advance_sound hc.toSound uc
  have hover : ∀ {e f : Request}, Refused e f → e.toOut.Sound S →
      ((some Ret.done = none) → Parsing S f) ∧ ∀ ret, some Ret.done = some ret → Ended S (f, ret) := by
    intro e f hr hs
    refine ⟨fun hn => (nomatch hn), fun ret hret => ?_⟩
    cases hret
    exact (hr.over hs).ended
  cases h with
  | illegal hi hd => exact hover hd (Out.log_sound hc.toSound ⟨fun _ => rfl, rfl⟩)
  | skip hi h1 h2 =>
    exact ⟨fun _ => ⟨hadv, nextStatus_inHeader hc.header h2, hc.empty⟩, fun ret hret => (nomatch hret)⟩
  | tooLong hi hs hl hd => exact hover hd (Out.log_sound hadv ⟨fun _ => rfl, rfl⟩)
  | @option d hi hs hl hd hcount =>
    have hout := OptionOf.out_eq hd
    refine ⟨fun _ => ⟨?_, ?_, ?_⟩, fun ret hret => (nomatch hret)⟩
    · show Out.Sound S d.toOut
      rw [hout]
      exact Out.log_sound hadv ⟨fun _ => rfl, rfl⟩
    · show d.toOut.status.inHeader
      rw [hout]
      show (c.advance uc).status.inHeader
      rw [hs]
      decide
    · show d.toOut.bufferEnd = 0
      rw [hout]
      exact hc.empty
  | optionStop hi hs hl hd =>
    obtain ⟨e, he, ⟨rfl, -⟩ | ⟨-, hr⟩⟩ := hd
    · refine ⟨fun hn => (nomatch hn), fun ret hret => ?_⟩
      cases hret
      refine (Out.Sound.over ?_).ended
      rw [OptionOf.out_eq he]
      exact Out.log_sound hadv ⟨fun _ => rfl, rfl⟩
    · refine hover hr ?_
      rw [OptionOf.out_eq he]
      exact Out.log_sound hadv ⟨fun _ => rfl, rfl⟩
  | @logline d hi hs hl hd hv =>
    refine ⟨fun _ => ⟨show Out.Sound S d.toOut from LoglineOf.sound hd hadv, ?_, ?_⟩, fun ret hret => (nomatch hret)⟩
    · obtain ⟨m, v, uri, hh, ka, idx, rfl, -⟩ := hd
      show (c.advance uc).status.inHeader
      rw [hs]
      decide
    · obtain ⟨m, v, uri, hh, ka, idx, rfl, -⟩ := hd
      exact hc.empty
  | loglineStop hi hs hl hd he => exact hover he (LoglineOf.sound hd hadv)
  | short hi hs hl hd hv =>
    refine ⟨fun hn => (nomatch hn), fun ret hret => ?_⟩
    cases hret
    refine processHeaderEnd_ended (LoglineOf.sound hd hadv) ?_ ?_
    · obtain ⟨m, v, uri, hh, ka, idx, rfl, -⟩ := hd
      exact hc.empty
    · obtain ⟨m, v, uri, hh, ka, idx, rfl, -⟩ := hd
      show (c.advance uc).status.rank < 4
      rw [hs]
      decide
  | finish hi hs =>
    refine ⟨fun hn => (nomatch hn), fun ret hret => ?_⟩
    cases hret
    exact endHeader_ended hadv hc.empty hs

namespace Request

/-- The loop of `read_header`. -/
lemma scanHeader_ended (env : Env) {c : Request} (h : Parsing S c) (bs : Bytes) :
    ((scanHeader env c bs).2 = none → Parsing S (scanHeader env c bs).1) ∧
      ∀ ret, (scanHeader env c bs).2 = some ret → Ended S ((scanHeader env c bs).1, ret) := by
  induction bs generalizing c with
  | nil => exact ⟨fun _ => h, fun ret hret => (nomatch hret)⟩
  | cons uc bs ih =>
    have hstep := (headerByte_step env c uc).ended h
    unfold scanHeader
    generalize c.headerByte env uc = r at hstep
    obtain ⟨d, _ | ret⟩ := r
    · exact ih (hstep.1 rfl)
    · exact ⟨fun hn => (nomatch (show some ret = none from hn)), hstep.2⟩

lemma readMore_ended {c : Request} (h : Parsing S c) : Ended S c.readMore := by
  have hpop : Parsing S c.popClient := ⟨h.toSound, h.header, h.empty⟩
  unfold readMore
  dsimp only
  split_ifs
  · exact (Out.Sound.over (Out.setStatus_sound (Out.log_sound h.toSound ⟨fun _ => rfl, rfl⟩) .dead)).ended
  · split
    · exact hpop.live.ended (by simp)
    · exact hpop.live.ended (by simp)
    · exact (Out.Sound.over (by exact h.toSound)).ended
    · exact (Out.Sound.over (Out.log_sound (by exact h.toSound) ⟨fun _ => rfl, rfl⟩)).ended
    · refine Live.ended (Parsing.live ⟨?_, h.header, h.empty⟩) (by simp)
      exact Out.log_sound (by exact h.toSound) ⟨fun _ => rfl, rfl⟩

lemma readHeader_ended (env : Env) {c : Request} (h : Parsing S c) : Ended S (c.readHeader env) := by
  have hscan := scanHeader_ended env h (c.clientStream.drop c.parsePos)
  unfold readHeader
  generalize scanHeader env c (c.clientStream.drop c.parsePos) = r at hscan
  obtain ⟨d, _ | ret⟩ := r
  · have hd := hscan.1 rfl
    dsimp only
    split_ifs
    · exact readMore_ended hd
    · exact absurd hd.header (by assumption)
  · exact hscan.2 ret rfl

/-! ### The body of a POST -/

lemma bodyWrite_live {c : Request} (h : c.toOut.Sound S) (hs : c.status = .bodyWrite)
    (h0 : c.bufferEnd = 0) : Live S c := by
  refine ⟨h.flowing fun hp => absurd hp ?_, fun _ => h0, fun hb => ?_⟩
  · rw [hs]
    decide
  · rw [hs] at hb
    cases hb

lemma readBody_ended (env : Env) {c : Request} (h : Live S c) (hs : c.status = .bodyRead) :
    Ended S (c.readBody env) := by
  have h0 : c.bufferEnd = 0 := h.early (by rw [hs]; decide)
  have hpend : c.pending = [] := Out.pending_eq_nil (by rw [h0]; exact Nat.zero_le _)
  have hsound : c.popClient.toOut.Sound S :=
    h.toFlow.sound (Calm.window fun hp => absurd hp (by rw [hs]; decide))
  obtain ⟨hl, he⟩ := h.body hs
  have hpop : Live S c.popClient := ⟨⟨h.toBufOk, h.steady, h.flow, h.pipe⟩, h.early, h.body⟩
  unfold readBody
  dsimp only
  split
  · refine Live.ended (bodyWrite_live ?_ rfl h0) (by simp)
    exact Out.setStatus_sound hsound .bodyWrite
  · split
    · exact hpop.ended (by simp)
    · refine Over.ended (Out.Sound.over ?_)
      exact ((sendRError_refused env c.popClient).effect (S := S)).sound hsound
    · refine Over.ended (Out.Sound.over ?_)
      exact ((sendRError_refused env c.popClient).effect (S := S)).sound hsound
    · exact ((sendRBadRequest_refused env c.popClient).over hsound).ended
    · next bs hbs =>
      have hlen := (fit_data hbs).1
      have hstore : (c.popClient.storeAtEnd bs).toOut = { c.toOut with buffer := store c.buffer 0 bs } := by
        have hend : c.popClient.headerEnd = ⟨.buffer, 0⟩ := he
        unfold storeAtEnd
        simp only [hend]
        rfl
      have hsize : (store c.buffer 0 bs).length = bufferSize + 1 := by
        rw [length_store bs (Nat.zero_le _), h.size]
        omega
      have h1 : (c.popClient.storeAtEnd bs).toOut.Sound S := by
        rw [hstore]
        exact hsound.rewrite (fun _ => hpend) hsize
      refine Live.ended (bodyWrite_live ?_ rfl ?_) (by simp)
      · exact Out.setStatus_sound h1 .bodyWrite
      · show (c.popClient.storeAtEnd bs).toOut.bufferEnd = 0
        rw [hstore]
        exact h0

lemma initCgi_ended {env : Env} {c : Request} (h : c.toOut.Sound S) (hc : c.Calm) :
    Ended S (c.initCgi env) := by
  have he := initCgi_effect (S := S) env c
  refine ⟨fun hn => ⟨(he.sound h).flowing (he.calm hc), fun hr => ?_, fun hb => ?_⟩,
    fun _ => (he.sound h).over⟩
  · rw [initCgi_more hn] at hr
    exact absurd hr (by decide)
  · rw [initCgi_more hn] at hb
    cases hb

lemma writeBody_ended (env : Env) {c : Request} (h : Live S c) (hs : c.status = .bodyWrite) :
    Ended S (c.writeBody env) := by
  have hnp : ¬ c.status.piped := by
    rw [hs]
    decide
  have h0 : c.bufferEnd = 0 := h.early (by rw [hs]; decide)
  have hsound : c.toOut.Sound S := h.toFlow.sound (Calm.window fun hp => absurd hp hnp)
  unfold writeBody
  dsimp only
  split
  · split
    · exact initCgi_ended (by exact hsound) fun hp => absurd hp hnp
    · refine Live.ended ⟨Out.Sound.flowing (Out.setStatus_sound hsound .bodyRead) ?_, ?_, ?_⟩ (by simp)
      · exact fun hp => absurd hp (show ¬ Status.piped .bodyRead by decide)
      · exact fun _ => h0
      · exact fun _ => ⟨rfl, rfl⟩
  · split
    · exact Live.ended (bodyWrite_live (by exact hsound) hs h0) (by simp)
    · exact Live.ended (bodyWrite_live (by exact hsound) hs h0) (by simp)
    · exact Over.ended (Refused.over (sendRError_refused env _) (by exact hsound))
    · refine Live.ended (bodyWrite_live ?_ hs h0) (by simp)
      exact Out.log_sound (by exact hsound) ⟨fun _ => rfl, rfl⟩

/-! ### One round -/

/-- The handler of the request writes past the buffer or reuses it. -/
def exposed (env : Env) (c : Request) : Prop :=
  (c.status = .write ∧ c.method ≠ .head) ∨ c.status.piped ∨
    (c.status = .ioShuffle ∧ env.cfg.haveSendfile = true ∧ c.method ≠ .head)

lemma handle_ended {env : Env} {c : Request} (h : Live S c) (hlive : c.status < .timedOut)
    (hq : c.exposed env → S → c.pending = []) : Ended S (c.handle env) := by
  have hparse : c.status.inHeader → Parsing S c := fun hh =>
    ⟨h.toFlow.sound (Calm.window fun hp => absurd hp hh.not_piped), hh,
      h.early (Nat.lt_of_lt_of_le (Status.inHeader_iff.mp hh) (by omega))⟩
  have hlate : ∀ {r : Request × Ret}, Effect S c r.1 → ¬ c.status.piped → 6 ≤ c.status.rank →
      Ended S r := fun he hp h6 => (he.settled h.toFlow hp).ended (he.late h6)
  have hpiped : ∀ {r : Request × Ret}, Settled S r → Later c r.1 → 6 ≤ c.status.rank → Ended S r :=
    fun hr hl h6 => hr.ended (hl.late h6)
  unfold handle
  cases hs : c.status with
  | readHeader => exact readHeader_ended env (hparse (by rw [hs]; decide))
  | oneCr => exact readHeader_ended env (hparse (by rw [hs]; decide))
  | oneLf => exact readHeader_ended env (hparse (by rw [hs]; decide))
  | twoCr => exact readHeader_ended env (hparse (by rw [hs]; decide))
  | bodyRead => exact readBody_ended env h hs
  | bodyWrite => exact writeBody_ended env h hs
  | write =>
    exact hlate (processGet_effect env c fun hm => hq (.inl ⟨hs, hm⟩)) (by rw [hs]; decide)
      (by rw [hs]; decide)
  | pipeRead =>
    have hp : c.status.piped := .inl hs
    exact hpiped (readFromPipe_settled h.toFlow hp (hq (.inr (.inl hp)))) (readFromPipe_later env c)
      (by rw [hs]; decide)
  | pipeWrite =>
    have hp : c.status.piped := .inr hs
    exact hpiped (writeFromPipe_settled h.toFlow hp ((h.pipe hp).2.2.2.2 hs) (hq (.inr (.inl hp))))
      (writeFromPipe_later c) (by rw [hs]; decide)
  | ioShuffle =>
    dsimp only
    split_ifs with hsend
    · exact hlate (ioShuffleSendfile_effect env c fun hm => hq (.inr (.inr ⟨hs, hsend, hm⟩)))
        (by rw [hs]; decide) (by rw [hs]; decide)
    · exact hlate (ioShuffle_effect env c) (by rw [hs]; decide) (by rw [hs]; decide)
  | done =>
    have hsound : c.toOut.Sound S :=
      h.toFlow.sound (Calm.window fun hp => absurd hp (by rw [hs]; decide))
    have hflush : Effect S c { c with toOut := c.toOut.reqFlush.1 } := reqFlush_effect c
    dsimp only
    unfold processDone
    generalize c.toOut.reqFlush = r at hflush
    obtain ⟨o, fl⟩ := r
    have h6 : 6 ≤ c.status.rank := by
      rw [hs]
      decide
    have hnp : ¬ c.status.piped := by
      rw [hs]
      decide
    cases fl with
    | error =>
      have ho : Effect S { c with toOut := o } { c with toOut := { o with status := .dead } } :=
        kill_effect { c with toOut := o }
      exact (Out.Sound.over ((hflush.trans ho).sound hsound)).ended
    | blocked => exact hlate hflush hnp h6
    | left n => cases n <;> exact hlate hflush hnp h6
  | timedOut => exact absurd hlive (by rw [hs]; decide)
  | dead => exact absurd hlive (by rw [hs]; decide)

/-- The window sees neither the bounds of the pending bytes nor the trace. -/
lemma window_congr {c : Request} {o : Out} (hs : o.status = c.status) (hb : o.buffer = c.buffer) :
    window { c with toOut := o } = c.window := by
  unfold window cgiText
  simp only [hs, hb]

/-- `req_flush` and the window: a steady socket loses nothing. -/
lemma reqFlush_flow {c : Request} (h : Flow S c) : Flow S { c with toOut := c.toOut.reqFlush.1 } := by
  refine ⟨Out.reqFlush_bufOk h.toBufOk, fun hS => Out.reqFlush_steady h.toBufOk (h.steady hS),
    fun hS => ?_, fun hp => ?_⟩
  · obtain ⟨h1, h2⟩ := Out.reqFlush_stream h.toBufOk (h.steady hS)
    have hf := h.flow hS
    rw [window_congr (Out.reqFlush_status h.toBufOk (h.steady hS)) (Out.reqFlush_buffer h.toBufOk)]
    simp only [Out.channel, Channel.stream] at h1
    show produced c.toOut.reqFlush.1.trace =
      sentBytes c.toOut.reqFlush.1.trace ++ c.toOut.reqFlush.1.pending ++ c.window
    rw [h1, h2, hf]
  · have hrep : Out.Replies (fun _ => True) (fun _ => True) c.toOut c.toOut.reqFlush.1 :=
      Out.reqFlush_replies c.toOut
    rcases hrep.status with hs | hs
    · have hpipe := h.pipe (show c.status.piped from hs ▸ hp)
      refine ⟨hpipe.1, hpipe.2.1, hpipe.2.2.1, hpipe.2.2.2.1, fun hw => hpipe.2.2.2.2 ?_⟩
      exact hs ▸ hw
    · exact absurd (show Status.piped .dead from hs ▸ hp) (by decide)

/-- The flush at the top of a round. -/
lemma flushFirst_ended {c : Request} (h : Live S c) (hlive : c.status < .timedOut) :
    Ended S c.flushFirst ∧
      (c.flushFirst.2 = .more → c.flushFirst.1.status = c.status ∧ c.flushFirst.1.method = c.method ∧
        (c.flushFirst.1.pending = [] ∨
          (c.pending ≠ [] ∧ ∃ k, c.nextWrite = .wrote k ∧ k < c.pending.length))) := by
  unfold flushFirst
  split_ifs with hcond
  · have hflow := reqFlush_flow h.toFlow
    have hleft := fun n => Out.reqFlush_left h.toBufOk (n := n)
    have h6 : 6 ≤ c.status.rank := by
      by_contra hlt
      exact hcond.1 (h.early (by omega))
    have hrep : Out.Replies (fun _ => True) (fun _ => True) c.toOut c.toOut.reqFlush.1 :=
      Out.reqFlush_replies c.toOut
    have h6' : 6 ≤ c.toOut.reqFlush.1.status.rank := by
      rcases hrep.status with hs | hs
      · rw [hs]
        exact h6
      · rw [hs]
        decide
    generalize c.toOut.reqFlush = r at hflow hleft h6'
    obtain ⟨o, fl⟩ := r
    have hlive' : Live S { c with toOut := o } := by
      refine ⟨hflow, fun hr => absurd h6' ?_, fun hb => ?_⟩
      · show ¬ 6 ≤ o.status.rank
        exact Nat.not_le.mpr hr
      · rw [show o.status = .bodyRead from hb] at h6'
        exact absurd h6' (by decide)
    cases fl with
    | error => exact ⟨(kill_over hflow).ended, fun hm => by cases hm⟩
    | blocked => exact ⟨hlive'.ended (by simp), fun hm => by cases hm⟩
    | left n =>
      obtain ⟨-, hs, hp⟩ := hleft n rfl
      exact ⟨hlive'.ended (by simp), fun _ => ⟨hs, rfl, hp⟩⟩
  · have h0 : c.bufferEnd = 0 := by
      by_contra hne
      exact hcond ⟨hne, hlive⟩
    refine ⟨h.ended (by simp), fun _ => ⟨rfl, rfl, .inl (Out.pending_eq_nil ?_)⟩⟩
    rw [h0]
    exact Nat.zero_le _

/-! ### What a round leaves alone -/

lemma readBody_later (env : Env) {c : Request} (hs : c.status = .bodyRead)
    (ha : c.headerEnd.area = .buffer) : Later c (c.readBody env).1 := by
  have hearly : ∀ d : Request, d.trace = c.trace → (d.kept, d.host) = (c.kept, c.host) → d.keepalive = c.keepalive →
      Later c d := by
    intro d ht hf hk
    refine ⟨?_, hf, fun h6 => absurd h6 (by rw [hs]; decide), .inl hk⟩
    rw [ht]
    exact .refl _
  have hpop : Later c c.popClient := .of_eq rfl rfl rfl
  unfold readBody
  dsimp only
  split
  · exact hearly _ rfl rfl rfl
  · split
    · exact hpop
    · exact (hpop.trans ((sendRError_refused env c.popClient).effect (S := False)).toLater).trans
        (.of_eq rfl rfl rfl)
    · exact (hpop.trans ((sendRError_refused env c.popClient).effect (S := False)).toLater).trans
        (.of_eq rfl rfl rfl)
    · exact hpop.trans ((sendRBadRequest_refused env c.popClient).effect (S := False)).toLater
    · next bs _ =>
      have hstore : c.popClient.storeAtEnd bs =
          { c.popClient with buffer := store c.buffer c.headerEnd.off bs } := by
        have harea : c.popClient.headerEnd.area = .buffer := ha
        unfold storeAtEnd
        rw [harea]
        rfl
      rw [hstore]
      exact hearly _ rfl rfl rfl

lemma writeBody_later (env : Env) {c : Request} (hs : c.status = .bodyWrite) :
    Later c (c.writeBody env).1 := by
  have hpop : Later c { c with post := c.post.tail } := .of_eq rfl rfl rfl
  unfold writeBody
  dsimp only
  split
  · have hreset : Later c { c with headerLine := ⟨.buffer, 0⟩, headerEnd := ⟨.buffer, 0⟩ } :=
      .of_eq rfl rfl rfl
    split
    · exact hreset.trans (initCgi_effect (S := False) env _).toLater
    · exact ⟨.refl _, rfl, fun h6 => absurd h6 (by rw [hs]; decide), .inl rfl⟩
  · split
    · exact hpop
    · exact hpop
    · exact hpop.trans ((sendRError_refused env _).effect (S := False)).toLater
    · next n _ =>
      generalize min n (min c.lineLength (c.filesize - c.filepos)) = k
      have hlog : Later c { ({ c with post := c.post.tail } : Request).log
          (.posted (lineText { c with post := c.post.tail } k)) with
          filepos := c.filepos + k
          headerLine := { c.headerLine with off := c.headerLine.off + k } } :=
        (hpop.trans (.log _ (.posted (lineText { c with post := c.post.tail } k)) trivial)).trans
          (.of_eq rfl rfl rfl)
      exact hlog

/-- A round behind the header leaves alone what the parser and the connection own. -/
lemma handle_later {env : Env} {c : Request} (hs : ¬ c.status.inHeader)
    (hb : c.status = .bodyRead → c.headerEnd.area = .buffer) : Later c (c.handle env).1 := by
  unfold handle
  cases hc : c.status with
  | readHeader => exact absurd (by rw [hc]; decide) hs
  | oneCr => exact absurd (by rw [hc]; decide) hs
  | oneLf => exact absurd (by rw [hc]; decide) hs
  | twoCr => exact absurd (by rw [hc]; decide) hs
  | bodyRead => exact readBody_later env hc (hb hc)
  | bodyWrite => exact writeBody_later env hc
  | write => exact (processGet_effect (S := False) env c fun _ hS => hS.elim).toLater
  | pipeRead => exact readFromPipe_later env c
  | pipeWrite => exact writeFromPipe_later c
  | ioShuffle =>
    dsimp only
    split_ifs
    · exact (ioShuffleSendfile_effect (S := False) env c fun _ hS => hS.elim).toLater
    · exact (ioShuffle_effect (S := False) env c).toLater
  | done =>
    have hflush : Later c { c with toOut := c.toOut.reqFlush.1 } := (reqFlush_effect (S := False) c).toLater
    dsimp only
    unfold processDone
    generalize c.toOut.reqFlush = r at hflush
    obtain ⟨o, fl⟩ := r
    cases fl with
    | error => exact hflush.trans (Later.setStatus { c with toOut := o } (s := .dead) (by decide))
    | blocked => exact hflush
    | left n => cases n <;> exact hflush
  | timedOut => exact (Later.squashKa c).trans (.of_eq rfl rfl rfl)
  | dead => exact (Later.squashKa c).trans (.of_eq rfl rfl rfl)

/-- The flush at the top of a round. -/
lemma flushFirst_later (c : Request) : Later c c.flushFirst.1 := by
  have hflush : Later c { c with toOut := c.toOut.reqFlush.1 } := (reqFlush_effect (S := False) c).toLater
  unfold flushFirst
  split_ifs
  · generalize c.toOut.reqFlush = r at hflush
    obtain ⟨o, fl⟩ := r
    cases fl with
    | error => exact hflush.trans (Later.setStatus { c with toOut := o } (s := .dead) (by decide))
    | blocked => exact hflush
    | left n => exact hflush
  · exact .refl c

lemma heedSigterm_eq (env : Env) (c : Request) : ∃ k, c.heedSigterm env = { c with keepalive := k } := by
  unfold heedSigterm
  split_ifs
  · exact ⟨.stopped, rfl⟩
  · exact ⟨c.keepalive, rfl⟩

/-- A round past the body of the request. -/
lemma serveOnce_later {env : Env} {c : Request} (h : 6 ≤ c.status.rank) : Later c (c.serveOnce env).1 := by
  have harm : Later c (c.arm env) := .of_eq rfl rfl rfl
  have hflush := harm.trans (flushFirst_later (c.arm env))
  unfold serveOnce
  generalize (c.arm env).flushFirst = r at hflush
  obtain ⟨d, ret⟩ := r
  have hd : 6 ≤ d.status.rank := hflush.late h
  cases ret with
  | blocked => exact hflush
  | done => exact hflush
  | more =>
    refine hflush.trans (handle_later (c := d) (fun hin => ?_) fun hb => ?_)
    · exact absurd (Status.inHeader_iff.mp hin) (by omega)
    · rw [hb] at hd
      exact absurd hd (by decide)

end Request
end Boa
