import Boa.Framing
import Boa.Pipeline

/-! The body of a file against the length that its header announced, on every connection that is
kept for another request. -/
namespace Boa
open Memory History

variable {env : Env} {c d : Request} {r : Range}

/-! ### Rounds -/

namespace Request

/-- The round calls `io_shuffle` for a body, and its `read` finds the end of the file. -/
def MeetsEof (env : Env) (c : Request) : Prop :=
  c.Shuffles env ∧ (c.arm env).flushFirst.1.shuffleAnswer env = some .eof

/-- A connection between two rounds. -/
structure Balanced (c : Request) : Prop where
  clear : c.status.rank < 6 → Clear c
  unpiped : FromFile c.trace → ¬ c.status.piped
  header : c.status.inHeader → c.Poised
  body : c.status = .bodyRead ∨ c.status = .bodyWrite → c.method = .post
  owing : c.Concerned → c.status.copies → ∃ r, c.Owing r
  sent : c.Concerned → c.status = .done → Due 0 c.trace

/-- All of the body was sent when the response was over. -/
def SentAll (c : Request) : Prop := c.Concerned → c.status < .timedOut → Due 0 c.trace

/-- What flushing the buffer can do to a request. -/
def Flushed (c d : Request) : Prop :=
  ∃ o : Out, d = { c with toOut := o } ∧ Adds Event.bare c.trace o.trace ∧ (o.status = c.status ∨ o.status = .dead)

lemma Flushed.refl (c : Request) : Flushed c c := ⟨c.toOut, rfl, .refl _, .inl rfl⟩

lemma reqFlush_flushed (c : Request) : Flushed c { c with toOut := c.toOut.reqFlush.1 } ∧
    Flushed c { c with toOut := { c.toOut.reqFlush.1 with status := .dead } } := by
  have hr : Out.Replies (fun _ => False) (fun _ => False) c.toOut c.toOut.reqFlush.1 := Out.reqFlush_replies _
  have hbare : Adds Event.bare c.trace c.toOut.reqFlush.1.trace := hr.adds.mono fun e he => by
    cases e <;> first | exact ⟨rfl, rfl⟩ | exact he.elim
  exact ⟨⟨_, rfl, hbare, hr.status⟩, ⟨_, rfl, hbare, .inr rfl⟩⟩

lemma flushFirst_flushed (c : Request) : Flushed c c.flushFirst.1 := by
  obtain ⟨hflush, hdead⟩ := reqFlush_flushed c
  unfold flushFirst
  split_ifs
  · generalize c.toOut.reqFlush = r at hflush hdead
    obtain ⟨o, fl⟩ := r
    cases fl with
    | error => exact hdead
    | blocked => exact hflush
    | left n => exact hflush
  · exact .refl c

lemma processDone_flushed (c : Request) : Flushed c c.processDone.1 := by
  obtain ⟨hflush, hdead⟩ := reqFlush_flushed c
  unfold processDone
  generalize c.toOut.reqFlush = r at hflush hdead
  obtain ⟨o, fl⟩ := r
  cases fl with
  | error => exact hdead
  | blocked => exact hflush
  | left n =>
    cases n with
    | zero => exact hflush
    | succ n => exact hflush

lemma Flushed.carries (h : Flushed c d) (hd : Adds (fun e => e.carries) c.trace d.trace) : Carries c d := by
  obtain ⟨o, rfl, -, hs⟩ := h
  refine ⟨rfl, hd, fun hp => ?_⟩
  have hp : o.status.piped := hp
  obtain hs | hs := hs
  · rwa [hs] at hp
  · rw [hs] at hp
    exact absurd hp not_piped_dead

lemma Flushed.owing (h : Flushed c d) (ho : c.Owing r) (hd : d.status = c.status) : d.Owing r := by
  obtain ⟨o, rfl, ha, -⟩ := h
  have hs : o.status = c.status := hd
  refine ⟨?_, ho.ranges, ho.due.adds ha, fun hsh => ho.fd (hs ▸ hsh)⟩
  show o.status.copies
  rw [hs]
  exact ho.copies

lemma Flushed.due (h : Flushed c d) {n : ℕ} (hd : Due n c.trace) : Due n d.trace := by
  obtain ⟨o, rfl, ha, -⟩ := h
  exact hd.adds ha

/-- A response that is on its way, when its buffer was flushed. -/
lemma handle_frames (env : Env) (hin : c.InFile) (hpiped : FromFile c.trace → ¬ c.status.piped)
    (howing : c.Concerned → c.status.copies → ∃ r, c.Owing r) (hsent : c.Concerned → c.status = .done → Due 0 c.trace)
    (hlate : 6 ≤ c.status.rank)
    (hno : ¬ (c.status = .ioShuffle ∧ c.method ≠ .head ∧
      (env.cfg.haveSendfile = true → c.nextSend env.systemBufsize = .nosys) ∧ c.shuffleAnswer env = some .eof)) :
    Frames (c.handle env) ∧ (FromFile (c.handle env).1.trace → ¬ (c.handle env).1.status.piped) := by
  have hcarried {p : Request × Ret} (hc : Carries c p.1) (hf : c.Concerned → Frames p) :
      Frames p ∧ (FromFile p.1.trace → ¬ p.1.status.piped) :=
    ⟨.of_concerned fun hd => hf (hc.concerned hd),
      fun hfile hp => hpiped (hc.unmarked.fromFile_iff.mp hfile) (hc.piped hp)⟩
  have hchild {p : Request × Ret} (hs : c.status.piped) (hu : Unmarked c p.1) :
      Frames p ∧ (FromFile p.1.trace → ¬ p.1.status.piped) := by
    have hnot : ¬ FromFile p.1.trace := fun hf => hpiped (hu.fromFile_iff.mp hf) hs
    exact ⟨.of_concerned fun hd => absurd hd.file hnot, fun hf => absurd hf hnot⟩
  unfold handle
  cases hs : c.status with
  | readHeader => simp [hs, Status.rank] at hlate
  | oneCr => simp [hs, Status.rank] at hlate
  | oneLf => simp [hs, Status.rank] at hlate
  | twoCr => simp [hs, Status.rank] at hlate
  | bodyRead => simp [hs, Status.rank] at hlate
  | bodyWrite => simp [hs, Status.rank] at hlate
  | write =>
    refine hcarried (processGet_carries env c) fun hc => ?_
    obtain ⟨r, hr⟩ := howing hc (.inl hs)
    exact processGet_frames env hr hin hc.body hs
  | pipeRead => exact hchild (.inl hs) (readFromPipe_unmarked env c)
  | pipeWrite => exact hchild (.inr hs) (writeFromPipe_unmarked c)
  | ioShuffle =>
    have hget (hc : c.Concerned) : c.method ≠ .head := by
      rw [hc.body.1]
      decide
    dsimp only
    split_ifs with hsend
    · refine hcarried (ioShuffleSendfile_carries env c) fun hc => ?_
      obtain ⟨r, hr⟩ := howing hc (.inr hs)
      exact ioShuffleSendfile_frames env hr hin hc.body hs fun hn heof => hno ⟨hs, hget hc, fun _ => hn, heof⟩
    · refine hcarried (ioShuffle_carries env c) fun hc => ?_
      obtain ⟨r, hr⟩ := howing hc (.inr hs)
      exact ioShuffle_frames env hr hin hc.body hs fun heof =>
        hno ⟨hs, hget hc, fun ht => absurd ht hsend, heof⟩
  | done =>
    refine hcarried (processDone_carries c) fun hc => ⟨fun _ _ hcopies => ?_, fun _ _ _ => ?_⟩
    · obtain ⟨o, he, -, hst⟩ := processDone_flushed c
      rw [he] at hcopies
      have hcopies : o.status.copies := hcopies
      obtain hst | hst := hst
      · rw [hst, hs] at hcopies
        exact absurd hcopies (by decide)
      · rw [hst] at hcopies
        exact absurd hcopies (by decide)
    · exact (processDone_flushed c).due (hsent hc hs)
  | timedOut => exact ⟨.of_stopped rfl, fun _ => show ¬ c.status.piped by rw [hs]; decide⟩
  | dead => exact ⟨.of_stopped rfl, fun _ => show ¬ c.status.piped by rw [hs]; decide⟩

lemma flushFirst_dead (h : c.flushFirst.2 = .done) : c.flushFirst.1.status = .dead := by
  revert h
  unfold flushFirst
  split_ifs
  · generalize c.toOut.reqFlush = r
    obtain ⟨o, fl⟩ := r
    cases fl with
    | error => exact fun _ => rfl
    | blocked => exact fun h => by cases h
    | left n => exact fun h => by cases h
  · exact fun h => by cases h

/-- What the response owes, when nothing but flushing happens to it. -/
structure Sends (c : Request) : Prop where
  unpiped : FromFile c.trace → ¬ c.status.piped
  owing : c.Concerned → c.status.copies → ∃ r, c.Owing r
  sent : c.Concerned → c.status = .done → Due 0 c.trace

lemma Balanced.sends (h : c.Balanced) (env : Env) : (c.arm env).Sends := by
  refine ⟨h.unpiped, fun hc hs => ?_, fun hc hs => h.sent ⟨hc.file, hc.body, hc.alive⟩ hs⟩
  obtain ⟨r, hr⟩ := h.owing ⟨hc.file, hc.body, hc.alive⟩ hs
  exact ⟨r, hr.copies, hr.ranges, hr.due, hr.fd⟩

lemma Sends.balanced (h : c.Sends) (hlate : 6 ≤ c.status.rank) : c.Balanced := by
  refine ⟨fun hlt => absurd hlate (by omega), h.unpiped, fun hin => ?_, fun hbody => ?_, h.owing, h.sent⟩
  · exact absurd (Status.inHeader_iff.mp hin) (by omega)
  · obtain hb | hb := hbody <;> rw [hb] at hlate <;> exact absurd hlate (by decide)

/-- A response that is blocked, or killed, by the flush. -/
lemma Sends.flushed (h : c.Sends) (hc : Carries c d) (hf : Flushed c d) : d.Sends := by
  have hstatus : d.status = c.status ∨ d.status = .dead := by
    obtain ⟨o, rfl, -, hs⟩ := hf
    exact hs
  refine ⟨fun hfile hp => h.unpiped (hc.unmarked.fromFile_iff.mp hfile) (hc.piped hp), fun hcon hs => ?_,
    fun hcon hs => ?_⟩
  · obtain hst | hst := hstatus
    · obtain ⟨r, hr⟩ := h.owing (hc.concerned hcon) (hst ▸ hs)
      exact ⟨r, hf.owing hr hst⟩
    · rw [hst] at hs
      exact absurd hs (by decide)
  · obtain hst | hst := hstatus
    · exact hf.due (h.sent (hc.concerned hcon) (hst ▸ hs))
    · rw [hst] at hs
      exact absurd hs (by decide)

/-- A round on a response that is under way. -/
lemma serveOnce_sends (hw : Whole False c) (hlive : c.status < .timedOut) (hlate : 6 ≤ c.status.rank)
    (hin : c.InFile) (h : c.Balanced) (hno : ¬ c.MeetsEof env) :
    ((c.serveOnce env).2 = .done → SentAll (c.serveOnce env).1) ∧
      ((c.serveOnce env).2 ≠ .done → (c.serveOnce env).1.Sends) := by
  have hsends := (h.sends env).flushed (flushFirst_carries _) (flushFirst_flushed _)
  have hplaced : Placed (c.arm env).flushFirst := flushFirst_placed (hin.congr (.inl rfl) rfl)
  have hdead := flushFirst_dead (c := c.arm env)
  obtain ⟨-, hmore⟩ := flushFirst_ended (hw.live hlive env False.elim) hlive
  unfold MeetsEof Shuffles at hno
  unfold serveOnce
  generalize (c.arm env).flushFirst = r at hsends hplaced hdead hmore hno
  obtain ⟨d, ret⟩ := r
  cases ret with
  | blocked => exact ⟨fun hr => absurd hr (show Ret.blocked ≠ .done by decide), fun _ => hsends⟩
  | done =>
    refine ⟨fun _ _ hl => ?_, fun hr => absurd rfl hr⟩
    have hst : d.status = .dead := hdead rfl
    have hl : d.status < .timedOut := hl
    rw [hst] at hl
    exact absurd hl not_live_dead
  | more =>
    have hst : d.status = c.status := (hmore rfl).1
    obtain ⟨hframes, hpipe⟩ := handle_frames env (hplaced (by simp)) hsends.unpiped hsends.owing hsends.sent
      (hst ▸ hlate) fun hs => hno ⟨⟨rfl, hs.1, hs.2.1, hs.2.2.1⟩, hs.2.2.2⟩
    refine ⟨fun hr hc hl => hframes.sent hc (.inl hr) hl, fun hr => ⟨hpipe, hframes.owing hr, fun hc hs => ?_⟩⟩
    have hs : (d.handle env).1.status = .done := hs
    exact hframes.sent hc (.inr hs) (by rw [hs]; decide)

/-- A round on the body of a POST. -/
lemma serveOnce_body (hw : Whole False c) (hs : c.status = .bodyRead ∨ c.status = .bodyWrite) (h : c.Balanced) :
    ((c.serveOnce env).2 = .done → SentAll (c.serveOnce env).1) ∧
      ((c.serveOnce env).2 ≠ .done → (c.serveOnce env).1.Balanced) := by
  have hlt : c.status.rank < 6 := by
    obtain hs | hs := hs <;> rw [hs] <;> decide
  have hout : ¬ c.status.inHeader := by
    obtain hs | hs := hs <;> rw [hs] <;> decide
  have hlive : c.status < .timedOut := by
    obtain hs | hs := hs <;> rw [hs] <;> decide
  have hclear : Clear (c.arm env) := (h.clear hlt).books (.of_eq rfl rfl id) rfl
  have hempty : c.bufferEnd = 0 := (hw.live hlive env False.elim).early hlt
  have hanswered : Answered (c.serveOnce env) := by
    rw [serveOnce_of_empty hempty]
    unfold handle
    obtain hs | hs := hs
    · rw [show (c.arm env).status = .bodyRead from hs]
      exact readBody_answered env hclear
    · rw [show (c.arm env).status = .bodyWrite from hs]
      exact writeBody_answered env hclear
  have hlater : Later c (c.serveOnce env).1 :=
    (serveOnce_cases env hw).elim (fun hc => absurd hc.1 hout) fun hc => hc.2
  have hpost : (c.serveOnce env).1.method = .post := (of_kept hlater.kept).2.2.2.1.trans (h.body hs)
  have hnot : ¬ (c.serveOnce env).1.Concerned := by
    intro hc
    have hget := hc.body.1
    rw [hpost] at hget
    cases hget
  refine ⟨fun _ hc => absurd hc hnot, fun hr => ⟨hanswered.clear hr, fun hf => (hanswered.fair.right hf).2, ?_,
    fun _ => hpost, fun hc => absurd hc hnot, fun hc => absurd hc hnot⟩⟩
  exact fun hin => absurd hin (serveOnce_behind env hw hout hr)

/-- One round. -/
lemma serveOnce_balanced (hw : Whole False c) (hin : c.InFile) (h : c.Balanced) (hno : ¬ c.MeetsEof env) :
    ((c.serveOnce env).2 = .done → SentAll (c.serveOnce env).1) ∧
      ((c.serveOnce env).2 ≠ .done → (c.serveOnce env).1.Balanced) := by
  have harm (hlt : c.status.rank < 6) : Clear (c.arm env) := (h.clear hlt).books (.of_eq rfl rfl id) rfl
  obtain ⟨hhead, hp, he⟩ | ⟨hout, hlater⟩ := serveOnce_cases env hw
  · have hclear := harm (by have := Status.inHeader_iff.mp hhead; omega)
    have hpoised : (c.arm env).Poised := (h.header hhead).of_eq (.refl _) id rfl fun _ => rfl
    have hout := @readHeader_outcome env _ hp hclear hpoised rfl
    have hframes := hout.frames
    have hanswered := readHeader_answered env hp hclear
    rw [he]
    refine ⟨fun hr hc hl => hframes.sent hc (.inl hr) hl, fun hr => ?_⟩
    refine ⟨hanswered.clear hr, fun hf => (hanswered.fair.right hf).2, fun hin => hout.header hr hin,
      fun hb => hout.body hr hb, hframes.owing hr, fun hc hs => ?_⟩
    exact hframes.sent hc (.inr hs) (by rw [hs]; decide)
  have hbehind := serveOnce_behind env hw hout
  by_cases hlive : c.status < .timedOut
  · by_cases hlate : 6 ≤ c.status.rank
    · obtain ⟨hdone, hmore⟩ := serveOnce_sends hw hlive hlate hin h hno
      exact ⟨hdone, fun hr => (hmore hr).balanced (serveOnce_late hlate)⟩
    · refine serveOnce_body hw ?_ h
      revert hout hlate
      cases c.status <;> decide
  · rw [serveOnce_dead hlive]
    exact ⟨fun _ _ hl => absurd hl hlive, fun hr => absurd rfl hr⟩

lemma poised_fresh (ht : c.trace = []) (hm : c.dataMem = none) (hr : c.ranges = []) (h0 : c.responseStatus = 0)
    (hl : c.logline = false) (hk : c.keepalive ≠ .active) : c.Poised := by
  refine ⟨⟨?_, ?_, hm, h0⟩, fun _ => hk, fun hlog => ?_⟩
  · rw [ht]
    exact fun e he => absurd he List.not_mem_nil
  · simp [Counted, hr]
  · rw [hl] at hlog
    cases hlog

lemma balanced_fresh (o : Out) (l : Link) (hs : o.status = .readHeader) (ht : o.trace = []) :
    Balanced { toOut := o, toLink := l } := by
  have hclear : Clear { toOut := o, toLink := l } := clear_fresh ht rfl rfl hs
  have hnot : ¬ Concerned { toOut := o, toLink := l } := fun hc => hclear.not_fromFile hc.file
  refine ⟨fun _ => hclear, fun hf => absurd hf hclear.not_fromFile,
    fun _ => poised_fresh ht rfl rfl rfl rfl (show KaStatus.inactive ≠ .active by decide),
    fun hbody => ?_, fun hc => absurd hc hnot, fun hc => absurd hc hnot⟩
  have hbody : o.status = .bodyRead ∨ o.status = .bodyWrite := hbody
  obtain hb | hb := hbody <;> rw [hs] at hb <;> cases hb

lemma Poised.squashed (h : c.Poised) : c.squashKa.Poised :=
  ⟨⟨h.mute, h.counted, h.unmapped, h.unset⟩, fun _ => show KaStatus.stopped ≠ .active by decide, h.asked⟩

lemma Balanced.squashed (h : c.Balanced) : c.squashKa.Balanced := by
  have hnot : ¬ c.squashKa.Concerned := fun hc => absurd hc.alive (show KaStatus.stopped ≠ .active by decide)
  refine ⟨fun hlt => (h.clear hlt).books (.of_eq rfl rfl id) rfl, h.unpiped, fun hin => ?_, h.body,
    fun hc => absurd hc hnot, fun hc => absurd hc hnot⟩
  exact (h.header hin).squashed

/-- A request that neither copies a file nor is read, and of which no body is asked for. -/
lemma balanced_of_not (hlate : 6 ≤ c.status.rank) (hp : ¬ c.status.piped) (hs : ¬ c.status.copies)
    (hsent : c.Concerned → c.status = .done → Due 0 c.trace) : c.Balanced :=
  Sends.balanced ⟨fun _ => hp, fun _ hc => absurd hc hs, hsent⟩ hlate

end Request

/-- The runs in which `io_shuffle` never finds the end of a file. -/
def Unshrunk : Label → Request → Prop
  | .pass env, c => ¬ c.MeetsEof env
  | _, _ => True

open Request in
/-- How the length of a body is kept to. -/
lemma balanced_rule : RoundRule Unshrunk Balanced SentAll where
  fresh o l hs ht := balanced_fresh o l hs ht
  excess ht hr := by
    refine balanced_of_not (show 6 ≤ Status.done.rank by decide) not_piped_done (show ¬ Status.done.copies by decide) ?_
    exact fun hc => absurd ((Carries.setStatus _ not_piped_done).concerned hc) hr.not_concerned
  heed env c h := by
    unfold heedSigterm
    split_ifs
    · exact h.squashed
    · exact h
  heedDone env c h := by
    unfold heedSigterm
    split_ifs
    · exact fun hc => absurd hc.alive (show KaStatus.stopped ≠ .active by decide)
    · exact h
  serve hr hP h := by
    have hw := (reach_whole (S := False) False.elim hr).1 (by simp)
    exact serveOnce_balanced hw (reach_inFile hr (by simp)) h hP
  finish {c} h hl hs := by
    have hflush := (reqFlush_flushed { c with toOut := { c.toOut with status := .done } }).1
    have hcarries : Carries c { c with toOut := { c.toOut with status := .done }.reqFlush.1 } :=
      (Carries.setStatus c not_piped_done).trans (reqFlush_carries { c with toOut := { c.toOut with status := .done } })
    have hst : ({ c with toOut := { c.toOut with status := .done }.reqFlush.1 } : Request).status = .done := hs
    refine balanced_of_not ?_ ?_ ?_ fun hc _ => hflush.due (h (hcarries.concerned hc) hl)
    · rw [hst]
      decide
    · rw [hst]
      exact not_piped_done
    · rw [hst]
      decide
  wake {c} w hP h := by
    cases w with
    | ready => exact h
    | timedOut =>
      exact balanced_of_not (show 6 ≤ Status.timedOut.rank by decide) (show ¬ Status.timedOut.piped by decide)
        (show ¬ Status.timedOut.copies by decide) fun _ hs => absurd hs (show Status.timedOut ≠ .done by decide)
    | dead =>
      exact balanced_of_not (show 6 ≤ Status.dead.rank by decide) not_piped_dead
        (show ¬ Status.dead.copies by decide) fun _ hs => absurd hs (show Status.dead ≠ .done by decide)

/-- What `free_request` asks of a request before it recycles it. -/
def Request.Kept (c : Request) : Prop :=
  c.status < .timedOut ∧ c.keepalive = .active ∧ c.responseStatus < 500 ∧ c.responseStatus ≠ 0 ∧ 0 < c.kacount

open Request in
lemma freeRequest_block (h : (c.freeRequest env).2 = .block) : c.Kept := by
  have hend (d : Request) (hd : (d.endRequest env).2 = .block) : d.Kept := by
    obtain ⟨es, code, -, ⟨hr, -⟩ | ⟨-, he⟩⟩ := endRequest_cases env d
    · obtain ⟨hl, hactive, hcode, hne, hcount⟩ := decide_eq_true_eq.mp hr
      exact ⟨hl, hactive, hcode, hne, hcount⟩
    · rw [he] at hd
      cases hd
  obtain ⟨-, -, n, -, he⟩ | ⟨-, -, -, he⟩ | ⟨-, hl, -, he⟩ | ⟨-, he⟩ := freeRequest_cases env c
  · rw [he] at h
    cases h
  · rw [he] at h
    exact absurd (hend _ h).1 not_live_dead
  · rw [he] at h
    exact ⟨hl, (hend _ h).2⟩
  · rw [he] at h
    exact hend c h

/-- A request that is still to be kept was not stopped by a signal. -/
lemma heedSigterm_active (h : (c.heedSigterm env).keepalive = .active) : c.heedSigterm env = c := by
  unfold Request.heedSigterm at h ⊢
  split_ifs at h ⊢
  · cases h
  · rfl

lemma processRequest_kept (hdone : (c.serveOnce env).2 = .done) (hkept : (c.processRequest env).2 = .block) :
    (c.serveOnce env).1.Kept := by
  have hblock : (((c.serveOnce env).1.heedSigterm env).freeRequest env).2 = .block := by
    unfold Request.processRequest at hkept
    dsimp only at hkept
    rwa [hdone] at hkept
  have h := freeRequest_block hblock
  rwa [heedSigterm_active h.2.1] at h

/-- In runs in which the files keep their sizes for `io_shuffle`, a connection that is recycled behind
a file, or behind one part of it, was given as many bytes of a body as the one length that was announced. -/
theorem recycled_framing (h : Reach Unshrunk c .ready) (hno : ¬ c.MeetsEof env) (hdone : (c.serveOnce env).2 = .done)
    (hkept : (c.processRequest env).2 = .block) (hf : FromFile (c.serveOnce env).1.trace)
    (hone : (c.serveOnce env).1.OneBody) :
    announced (c.serveOnce env).1.trace = [bodySize (c.serveOnce env).1.trace] := by
  have hw := (reach_whole (S := False) False.elim h).1 (by simp)
  obtain ⟨hsent, -⟩ := Request.serveOnce_balanced hw (reach_inFile h (by simp)) (balanced_rule.reach h (by simp)) hno
  obtain ⟨hlive, hactive, -⟩ := processRequest_kept hdone hkept
  exact hsent hdone ⟨hf, hone, hactive⟩ hlive

/-- A GET of a mapped file of five bytes, on a connection that is kept. -/
theorem recycled_framing_get : ((receivedBy keptClient).processRequest roomyEnv).2 = .block ∧
    announced ((receivedBy keptClient).serveOnce roomyEnv).1.trace =
      [bodySize ((receivedBy keptClient).serveOnce roomyEnv).1.trace] := by
  have hstart : Reach Unshrunk (Request.getRequest tinyEnv tinyPeer {}) .ready := .accept tinyEnv tinyPeer {} trivial
  have hread := Reach.pass keptClient hstart fun h => absurd h.1.2.1 (by decide +kernel)
  have hready : ((Request.getRequest tinyEnv tinyPeer {}).processRequest keptClient).2 = .ready := by
    decide +kernel
  rw [hready] at hread
  have hkept : ((receivedBy keptClient).processRequest roomyEnv).2 = .block := by decide +kernel
  refine ⟨hkept, recycled_framing hread (fun h => absurd h.1.2.1 (by decide +kernel)) (by decide +kernel) hkept ?_ ?_⟩
  · exact ⟨⟨text "/d/f", by decide +kernel⟩, by decide +kernel⟩
  · exact ⟨by decide +kernel, .inl (by decide +kernel)⟩

/-- The file has shrunk to two bytes since its length was announced. -/
def shrunkEnv : Env := { shuffleEnv with file := [.eof] }

/-- Two of five announced bytes, and the connection is kept. -/
theorem shrunk_recycled : ∃ c, Reachable c .ready ∧ (c.serveOnce shrunkEnv).2 = .done ∧
    (c.processRequest shrunkEnv).2 = .block ∧ announced (c.serveOnce shrunkEnv).1.trace = [5] ∧
    bodySize (c.serveOnce shrunkEnv).1.trace = 2 := by
  have hstart : Reachable (Request.getRequest shuffleEnv tinyPeer {}) .ready := .accept shuffleEnv tinyPeer {} trivial
  have hrun : ((Request.getRequest shuffleEnv tinyPeer {}).rounds
      [{ shuffleEnv with client := keptClient.client }, shuffleEnv, { shuffleEnv with file := [.data (text "he")] }]).any
        (fun c => decide ((c.serveOnce shrunkEnv).2 = .done) && decide ((c.processRequest shrunkEnv).2 = .block) &&
          decide (announced (c.serveOnce shrunkEnv).1.trace = [5]) &&
          decide (bodySize (c.serveOnce shrunkEnv).1.trace = 2)) = true := by
    decide +kernel
  obtain ⟨c, hc, ht⟩ := (Option.any_eq_true _ _).mp hrun
  simp only [Bool.and_eq_true, decide_eq_true_eq] at ht
  exact ⟨c, reach_rounds hstart (fun _ => trivial) (fun _ _ _ => trivial) hc, ht.1.1.1, ht.1.1.2, ht.1.2, ht.2⟩

end Boa
