import Boa.Announced
import Boa.Outcome

/-! What every step of sending a file leaves due of its body. -/
namespace Boa
open Memory History

variable {env : Env} {c d : Request} {r : Range}

/-! ### Transfers -/

/-- An event of sending a file behind its header. -/
def Event.carries : Event → Bool
  | .queued _ | .data _ | .sent _ | .closed _ | .fileEof | .fileError | .noRoom | .wild => true
  | _ => false

/-- What decides about keeping the connection, and about the form of the response. -/
def Request.verdict (c : Request) :=
  (c.responseStatus, c.keepalive, c.kacount, c.method, c.numranges, c.httpVersion)

/-- A routine that sends a file: what was decided about the response stays. -/
structure Carries (c d : Request) : Prop where
  verdict : d.verdict = c.verdict
  adds : Adds (fun e => e.carries) c.trace d.trace
  piped : d.status.piped → c.status.piped

namespace Carries

lemma refl (c : Request) : Carries c c := ⟨rfl, .refl _, id⟩

lemma trans {e : Request} (h : Carries c d) (h' : Carries d e) : Carries c e :=
  ⟨h'.verdict.trans h.verdict, h.adds.trans h'.adds, fun hp => h.piped (h'.piped hp)⟩

lemma of_eq (hv : d.verdict = c.verdict) (ht : d.trace = c.trace) (hs : d.status = c.status) : Carries c d := by
  refine ⟨hv, ?_, fun hp => hs ▸ hp⟩
  rw [ht]
  exact .refl _

lemma setStatus (c : Request) {s : Status} (hs : ¬ s.piped) : Carries c { c with status := s } :=
  ⟨rfl, .refl _, fun hp => absurd hp hs⟩

lemma log (c : Request) {e : Event} (he : e.carries) : Carries c (c.log e) := ⟨rfl, .snoc he, id⟩

lemma replies {o : Out} (h : Out.Replies (fun _ => False) (fun _ => False) c.toOut o) :
    Carries c { c with toOut := o } := by
  refine ⟨rfl, h.adds.mono fun e he => ?_, fun hp => ?_⟩
  · cases e <;> first | rfl | exact he.elim
  · have hp : o.status.piped := hp
    obtain hs | hs := h.status
    · rwa [hs] at hp
    · rw [hs] at hp
      exact absurd hp (by decide)

lemma fields (h : Carries c d) : d.responseStatus = c.responseStatus ∧ d.keepalive = c.keepalive ∧
    d.kacount = c.kacount ∧ d.method = c.method ∧ d.numranges = c.numranges ∧ d.httpVersion = c.httpVersion := by
  simpa only [Request.verdict, Prod.mk.injEq] using h.verdict

lemma unmarked (h : Carries c d) : Unmarked c d := by
  refine .of_adds (h.adds.mono fun e he => ?_)
  cases e <;> first | rfl | simp [Event.carries] at he

end Carries

namespace Request

lemma writes_carries (c : Request) {ms : List Msg} (h : ∀ m ∈ ms, m.isText) : Carries c (c.writes ms) := by
  have hr : Out.Replies (fun _ => False) (fun _ => False) c.toOut (c.toOut.writes ms) := text_replies _ h
  exact .replies hr

lemma reqFlush_carries (c : Request) : Carries c c.reqFlush := by
  have hr : Out.Replies (fun _ => False) (fun _ => False) c.toOut c.toOut.reqFlush.1 := Out.reqFlush_replies _
  exact .replies hr

lemma printPartialContentContinue_isText (env : Env) (c : Request) (r : Range) :
    ∀ m ∈ c.printPartialContentContinue env r, m.isText := by
  intro m hm
  simp only [printPartialContentContinue, List.mem_append] at hm
  obtain (hm | hm) | hm := hm
  · split_ifs at hm
    · rw [List.mem_singleton.mp hm]
      rfl
    · simp at hm
  · exact printContentType_isText env c m hm
  · simp only [printContentRange, List.mem_cons, List.not_mem_nil, or_false] at hm
    obtain rfl | rfl | rfl | rfl | rfl | rfl | rfl := hm <;> rfl

lemma not_piped_done : ¬ Status.done.piped := by decide

lemma not_piped_dead : ¬ Status.dead.piped := by decide

lemma completeResponse_carries (env : Env) (c : Request) : Carries c (c.completeResponse env).1 := by
  unfold completeResponse
  split
  · exact .log c rfl
  · next rest _ =>
    have hrest : Carries c { c with ranges := rest } := .of_eq rfl rfl rfl
    dsimp only
    split_ifs
    · cases rest with
      | nil =>
        have hlast := hrest.trans (writes_carries { c with ranges := [] }
          (show ∀ m ∈ printPartialContentDone, m.isText by simp [printPartialContentDone]))
        have hdone : Carries c { { c with ranges := [] }.writes printPartialContentDone with status := .done } :=
          hlast.trans (.setStatus _ not_piped_done)
        exact hdone.trans (reqFlush_carries _)
      | cons r rest =>
        refine hrest.trans (writes_carries _ fun m hm => ?_)
        obtain hm | hm := List.mem_append.mp hm
        · exact printPartialContentContinue_isText env _ r m hm
        · rw [List.mem_singleton.mp hm]
          rfl
    · exact hrest.trans (.setStatus _ not_piped_done)

lemma sendDirect_carries (c : Request) (bs : Bytes) : Carries c (c.sendDirect bs) :=
  (Carries.log c rfl).trans (.log _ rfl)

lemma processGet_carries (env : Env) (c : Request) : Carries c (c.processGet env).1 := by
  have hpop : Carries c c.popSock := .of_eq rfl rfl rfl
  unfold processGet
  split
  · exact completeResponse_carries env c
  · split
    · exact .log c rfl
    · dsimp only
      split_ifs
      · exact (Carries.log c rfl).trans (.setStatus _ not_piped_dead)
      · split
        · exact hpop
        · exact hpop.trans (.setStatus _ not_piped_dead)
        · exact hpop.trans (.setStatus _ not_piped_dead)
        · have hmove (bs : Bytes) (r : Range) (rest : List Range) (n : ℕ) :
              Carries c ((c.popSock.sendDirect bs).moveRange r rest n) :=
            (hpop.trans (sendDirect_carries _ bs)).trans (.of_eq rfl rfl rfl)
          split_ifs
          · exact (hmove _ _ _ _).trans (completeResponse_carries env _)
          · exact hmove _ _ _ _

lemma shuffleWrite_carries (c : Request) : Carries c c.shuffleWrite.1 := by
  have hpop : Carries c c.restartWrite.popSock := .of_eq rfl rfl rfl
  unfold shuffleWrite
  dsimp only
  split_ifs
  · exact .refl c
  · exact .of_eq rfl rfl rfl
  · split
    · exact hpop
    · exact hpop
    · exact hpop.trans (.setStatus _ not_piped_dead)
    · split_ifs
      · exact (hpop.trans (.log _ rfl)).trans (.of_eq rfl rfl rfl)
      · exact (hpop.trans (.log _ rfl)).trans (.of_eq rfl rfl rfl)

lemma bufferData_carries (c : Request) (bs : Bytes) : Carries c (c.bufferData bs) := ⟨rfl, .snoc rfl, id⟩

lemma ioShuffle_carries (env : Env) (c : Request) : Carries c (c.ioShuffle env).1 := by
  have hpop : Carries c c.restartRead.popFile := .of_eq rfl rfl rfl
  unfold ioShuffle
  split_ifs
  · exact completeResponse_carries env c
  · split
    · exact .log c rfl
    · dsimp only
      split_ifs
      · unfold shuffleRead
        split_ifs
        · exact (Carries.log c rfl).trans (.setStatus _ not_piped_dead)
        · dsimp only
          split
          · split_ifs
            · exact hpop
            · exact hpop.trans (shuffleWrite_carries _)
          · split_ifs
            · exact hpop
            · exact hpop.trans (shuffleWrite_carries _)
          · exact (hpop.trans (.log _ rfl)).trans (.setStatus _ not_piped_dead)
          · have hclose : Carries c { (c.restartRead.popFile.log .fileEof).log (.closed c.restartRead.dataFd) with
                dataFd := 0 } := ((hpop.trans (.log _ rfl)).trans (.log _ rfl)).trans (.of_eq rfl rfl rfl)
            exact hclose.trans (shuffleWrite_carries _)
          · have hdata (bs : Bytes) (rs : List Range) :
                Carries c { c.restartRead.popFile.bufferData bs with ranges := rs } :=
              (hpop.trans (bufferData_carries _ bs)).trans (.of_eq rfl rfl rfl)
            split_ifs
            · exact (hdata _ _).trans (completeResponse_carries env _)
            · exact (hdata _ _).trans (shuffleWrite_carries _)
      · exact shuffleWrite_carries c

lemma sentRange_carries (env : Env) (c : Request) : Carries c (c.sentRange env).1 := by
  unfold sentRange
  split
  · exact .log c rfl
  · split_ifs
    · exact completeResponse_carries env c
    · exact .refl c

lemma ioShuffleSendfile_carries (env : Env) (c : Request) : Carries c (c.ioShuffleSendfile env).1 := by
  have hpop : Carries c c.popSend := .of_eq rfl rfl rfl
  unfold ioShuffleSendfile
  split_ifs
  · exact completeResponse_carries env c
  · split
    · exact .log c rfl
    · dsimp only
      split_ifs
      · exact sentRange_carries env c
      · exact .setStatus c not_piped_dead
      · split
        · exact hpop.trans (ioShuffle_carries env _)
        · exact hpop
        · exact hpop
        · exact hpop
        · exact (hpop.trans (.log _ rfl)).trans (.setStatus _ not_piped_dead)
        · have hsent (bs : Bytes) : Carries c (c.popSend.sendDirect bs) := hpop.trans (sendDirect_carries _ bs)
          have hmove (bs : Bytes) (r : Range) (rest : List Range) (n : ℕ) :
              Carries c ((c.popSend.sendDirect bs).moveRange r rest n) := (hsent bs).trans (.of_eq rfl rfl rfl)
          split_ifs
          · exact (hsent _).trans (.setStatus _ not_piped_dead)
          · exact (hmove _ _ _ _).trans (sentRange_carries env _)

lemma processDone_carries (c : Request) : Carries c c.processDone.1 := by
  have hflush : Carries c { c with toOut := c.toOut.reqFlush.1 } := reqFlush_carries c
  unfold processDone
  generalize c.toOut.reqFlush = r at hflush
  obtain ⟨o, fl⟩ := r
  cases fl with
  | error => exact hflush.trans (.setStatus _ not_piped_dead)
  | blocked => exact hflush
  | left n =>
    cases n with
    | zero => exact hflush
    | succ n => exact hflush

lemma flushFirst_carries (c : Request) : Carries c c.flushFirst.1 := by
  have hflush : Carries c { c with toOut := c.toOut.reqFlush.1 } := reqFlush_carries c
  unfold flushFirst
  split_ifs
  · generalize c.toOut.reqFlush = r at hflush
    obtain ⟨o, fl⟩ := r
    cases fl with
    | error => exact hflush.trans (.setStatus _ not_piped_dead)
    | blocked => exact hflush
    | left n => exact hflush
  · exact .refl c

end Request

/-! ### What is due -/

lemma Mute.silent {t : List Event} (h : Mute t) : announced t = [] ∧ bodySize t = 0 := by
  refine ⟨List.filterMap_eq_nil_iff.mpr fun e he => ?_, total_eq_zero fun e he => ?_⟩
  · have hmute := h e he
    cases e <;> first | rfl | cases hmute
  · have hmute := h e he
    cases e <;> first | rfl | cases hmute

namespace Request

/-- The body of the response is in one piece: a GET is answered with a file, or with one part of it. -/
def OneBody (c : Request) : Prop :=
  c.method = .get ∧ (c.responseStatus = 200 ∨ c.responseStatus = 206 ∧ c.numranges ≤ 1)

/-- Such a response from a file, on a connection that is to be kept. -/
structure Concerned (c : Request) : Prop where
  file : FromFile c.trace
  body : c.OneBody
  alive : c.keepalive = .active

/-- What is left of the only range is what is due, and `io_shuffle` can still read. -/
structure Owing (c : Request) (r : Range) : Prop where
  copies : c.status.copies
  ranges : c.ranges = [r]
  due : Due (r.stop + 1 - r.start) c.trace
  fd : c.status = .ioShuffle → c.dataFd ≠ 0

end Request

lemma Carries.oneBody (h : Carries c d) (hd : d.OneBody) : c.OneBody := by
  obtain ⟨hcode, -, -, hmethod, hnum, -⟩ := h.fields
  unfold Request.OneBody at hd ⊢
  rwa [← hcode, ← hmethod, ← hnum]

lemma Carries.concerned (h : Carries c d) (hd : d.Concerned) : c.Concerned :=
  ⟨h.unmarked.fromFile_iff.mp hd.file, h.oneBody hd.body, h.fields.2.1 ▸ hd.alive⟩

lemma Refused.not_concerned (h : Refused c d) : ¬ d.Concerned := by
  obtain ⟨o, code, rfl, -⟩ := h
  rintro ⟨-, -, halive⟩
  cases halive

/-- A routine leaves a response that owes its body, or one that has sent all of it. -/
structure Frames (p : Request × Ret) : Prop where
  owing : p.2 ≠ .done → p.1.Concerned → p.1.status.copies → ∃ r, p.1.Owing r
  sent : p.1.Concerned → p.2 = .done ∨ p.1.status = .done → p.1.status < .timedOut → Due 0 p.1.trace

namespace Frames

variable {ret : Ret}

lemma of_not (h : ¬ d.Concerned) : Frames (d, ret) := ⟨fun _ hd => absurd hd h, fun hd => absurd hd h⟩

lemma of_concerned {p : Request × Ret} (h : p.1.Concerned → Frames p) : Frames p :=
  ⟨fun hr hc => (h hc).owing hr hc, fun hc => (h hc).sent hc⟩

lemma of_due (h : Due 0 d.trace) : Frames (d, .done) := ⟨fun hr => absurd rfl hr, fun _ _ _ => h⟩

lemma of_owing (h : d.Owing r) (hr : ret ≠ .done) : Frames (d, ret) := by
  refine ⟨fun _ _ _ => ⟨r, h⟩, fun _ hdone => ?_⟩
  have hs : d.status ≠ .done := by
    obtain hs | hs := h.copies <;> rw [hs] <;> decide
  exact absurd hdone (by simp [hr, hs])

lemma of_dead (h : ¬ d.status < .timedOut) : Frames (d, .done) :=
  ⟨fun hr => absurd rfl hr, fun _ _ hl => absurd hl h⟩

lemma of_stopped {p : Request × Ret} (h : p.1.keepalive = .stopped) : Frames p :=
  .of_concerned fun hc => by
    have halive := hc.alive
    rw [h] at halive
    cases halive

end Frames

namespace Request

lemma not_live_dead : ¬ Status.dead < .timedOut := by decide

/-- The only range is done. -/
lemma completeResponse_one (env : Env) (hone : c.OneBody) (hr : c.ranges = [r]) :
    c.completeResponse env = ({ c with ranges := [], status := .done }, .done) := by
  have hmany : ¬ (c.responseStatus = 206 ∧ 1 < c.numranges) := by
    rintro ⟨hcode, hnum⟩
    obtain h200 | ⟨-, hle⟩ := hone.2
    · omega
    · omega
  unfold completeResponse
  rw [hr]
  exact if_neg hmany

lemma completeResponse_frames (env : Env) (hone : c.OneBody) (hr : c.ranges = [r]) (hdue : Due 0 c.trace) :
    Frames (c.completeResponse env) := by
  rw [completeResponse_one env hone hr]
  exact .of_due hdue

/-- A chunk goes past the buffer. -/
lemma sendDirect_due {n : ℕ} (h : Due n c.trace) (bs : Bytes) (hn : bs.length ≤ n) :
    Due (n - bs.length) (c.sendDirect bs).trace := (h.chunk bs hn).adds (.snoc ⟨rfl, rfl⟩)

lemma processGet_frames (env : Env) (h : c.Owing r) (hin : c.InFile) (hone : c.OneBody) (hs : c.status = .write) :
    Frames (c.processGet env) := by
  obtain ⟨-, hwithin, hsize, hmapped⟩ := hin h.copies
  obtain ⟨mem, hmem, hlen⟩ := hmapped hs
  obtain ⟨hle, hlt⟩ := hwithin r (by simp [h.ranges])
  have hbytes := bytes_eq hle (hlt.trans hsize)
  unfold processGet
  rw [if_neg (by rw [hone.1]; decide), h.ranges]
  dsimp only
  split_ifs
  · exact .of_dead not_live_dead
  · split
    · exact .of_owing (r := r) ⟨h.copies, h.ranges, h.due, h.fd⟩ (by simp)
    · exact .of_dead not_live_dead
    · exact .of_dead not_live_dead
    · next n _ =>
      generalize hk : min n (min r.bytes env.systemBufsize) = k
      have hchunk : (slice (c.dataMem.getD []) r.start (r.start + k)).length = k := by
        rw [hmem]
        exact length_slice_mem hle (hlen ▸ hlt) (hlen ▸ hsize) (by omega)
      have hdue := sendDirect_due (c := c.popSock) h.due (slice (c.dataMem.getD []) r.start (r.start + k))
        (by omega)
      rw [hchunk] at hdue
      split_ifs with hend
      · refine completeResponse_frames (r := { r with start := r.start + k }) env hone rfl ?_
        rwa [show r.stop + 1 - r.start - k = 0 by omega] at hdue
      · refine .of_owing (r := { r with start := r.start + k }) ⟨h.copies, rfl, ?_, h.fd⟩ (by simp)
        rwa [show r.stop + 1 - r.start - k = r.stop + 1 - (r.start + k) by omega] at hdue

/-- The writing half of `io_shuffle`. -/
lemma shuffleWrite_frames (h : c.Owing r) (hs : c.status = .ioShuffle) : Frames c.shuffleWrite := by
  have hfd := h.fd hs
  have howing (d : Request) (ht : Adds Event.bare c.trace d.trace) (he : d.status = c.status ∧ d.ranges = c.ranges ∧
      d.dataFd = c.dataFd) : d.Owing r := by
    obtain ⟨hst, hr, hd⟩ := he
    refine ⟨hst ▸ h.copies, hr ▸ h.ranges, h.due.adds ht, ?_⟩
    rw [hst, hd]
    exact h.fd
  unfold shuffleWrite
  dsimp only
  split_ifs with hzero
  · exact .of_owing (howing _ (.refl _) ⟨rfl, rfl, rfl⟩) (by simp)
  · split
    · exact .of_owing (howing _ (.refl _) ⟨rfl, rfl, rfl⟩) (by simp)
    · exact .of_owing (howing _ (.refl _) ⟨rfl, rfl, rfl⟩) (by simp)
    · exact .of_dead not_live_dead
    · split_ifs
      · exact .of_owing (howing _ (.snoc ⟨rfl, rfl⟩) ⟨rfl, rfl, rfl⟩) (by simp)
      · exact .of_owing (howing _ (.snoc ⟨rfl, rfl⟩) ⟨rfl, rfl, rfl⟩) (by simp)

/-- `io_shuffle`, unless `read` finds the end of the file. -/
lemma ioShuffle_frames (env : Env) (h : c.Owing r) (hin : c.InFile) (hone : c.OneBody) (hs : c.status = .ioShuffle)
    (hno : c.shuffleAnswer env ≠ some .eof) : Frames (c.ioShuffle env) := by
  obtain ⟨-, hwithin, hsize, -⟩ := hin h.copies
  obtain ⟨hle, hlt⟩ := hwithin r (by simp [h.ranges])
  have hbytes := bytes_eq hle (hlt.trans hsize)
  unfold shuffleAnswer at hno
  unfold ioShuffle
  rw [if_neg (by rw [hone.1]; decide)]
  rw [h.ranges] at hno ⊢
  dsimp only at hno ⊢
  have htoRead : min (bufferSize - c.bufferEnd - 256) r.bytes ≤ r.bytes := min_le_right _ _
  generalize min (bufferSize - c.bufferEnd - 256) r.bytes = toRead at hno htoRead
  by_cases hread : 0 < toRead ∧ c.dataFd ≠ 0
  · rw [if_pos hread] at hno ⊢
    unfold shuffleRead
    by_cases hseek : env.lseekOk = true
    · rw [if_pos hseek] at hno
      rw [if_neg (by simp [hseek])]
      dsimp only
      have hpop : c.restartRead.popFile.Owing r := ⟨h.copies, h.ranges, h.due, h.fd⟩
      split
      · split_ifs
        · exact .of_owing hpop (by simp)
        · exact shuffleWrite_frames hpop hs
      · split_ifs
        · exact .of_owing hpop (by simp)
        · exact shuffleWrite_frames hpop hs
      · exact .of_dead not_live_dead
      · next heof => exact absurd (congrArg some heof) hno
      · next bs hbs =>
        have hlen : bs.length ≤ r.bytes := (fit_data hbs).1.trans htoRead
        have hdue := h.due.chunk bs (by omega)
        split_ifs with hend
        · refine completeResponse_frames (r := { r with start := r.start + bs.length }) env hone rfl ?_
          rwa [show r.stop + 1 - r.start - bs.length = 0 by omega] at hdue
        · refine shuffleWrite_frames (r := { r with start := r.start + bs.length }) ⟨h.copies, rfl, ?_, h.fd⟩ hs
          rwa [show r.stop + 1 - r.start - bs.length = r.stop + 1 - (r.start + bs.length) by omega] at hdue
    · rw [if_pos (by simpa using hseek)]
      exact .of_dead not_live_dead
  · rw [if_neg hread]
    exact shuffleWrite_frames h hs

/-- `io_shuffle_sendfile`, unless it calls `io_shuffle` and that finds the end of the file. -/
lemma ioShuffleSendfile_frames (env : Env) (h : c.Owing r) (hin : c.InFile) (hone : c.OneBody)
    (hs : c.status = .ioShuffle)
    (hno : c.nextSend env.systemBufsize = .nosys → c.shuffleAnswer env ≠ some .eof) :
    Frames (c.ioShuffleSendfile env) := by
  obtain ⟨-, hwithin, hsize, -⟩ := hin h.copies
  obtain ⟨hle, hlt⟩ := hwithin r (by simp [h.ranges])
  have hbytes := bytes_eq hle (hlt.trans hsize)
  have hpop : c.popSend.Owing r := ⟨h.copies, h.ranges, h.due, h.fd⟩
  unfold ioShuffleSendfile
  rw [if_neg (by rw [hone.1]; decide), h.ranges]
  dsimp only
  split_ifs with hzero hneg
  · unfold sentRange
    rw [h.ranges]
    dsimp only
    rw [if_neg (by omega)]
    exact .of_owing h (by simp)
  · exact .of_dead not_live_dead
  · split
    · next hsend =>
      exact ioShuffle_frames env hpop (hin.congr (.inl rfl) rfl) hone hs (hno (nextSend_nosys hsend))
    · exact .of_owing hpop (by simp)
    · exact .of_owing hpop (by simp)
    · exact .of_owing hpop (by simp)
    · exact .of_dead not_live_dead
    · next bs _ hbs =>
      have hlen : bs.length ≤ r.bytes := (nextSend_length hbs).trans (min_le_left _ _)
      have hdue := sendDirect_due (c := c.popSend) h.due bs (by omega)
      split_ifs
      · exact .of_dead not_live_dead
      · unfold sentRange
        dsimp only [moveRange]
        split_ifs with hend
        · refine completeResponse_frames (r := { r with start := r.start + bs.length }) env hone rfl ?_
          rwa [show r.stop + 1 - r.start - bs.length = 0 by omega] at hdue
        · refine .of_owing (r := { r with start := r.start + bs.length }) ⟨h.copies, rfl, ?_, h.fd⟩ (by simp)
          rwa [show r.stop + 1 - r.start - bs.length = r.stop + 1 - (r.start + bs.length) by omega] at hdue

/-! ### The start of a response -/

/-- The header of a body in one piece is written, and the body is at hand. -/
structure Loaded (c : Request) (r : Range) : Prop where
  owing : c.Owing r
  body : c.OneBody
  start_le : r.start ≤ r.stop
  stop_lt : r.stop < c.filesize
  size : c.filesize < 2 ^ 63
  way : (c.status = .write ∧ ∃ mem, c.dataMem = some mem ∧ mem.length = c.filesize ∧ c.filesize ≤ maxFileMmap) ∨
    (c.status = .ioShuffle ∧ c.dataMem = none)

lemma startTransfer_frames (env : Env) (h : c.Loaded r) : Frames (c.startTransfer env) := by
  have hbytes := bytes_eq h.start_le (h.stop_lt.trans h.size)
  unfold startTransfer firstChunk
  rw [if_neg (by rw [h.body.1]; decide), h.owing.ranges]
  obtain ⟨-, mem, hmem, hlen, hmax⟩ | ⟨-, hnone⟩ := h.way
  · have hlt := h.stop_lt
    have hwant : r.bytes % 2 ^ 32 = r.bytes := by
      refine Nat.mod_eq_of_lt ?_
      have hsize : maxFileMmap < 2 ^ 32 := by decide
      omega
    rw [hmem]
    dsimp only
    rw [hwant]
    generalize hk : min (bufferSize - c.bufferEnd) r.bytes = k
    have hchunk : (slice mem r.start (r.start + k)).length = k :=
      length_slice_mem h.start_le (hlen ▸ hlt) (hlen ▸ h.size) (hk ▸ min_le_right _ _)
    have hdue := h.owing.due.chunk (slice mem r.start (r.start + k)) (by omega)
    rw [hchunk] at hdue
    split_ifs with hroom hbus hend
    · exact .of_not (Refused.not_concerned (sendRError_refused env _))
    · refine completeResponse_frames (r := { r with start := r.start + k }) env h.body rfl ?_
      rwa [show r.stop + 1 - r.start - k = 0 by omega] at hdue
    · refine .of_owing (r := { r with start := r.start + k }) ⟨h.owing.copies, rfl, ?_, h.owing.fd⟩ (by simp)
      rwa [show r.stop + 1 - r.start - k = r.stop + 1 - (r.start + k) by omega] at hdue
    · exact .of_owing h.owing (by simp)
  · rw [hnone]
    exact .of_owing h.owing (by simp)

/-- A file is sent, or an error response in its place. -/
lemma startTransfer_carries (env : Env) (c : Request) :
    Carries c (c.startTransfer env).1 ∨ ∃ d, Refused d (c.startTransfer env).1 := by
  unfold startTransfer
  split_ifs
  · exact .inl (completeResponse_carries env c)
  · unfold firstChunk
    split
    · next mem r rest _ _ =>
      have hmove (bs : Bytes) (n : ℕ) : Carries c ((c.bufferData bs).moveRange r rest n) :=
        (bufferData_carries c bs).trans (.of_eq rfl rfl rfl)
      dsimp only
      split_ifs
      · exact .inr ⟨_, sendRError_refused env _⟩
      · exact .inl ((hmove _ _).trans (completeResponse_carries env _))
      · exact .inl (hmove _ _)
      · exact .inl (.refl c)
    · exact .inl (.refl c)

lemma startTransfer_oneBody (env : Env) (h : (c.startTransfer env).1.Concerned) : c.OneBody := by
  obtain hcar | ⟨d, hd⟩ := startTransfer_carries env c
  · exact hcar.oneBody h.body
  · exact absurd h (Refused.not_concerned hd)

/-- The header of a whole file. -/
lemma sendRRequestOk_due (env : Env) (hb : c.toOut.BufOk) (hs : ¬ .done < c.status) (h0 : c.bufferEnd = 0)
    (hmute : Mute c.trace) (hv : c.httpVersion ≠ .http09)
    (hcgi : c.cgiType = .none) : ∃ o, c.sendRRequestOk env = { c with toOut := o, responseStatus := 200 } ∧
      o.status = c.status ∧ Due c.filesize o.trace := by
  let d : Request := { c with responseStatus := 200 }
  have hroom := (head_room env d ⟨0, 0⟩ h0).1
  have hwrote := Out.writes_wrote hb hs (okHead_plain env d) hroom
  refine ⟨_, sendRRequestOk_okHead env hv hcgi, hwrote.status, ?_⟩
  exact Due.writes hb hs hmute.silent (okHead_plain env d) hroom (announced_okHead env d)

/-- The header of one part of a file. -/
lemma sendRPartialContent_due (env : Env) (hb : c.toOut.BufOk) (hs : ¬ .done < c.status) (h0 : c.bufferEnd = 0)
    (hmute : Mute c.trace) (hone : c.numranges ≤ 1) (r : Range) :
    ∃ o, c.sendRPartialContent env r = { c with toOut := o, responseStatus := 206 } ∧ o.status = c.status ∧
      Due r.bytes o.trace := by
  let d : Request := { c with responseStatus := 206 }
  have hroom := (head_room env d r h0).2
  have hwrote := Out.writes_wrote hb hs (partialHead_plain env d r) hroom
  refine ⟨_, rfl, hwrote.status, ?_⟩
  exact Due.writes hb hs hmute.silent (partialHead_plain env d r) hroom (announced_partialHead (c := d) env hone r)

/-- The file is mapped, or its descriptor is kept, and nothing was announced or sent yet. -/
structure AtHand (c : Request) : Prop extends Out.BufOk c.toOut where
  copies : c.status.copies
  empty : c.bufferEnd = 0
  mute : Mute c.trace
  counted : c.Counted
  noCgi : c.cgiType = .none
  sober : c.httpVersion = .http09 → c.keepalive ≠ .active
  fd : c.status = .ioShuffle → c.dataFd ≠ 0
  within : ∀ r ∈ c.ranges, r.start ≤ r.stop ∧ r.stop < c.filesize
  filesize : c.filesize < 2 ^ 63
  way : (c.status = .write ∧ ∃ mem, c.dataMem = some mem ∧ mem.length = c.filesize ∧ c.filesize ≤ maxFileMmap) ∨
    (c.status = .ioShuffle ∧ c.dataMem = none)

lemma attachData_atHand (env : Env) (h : c.Asked) {f : File} (hsize : c.filesize = f.size)
    (hr : ∀ r ∈ c.ranges, r.start ≤ r.stop ∧ r.stop < c.filesize) : (c.attachData env f).AtHand := by
  have hlt : c.filesize < 2 ^ 63 := hsize ▸ f.size_lt
  have hok := h.toBufOk
  unfold attachData
  split_ifs with hbig
  · have hfd := f.fd_gt
    exact ⟨⟨hok.start_le, hok.end_le, hok.size⟩, .inr rfl, h.empty, h.mute, h.counted, h.noCgi, h.sober,
      fun _ => by show f.fd ≠ 0; omega, hr, hlt, .inr ⟨rfl, h.unmapped⟩⟩
  · have hwrite : c.status ≠ .ioShuffle := by
      rw [h.status]
      decide
    refine ⟨⟨hok.start_le, hok.end_le, hok.size⟩, .inl h.status, h.empty, ?_, h.counted, h.noCgi, h.sober,
      fun hs => absurd hs hwrite, hr, hlt, .inl ⟨h.status, f.data, rfl, hsize.symm, ?_⟩⟩
    · exact h.mute.snoc rfl
    · exact not_lt.mp fun hlt => hbig (.inl hlt)

/-- The ranges that `ranges_fixup` leaves are no more than were counted. -/
lemma Asked.fixed (h : c.Asked) {n : ℕ} (hn : n ≠ 0) :
    ({ c with ranges := fixupRanges n c.ranges } : Request).Asked := by
  have hle : (fixupRanges n c.ranges).length ≤ c.ranges.length := by
    unfold fixupRanges
    rw [if_neg hn]
    exact List.length_filterMap_le _ _
  exact ⟨⟨h.start_le, h.end_le, h.size⟩, ⟨h.mute, hle.trans h.counted, h.unmapped, h.unset⟩, h.status, h.empty, h.noCgi,
    h.sober⟩

lemma AtHand.live (h : c.AtHand) : ¬ .done < c.status := by
  obtain hs | hs := h.copies <;> rw [hs] <;> decide

/-- The choice between the whole file and a part of it. -/
lemma respond_frames (env : Env) (h : c.AtHand) {f : File} (hpos : f.size ≠ 0) (hsize : c.filesize = f.size) :
    Frames (c.respond env) := by
  have hcounted : c.ranges.length ≤ c.numranges := h.counted
  rw [respond_eq hpos hsize]
  refine .of_concerned fun hc => ?_
  have hone := startTransfer_oneBody env hc
  cases hrs : c.ranges with
  | cons r rest =>
    simp only [hrs] at hone hc ⊢
    obtain ⟨hle, hstop⟩ := h.within r (by simp [hrs])
    have hnum : c.numranges ≤ 1 := by
      obtain h200 | ⟨-, hnum⟩ := hone.2
      · cases h200
      · exact hnum
    have hrest : rest = [] := by
      rw [hrs, List.length_cons] at hcounted
      exact List.length_eq_zero_iff.mp (by omega)
    obtain ⟨o, ho, hst, hdue⟩ := sendRPartialContent_due env h.toBufOk h.live h.empty h.mute hnum r
    rw [bytes_eq hle (hstop.trans h.filesize)] at hdue
    rw [ho] at hone ⊢
    refine startTransfer_frames (r := r) env ⟨⟨?_, ?_, hdue, ?_⟩, hone, hle, hstop, h.filesize, ?_⟩
    · exact hst ▸ h.copies
    · rw [← hrest]
      exact hrs
    · exact fun hs => h.fd (hst ▸ hs)
    · exact hst ▸ h.way
  | nil =>
    simp only [hrs] at hone hc ⊢
    let r : Range := ⟨0, f.size - 1⟩
    let d : Request := { c with ranges := [r] }
    have hsame : (d.sendRRequestOk env).keepalive = c.keepalive := by
      unfold sendRRequestOk
      dsimp only
      split_ifs <;> rfl
    have halive : c.keepalive = .active := by
      obtain hcar | ⟨e, he⟩ := startTransfer_carries env (d.sendRRequestOk env)
      · rw [← hsame, ← hcar.fields.2.1]
        exact hc.alive
      · exact absurd hc (Refused.not_concerned he)
    have hv : c.httpVersion ≠ .http09 := fun hv => h.sober hv halive
    obtain ⟨o, ho, hst, hdue⟩ := sendRRequestOk_due (c := d) env h.toBufOk h.live h.empty h.mute hv h.noCgi
    have hend : r.stop + 1 - r.start = d.filesize := by
      show f.size - 1 + 1 - 0 = c.filesize
      omega
    rw [← hend] at hdue
    rw [ho] at hone ⊢
    refine startTransfer_frames (r := r) env ⟨⟨?_, rfl, hdue, ?_⟩, hone, Nat.zero_le _, ?_, h.filesize, ?_⟩
    · exact hst ▸ h.copies
    · exact fun hs => h.fd (hst ▸ hs)
    · show f.size - 1 < c.filesize
      omega
    · exact hst ▸ h.way

/-- A file that is there to be served. -/
lemma serveRegular_frames (env : Env) (h : c.Asked) (f : File) : Frames (c.serveRegular env f) := by
  have hclosed (e : Request) (he : ¬ e.Concerned) : Frames (e.log (.closed f.fd), .done) :=
    .of_not fun hc => he ((Carries.log e rfl).concerned hc)
  have hsize : ({ c with filesize := f.size, lastModified := f.mtime } : Request).Asked :=
    h.with_trace (.refl _) rfl rfl
  unfold serveRegular
  split_ifs with hnot
  · exact hclosed _ (Refused.not_concerned (sendRNotModified_refused env c))
  · dsimp only
    split_ifs with hzero hversion hranges
    · refine hclosed _ fun hc => ?_
      have hcode :
          ({ c with filesize := f.size, lastModified := f.mtime }.sendRNoContent env).responseStatus = 204 := by
        unfold sendRNoContent
        dsimp only
        split_ifs <;> rfl
      obtain h200 | ⟨h206, -⟩ := hc.body.2
      · rw [hcode] at h200
        cases h200
      · rw [hcode] at h206
        cases h206
    · refine .of_concerned fun hc => ?_
      have hsame :
          ({ c with filesize := f.size, lastModified := f.mtime }.sendRRequestOk env).keepalive = c.keepalive := by
        unfold sendRRequestOk
        dsimp only
        split_ifs <;> rfl
      have hv : c.httpVersion ≠ .http09 := fun hv => h.sober hv (hsame ▸ hc.alive)
      obtain ⟨o, ho, -, hdue⟩ := sendRRequestOk_due env hsize.toBufOk hsize.not_done hsize.empty hsize.mute hv
        hsize.noCgi
      rw [ho]
      refine .of_due (Due.adds ?_ (.snoc ⟨rfl, rfl⟩))
      rwa [show f.size = 0 from hzero] at hdue
    · unfold rangesFixup
      dsimp only
      split_ifs
      · exact hclosed _ (Refused.not_concerned (sendRInvalidRange_refused env _))
      · exact respond_frames env (attachData_atHand env (hsize.fixed hzero) rfl fixupRanges_within) hzero
          (attachData_fields env _ f).2
    · have hnil : c.ranges = [] := not_not.mp hranges
      exact respond_frames env (attachData_atHand env hsize rfl (by simp [hnil])) hzero (attachData_fields env _ f).2

lemma serveFile_frames (env : Env) (h : c.Asked) (f : File) (path : Bytes) : Frames (c.serveFile env f path) := by
  unfold serveFile
  split_ifs
  · exact .of_not fun hc => Refused.not_concerned (sendRBadRequest_refused env c) ((Carries.log _ rfl).concerned hc)
  · exact serveRegular_frames env (h.noted (.log c (.serve path) rfl)) f

/-- Whatever becomes of a header, the length that was announced is kept to. -/
lemma Outcome.frames {p : Request × Ret} (h : Outcome env p) : Frames p := by
  have hclear {d : Request} {ret : Ret} (hd : Clear d) : Frames (d, ret) := .of_not fun hc => hd.not_fromFile hc.file
  cases h with
  | reads hr hd hin hbody hlow => exact hclear hd
  | quits hd hwhy => exact hclear hd
  | fails hd hends => exact hclear hd
  | closing hd hp => exact .of_stopped hp.stopped
  | file hd f path => exact serveFile_frames env hd f path
  | gunzip hd gz hm => exact .of_stopped (initCgi_closing env _).stopped
  | gunzipHead hd hm =>
    refine .of_not fun hc => ?_
    have hget := hc.body.1
    rw [gunzipHeader_method, hm] at hget
    cases hget

end Request
end Boa
