import Boa.Access
import Boa.InFile

/-! The bytes that are counted while a request is answered, against the bytes of the body. -/
namespace Boa
open Memory History

/-- The body bytes that an event puts into the buffer or hands to the socket. -/
def Event.bodySize : Event → ℕ
  | .data bs => bs.length
  | _ => 0

/-- The number of body bytes of a response. -/
def bodySize (t : List Event) : ℕ := total Event.bodySize t

/-- The choice of a file, and the call of `log_access`. -/
def Event.isMark : Event → Bool
  | .serve _ | .gunzip | .logged _ _ => true
  | _ => false

/-- Neither a mark nor a part of the body. -/
def Event.plain (e : Event) : Prop := e.isMark = false ∧ e.bodySize = 0

/-- No file was chosen, and `log_access` was not called. -/
def Unmarked (c d : Request) : Prop := d.trace.filter Event.isMark = c.trace.filter Event.isMark

/-- The counter went up with the body. -/
structure Books (c d : Request) : Prop where
  marks : Unmarked c d
  tally : KeepsUp Event.bodySize c.bytesWritten c.trace d.bytesWritten d.trace
  piped : d.status.piped → c.status.piped

variable {env : Env} {c d e : Request}

lemma Event.plain_of_reply {ka : Bool → Prop} {len : ℕ → Prop} {e : Event} (h : Out.Reply ka len e) :
    e.plain := by
  cases e <;> first | exact ⟨rfl, rfl⟩ | exact h.elim

lemma Unmarked.trans (h : Unmarked c d) (h' : Unmarked d e) : Unmarked c e := Eq.trans h' h

lemma Unmarked.of_eq (h : d.trace = c.trace) : Unmarked c d := congrArg (List.filter Event.isMark) h

lemma Unmarked.of_adds (h : Adds (fun e => e.isMark = false) c.trace d.trace) : Unmarked c d :=
  h.filter_eq fun _ he => he

namespace Books

lemma refl (c : Request) : Books c c := ⟨rfl, .refl _ _ _, id⟩

lemma trans (h : Books c d) (h' : Books d e) : Books c e :=
  ⟨h.marks.trans h'.marks, h.tally.trans h'.tally, fun hp => h.piped (h'.piped hp)⟩

/-- A routine that counts what it adds to the body. -/
lemma of_append (es : List Event) (ht : d.trace = c.trace ++ es) (hm : ∀ e ∈ es, e.isMark = false)
    (hb : d.bytesWritten = c.bytesWritten + total Event.bodySize es)
    (hs : d.status.piped → c.status.piped) : Books c d := by
  refine ⟨?_, ?_, hs⟩
  · have hnil : es.filter Event.isMark = [] := by simpa using hm
    simp [Unmarked, ht, hnil]
  · rw [ht, hb]
    exact .append _ _ _ _

lemma of_adds (h : Adds Event.plain c.trace d.trace) (hb : d.bytesWritten = c.bytesWritten)
    (hs : d.status.piped → c.status.piped) : Books c d := by
  obtain ⟨es, ht, hes⟩ := h
  have hzero : total Event.bodySize es = 0 := total_eq_zero fun e he => (hes e he).2
  refine .of_append es ht (fun e he => (hes e he).1) ?_ hs
  rw [hb, hzero, Nat.add_zero]

/-- A routine that neither sends nor counts. -/
lemma of_eq (ht : d.trace = c.trace) (hb : d.bytesWritten = c.bytesWritten)
    (hs : d.status.piped → c.status.piped) : Books c d := by
  refine .of_append [] ?_ (by simp) hb hs
  rw [ht, List.append_nil]

lemma log (c : Request) {e : Event} (he : e.plain) : Books c (c.log e) :=
  .of_adds (.snoc he) rfl id

lemma setStatus (c : Request) {s : Status} (hs : ¬ s.piped) : Books c { c with status := s } :=
  .of_eq rfl rfl fun hp => absurd hp hs

lemma replies {ka : Bool → Prop} {len : ℕ → Prop} {o : Out} (h : Out.Replies ka len c.toOut o) :
    Books c { c with toOut := o } := by
  refine .of_adds (h.adds.mono fun e he => Event.plain_of_reply he) rfl fun hp => ?_
  have hp : o.status.piped := hp
  obtain hs | hs := h.status
  · rwa [hs] at hp
  · rw [hs] at hp
    exact absurd hp (by decide)

end Books

/-- The counter against the body, when `n` bytes are added to the body that are not counted, and
`m` bytes are counted that are not added to the body. -/
structure Drifts (n m : ℕ) (c d : Request) : Prop where
  marks : Unmarked c d
  tally : d.bytesWritten + bodySize c.trace + n = c.bytesWritten + bodySize d.trace + m
  piped : d.status.piped → c.status.piped

namespace Drifts

variable {n m : ℕ}

lemma of_books (h : Books c d) : Drifts 0 0 c d := ⟨h.marks, h.tally, h.piped⟩

lemma ahead (h : Books c d) (h' : Drifts n m d e) : Drifts n m c e := by
  refine ⟨h.marks.trans h'.marks, ?_, fun hp => h.piped (h'.piped hp)⟩
  have hbooks : d.bytesWritten + bodySize c.trace = c.bytesWritten + bodySize d.trace := h.tally
  have htally := h'.tally
  omega

lemma behind (h : Drifts n m c d) (h' : Books d e) : Drifts n m c e := by
  refine ⟨h.marks.trans h'.marks, ?_, fun hp => h.piped (h'.piped hp)⟩
  have hbooks : e.bytesWritten + bodySize d.trace = d.bytesWritten + bodySize e.trace := h'.tally
  have htally := h.tally
  omega

/-- A chunk goes into the buffer, and is not counted. -/
lemma uncounted {bs : Bytes} (h : Drifts 0 m d e) (ht : d.trace = c.trace ++ [.data bs])
    (hb : d.bytesWritten = c.bytesWritten) (hs : d.status = c.status) : Drifts bs.length m c e := by
  refine ⟨Unmarked.trans ?_ h.marks, ?_, fun hp => ?_⟩
  · simp [Unmarked, ht, Event.isMark]
  · have hsize : bodySize d.trace = bodySize c.trace + bs.length := by
      simp [bodySize, ht, total, Event.bodySize]
    have htally := h.tally
    omega
  · rw [← hs]
    exact h.piped hp

/-- From a right count to a right count. -/
lemma right_iff (h : Drifts n m c d) (hc : c.bytesWritten = bodySize c.trace) :
    d.bytesWritten = bodySize d.trace ↔ m = n := by
  have htally := h.tally
  omega

end Drifts

lemma Refused.books (h : Refused c d) : Books c d := by
  obtain ⟨o, code, rfl, -, hr⟩ := h
  have hout : Books c { c with toOut := o } := .replies hr
  exact ⟨hout.marks, hout.tally, hout.piped⟩

namespace Request

/-! ### Answers -/

lemma writes_books (c : Request) (ms : List Msg) : Books c (c.writes ms) :=
  have h : Out.Replies (fun _ => True) (fun _ => True) c.toOut (c.toOut.writes ms) :=
    Out.writes_replies c.toOut ms (fun _ _ => trivial) fun _ _ => trivial
  .replies h

lemma reqFlush_books (c : Request) : Books c c.reqFlush :=
  have h : Out.Replies (fun _ => True) (fun _ => True) c.toOut c.toOut.reqFlush.1 := Out.reqFlush_replies c.toOut
  .replies h

lemma completeResponse_books (env : Env) (c : Request) : Books c (c.completeResponse env).1 := by
  have hdone : ¬ Status.done.piped := by decide
  unfold completeResponse
  split
  · exact .log c ⟨rfl, rfl⟩
  · next rest _ =>
    have hrest : Books c { c with ranges := rest } := .of_eq rfl rfl id
    dsimp only
    split_ifs
    · cases rest with
      | nil => exact ((hrest.trans (writes_books _ _)).trans (.setStatus _ hdone)).trans (reqFlush_books _)
      | cons r rest => exact hrest.trans (writes_books _ _)
    · exact hrest.trans (.setStatus _ hdone)

lemma sendRRequestOk_books (env : Env) (c : Request) : Books c (c.sendRRequestOk env) := by
  have hstatus : Books c { c with responseStatus := 200 } := .of_eq rfl rfl id
  unfold sendRRequestOk
  dsimp only
  split_ifs
  · exact hstatus
  all_goals exact hstatus.trans (writes_books _ _)

lemma sendRNoContent_books (env : Env) (c : Request) : Books c (c.sendRNoContent env) := by
  have hstatus : Books c { c with responseStatus := 204 } := .of_eq rfl rfl id
  unfold sendRNoContent
  dsimp only
  split_ifs
  · exact hstatus
  all_goals exact hstatus.trans (writes_books _ _)

lemma sendRPartialContent_books (env : Env) (c : Request) (r : Range) :
    Books c (c.sendRPartialContent env r) := by
  have hstatus : Books c { c with responseStatus := 206 } := .of_eq rfl rfl id
  exact hstatus.trans (writes_books _ _)

lemma rangesFixup_books (env : Env) (c : Request) : Books c (c.rangesFixup env).1 := by
  have hranges : Books c { c with ranges := fixupRanges c.filesize c.ranges } := .of_eq rfl rfl id
  unfold rangesFixup
  dsimp only
  split_ifs
  · exact hranges.trans (sendRInvalidRange_refused env _).books
  · exact hranges

lemma streamHeader_books (env : Env) (c : Request) (line : String) (tail : List Msg) :
    Books c (c.streamHeader env line tail) := by
  unfold streamHeader
  split_ifs
  · exact .refl c
  · exact (writes_books _ _).trans (reqFlush_books _)

/-! ### Transfers -/

/-- A chunk goes past the buffer, and is counted. -/
lemma sendDirect_books (c : Request) (bs : Bytes) (r : Range) (rest : List Range) :
    Books c ((c.sendDirect bs).moveRange r rest bs.length) := by
  refine .of_append [.data bs, .sent bs] ?_ (by simp [Event.isMark]) ?_ id
  · simp [sendDirect, moveRange, Request.log]
  · simp [sendDirect, moveRange, Request.log, total, Event.bodySize]

/-- A chunk goes into the buffer, and is counted. -/
lemma bufferData_books (c : Request) (bs : Bytes) (r : Range) (rest : List Range) :
    Books c ((c.bufferData bs).moveRange r rest bs.length) := by
  refine .of_append [.data bs] rfl (by simp [Event.isMark]) ?_ id
  simp [bufferData, moveRange, total, Event.bodySize]

lemma popSock_books (c : Request) : Books c c.popSock := .of_eq rfl rfl id

/-- A part of a range of the mapped file. -/
lemma length_slice_mem {mem : Bytes} {r : Range} {n : ℕ} (hle : r.start ≤ r.stop) (hlt : r.stop < mem.length)
    (hsize : mem.length < 2 ^ 63) (hn : n ≤ r.bytes) : (slice mem r.start (r.start + n)).length = n := by
  rw [bytes_eq hle (hlt.trans hsize)] at hn
  rw [length_slice (by omega)]
  omega

/-- `process_get`. -/
lemma processGet_books (env : Env) (h : c.InFile) (hs : c.status = .write) : Books c (c.processGet env).1 := by
  have hdead : ¬ Status.dead.piped := by decide
  have hpop : Books c c.popSock := popSock_books c
  unfold processGet
  split
  · exact completeResponse_books env c
  · split
    · exact .log c ⟨rfl, rfl⟩
    · next r rest hr =>
      obtain ⟨hwithin, hsize, hmapped⟩ := (h (.inl hs)).2
      obtain ⟨mem, hmem, hlen⟩ := hmapped hs
      obtain ⟨hle, hlt⟩ := hwithin r (by simp [hr])
      dsimp only
      split_ifs
      · exact (Books.log c ⟨rfl, rfl⟩).trans (.setStatus _ hdead)
      · split
        · exact hpop
        · exact hpop.trans (.setStatus _ hdead)
        · exact hpop.trans (.setStatus _ hdead)
        · next n _ =>
          generalize hk : min n (min r.bytes env.systemBufsize) = k
          have hchunk : (slice (c.dataMem.getD []) r.start (r.start + k)).length = k := by
            rw [hmem]
            exact length_slice_mem hle (hlen ▸ hlt) (hlen ▸ hsize) (by omega)
          have hmove := hpop.trans (sendDirect_books c.popSock
            (slice (c.dataMem.getD []) r.start (r.start + k)) r rest)
          rw [hchunk] at hmove
          split_ifs
          · exact hmove.trans (completeResponse_books env _)
          · exact hmove

lemma sentRange_books (env : Env) (c : Request) : Books c (c.sentRange env).1 := by
  unfold sentRange
  split
  · exact .log c ⟨rfl, rfl⟩
  · split_ifs
    · exact completeResponse_books env c
    · exact .refl c

/-! ### io_shuffle -/

/-- What `read` answers in `io_shuffle`, if it is called; a failing `lseek` ends the routine alike. -/
def shuffleAnswer (env : Env) (c : Request) : Option ReadRes :=
  match c.ranges with
  | [] => none
  | r :: _ =>
    let toRead := min (bufferSize - c.bufferEnd - 256) r.bytes
    if 0 < toRead ∧ c.dataFd ≠ 0 then
      if env.lseekOk then some (c.restartRead.nextFile toRead) else some .err
    else none

/-- The bytes that `write` takes of `toWrite`. -/
def writeTakes (c : Request) (toWrite : ℕ) : ℕ :=
  match c.restartWrite.nextWrite with
  | .wrote n => min n toWrite
  | _ => 0

/-- The bytes that `io_shuffle` reads into the buffer. -/
def shuffleIn (env : Env) (c : Request) : ℕ :=
  match c.shuffleAnswer env with
  | some (.data bs) => bs.length
  | _ => 0

/-- The bytes that the `write` of `io_shuffle` takes; it is not called behind a failure or behind
the last byte of the range. -/
def shuffleOut (env : Env) (c : Request) : ℕ :=
  match c.ranges with
  | [] => 0
  | r :: _ =>
    match c.shuffleAnswer env with
    | some .err => 0
    | some (.data bs) =>
      if r.stop + 1 = r.start + bs.length then 0
      else c.writeTakes (c.bufferEnd + bs.length - c.bufferStart)
    | _ => c.writeTakes (c.bufferEnd - c.bufferStart)

@[simp] lemma writeTakes_zero (c : Request) : c.writeTakes 0 = 0 := by
  unfold writeTakes
  split <;> simp

lemma writeTakes_congr (hs : d.sock = c.sock) (n : ℕ) : d.writeTakes n = c.writeTakes n := by
  simp [writeTakes, restartWrite, Out.nextWrite, hs]

lemma shuffleWrite_drifts (c : Request) :
    Drifts 0 (c.writeTakes (c.bufferEnd - c.bufferStart)) c c.shuffleWrite.1 := by
  have hdead : ¬ Status.dead.piped := by decide
  unfold shuffleWrite
  dsimp only
  split_ifs with hzero hfd
  · rw [hzero, writeTakes_zero]
    exact .of_books (.refl c)
  · rw [hzero, writeTakes_zero]
    exact .of_books (.of_eq rfl rfl id)
  · have hpop : Books c c.restartWrite.popSock := .of_eq rfl rfl id
    unfold writeTakes
    cases c.restartWrite.nextWrite with
    | again => exact .of_books hpop
    | intr => exact .of_books hpop
    | err => exact .of_books (hpop.trans (.setStatus _ hdead))
    | wrote n =>
      have hsent (bs : Bytes) (k : ℕ) : Drifts 0 k c { c.restartWrite.popSock.log (.sent bs) with
          bufferStart := c.bufferStart + k, bytesWritten := c.bytesWritten + k } := by
        refine ⟨Unmarked.of_adds (.snoc rfl), ?_, id⟩
        simp [bodySize, total, Request.log, restartWrite, popSock, Event.bodySize]
        omega
      dsimp only
      split_ifs
      · exact (hsent _ _).behind (.of_eq rfl rfl id)
      · exact hsent _ _

/-- What `io_shuffle` reads is body that is not counted, and what it writes is counted, body or not. -/
lemma ioShuffle_drifts (env : Env) (hm : c.method ≠ .head) :
    Drifts (c.shuffleIn env) (c.shuffleOut env) c (c.ioShuffle env).1 := by
  have hdead : ¬ Status.dead.piped := by decide
  have hwrite (d : Request) (ht : d.sock = c.sock) (he : d.bufferEnd = c.bufferEnd)
      (hs : d.bufferStart = c.bufferStart) (hb : Books c d) :
      Drifts 0 (c.writeTakes (c.bufferEnd - c.bufferStart)) c d.shuffleWrite.1 := by
    have hdrifts := shuffleWrite_drifts d
    rw [he, hs, writeTakes_congr ht] at hdrifts
    exact hdrifts.ahead hb
  unfold ioShuffle shuffleIn shuffleOut shuffleAnswer
  rw [if_neg hm]
  cases hr : c.ranges with
  | nil => exact .of_books (.log c ⟨rfl, rfl⟩)
  | cons r rest =>
    dsimp only
    generalize min (bufferSize - c.bufferEnd - 256) r.bytes = toRead
    by_cases hread : 0 < toRead ∧ c.dataFd ≠ 0
    · simp only [if_pos hread]
      unfold shuffleRead
      by_cases hseek : env.lseekOk = true
      · simp only [hseek, Bool.not_true, Bool.false_eq_true, if_false, if_true]
        have hpop : Books c c.restartRead.popFile := .of_eq rfl rfl id
        have hidle : Drifts 0 (c.writeTakes (c.bufferEnd - c.bufferStart)) c
            (if c.restartRead.bufferEnd - c.restartRead.bufferStart = 0 then (c.restartRead.popFile, Ret.blocked)
              else c.restartRead.popFile.shuffleWrite).1 := by
          split_ifs with hzero
          · have hzero : c.bufferEnd - c.bufferStart = 0 := hzero
            rw [hzero, writeTakes_zero]
            exact .of_books hpop
          · exact hwrite _ rfl rfl rfl hpop
        cases c.restartRead.nextFile toRead with
        | again => exact hidle
        | intr => exact hidle
        | err => exact .of_books ((hpop.trans (.log _ ⟨rfl, rfl⟩)).trans (.setStatus _ hdead))
        | eof =>
          have hclose : Books c { (c.restartRead.popFile.log .fileEof).log (.closed c.restartRead.dataFd) with
              dataFd := 0 } :=
            ((hpop.trans (.log _ ⟨rfl, rfl⟩)).trans (.log _ ⟨rfl, rfl⟩)).trans (.of_eq rfl rfl id)
          exact hwrite _ rfl rfl rfl hclose
        | data bs =>
          dsimp only
          have hlast (d : Request) (ht : d.trace = c.trace ++ [.data bs]) (hb : d.bytesWritten = c.bytesWritten)
              (hs : d.status = c.status) : Drifts bs.length 0 c (d.completeResponse env).1 :=
            have hbooks : Drifts 0 0 d (d.completeResponse env).1 := .of_books (completeResponse_books env d)
            hbooks.uncounted ht hb hs
          have hmore (d : Request) (ht : d.trace = c.trace ++ [.data bs]) (hb : d.bytesWritten = c.bytesWritten)
              (hs : d.status = c.status) (hsock : d.sock = c.sock) (hend : d.bufferEnd = c.bufferEnd + bs.length)
              (hstart : d.bufferStart = c.bufferStart) :
              Drifts bs.length (c.writeTakes (c.bufferEnd + bs.length - c.bufferStart)) c d.shuffleWrite.1 := by
            have hdrifts := shuffleWrite_drifts d
            rw [hend, hstart, writeTakes_congr hsock] at hdrifts
            exact hdrifts.uncounted ht hb hs
          split_ifs
          · exact hlast _ rfl rfl rfl
          · exact hmore _ rfl rfl rfl rfl rfl rfl
      · simp only [hseek]
        exact .of_books ((Books.log c ⟨rfl, rfl⟩).trans (.setStatus _ hdead))
    · simp only [if_neg hread]
      exact shuffleWrite_drifts c

/-- A right count stays right exactly when `write` takes as many bytes as `read` put into the buffer. -/
theorem ioShuffle_right_iff (env : Env) (hm : c.method ≠ .head) (hc : c.bytesWritten = bodySize c.trace) :
    (c.ioShuffle env).1.bytesWritten = bodySize (c.ioShuffle env).1.trace ↔ c.shuffleOut env = c.shuffleIn env :=
  (ioShuffle_drifts env hm).right_iff hc

/-- The chunk that ends a range is never counted. -/
theorem ioShuffle_last_short (env : Env) (hm : c.method ≠ .head) (hc : c.bytesWritten = bodySize c.trace)
    {r : Range} {rest : List Range} (hr : c.ranges = r :: rest) {bs : Bytes} (hne : bs ≠ [])
    (hread : c.shuffleAnswer env = some (.data bs)) (hlast : r.stop + 1 = r.start + bs.length) :
    (c.ioShuffle env).1.bytesWritten < bodySize (c.ioShuffle env).1.trace := by
  have hdrifts := (ioShuffle_drifts env hm).tally
  have hin : c.shuffleIn env = bs.length := by simp [shuffleIn, hread]
  have hout : c.shuffleOut env = 0 := by simp [shuffleOut, hr, hread, hlast]
  have hpos : 0 < bs.length := List.length_pos_iff.mpr hne
  omega

/-! ### sendfile -/

lemma nextSend_nosys {m n : ℕ} (h : c.nextSend m = .nosys) : c.nextSend n = .nosys := by
  unfold nextSend at h ⊢
  split at h
  · cases h
  · rw [h]

/-- `io_shuffle_sendfile`, unless it calls `io_shuffle`. -/
lemma ioShuffleSendfile_books (env : Env) (h : c.InFile) (hs : c.status = .ioShuffle)
    (hsend : c.method ≠ .head → c.nextSend env.systemBufsize ≠ .nosys) :
    Books c (c.ioShuffleSendfile env).1 := by
  have hdead : ¬ Status.dead.piped := by decide
  have hpop : Books c c.popSend := .of_eq rfl rfl id
  unfold ioShuffleSendfile
  split_ifs with hm
  · exact completeResponse_books env c
  · split
    · exact .log c ⟨rfl, rfl⟩
    · next r rest hr =>
      obtain ⟨hwithin, hsize, -⟩ := (h (.inr hs)).2
      obtain ⟨hle, hlt⟩ := hwithin r (by simp [hr])
      dsimp only
      split_ifs
      · exact sentRange_books env c
      · exact .setStatus c hdead
      · split
        · next hno => exact absurd (nextSend_nosys hno) (hsend hm)
        · exact hpop
        · exact hpop
        · exact hpop
        · exact (hpop.trans (.log _ ⟨rfl, rfl⟩)).trans (.setStatus _ hdead)
        · next bs _ hbs =>
          have hlen : bs.length ≤ r.bytes := (nextSend_length hbs).trans (min_le_left _ _)
          rw [bytes_eq hle (hlt.trans hsize)] at hlen
          have hpos : ¬ offNegative (r.start + bs.length) := by
            have hbound : r.start + bs.length < 2 ^ 63 := by omega
            simpa [offNegative] using hbound
          split_ifs
          exact (hpop.trans (sendDirect_books c.popSend bs r rest)).trans (sentRange_books env _)

/-! ### The start of a transfer -/

/-- The ranges lie in the file, and a mapping has all of it. -/
structure Attached (c : Request) : Prop where
  within : ∀ r ∈ c.ranges, r.start ≤ r.stop ∧ r.stop < c.filesize
  mapped : ∀ mem, c.dataMem = some mem → mem.length = c.filesize ∧ c.filesize < 2 ^ 63

lemma Attached.congr (h : c.Attached) (he : (d.ranges, d.filesize, d.dataMem) = (c.ranges, c.filesize, c.dataMem)) :
    d.Attached := by
  simp only [Prod.mk.injEq] at he
  obtain ⟨hr, hf, hm⟩ := he
  constructor
  · rw [hr, hf]
    exact h.within
  · rw [hm, hf]
    exact h.mapped

lemma attachData_books (env : Env) (c : Request) (f : File) : Books c (c.attachData env f) := by
  have hshuffle : ¬ Status.ioShuffle.piped := by decide
  unfold attachData
  split_ifs
  · exact .of_eq rfl rfl fun hp => absurd hp hshuffle
  · exact .of_adds (.snoc ⟨rfl, rfl⟩) rfl id

lemma attachData_attached (hmem : c.dataMem = none) {f : File} (hsize : c.filesize = f.size)
    (h : ∀ r ∈ c.ranges, r.start ≤ r.stop ∧ r.stop < c.filesize) : (c.attachData env f).Attached := by
  unfold attachData
  split_ifs
  · exact ⟨h, by simp [hmem]⟩
  · refine ⟨h, fun mem hm => ?_⟩
    cases hm
    exact ⟨hsize.symm, hsize ▸ f.size_lt⟩

lemma withdraw_books (c : Request) : Books c c.withdraw := .of_adds (.snoc ⟨rfl, rfl⟩) rfl id

lemma firstChunk_books (env : Env) (h : c.Attached) : Books c (c.firstChunk env).1 := by
  unfold firstChunk
  split
  · next mem r rest hm hr =>
    obtain ⟨hlen, hsize⟩ := h.mapped mem hm
    obtain ⟨hle, hlt⟩ := h.within r (by simp [hr])
    dsimp only
    generalize hk : min (bufferSize - c.bufferEnd) (r.bytes % 2 ^ 32) = k
    have hbytes : k ≤ r.bytes := hk ▸ (min_le_right _ _).trans (Nat.mod_le _ _)
    have hchunk : (slice mem r.start (r.start + k)).length = k :=
      length_slice_mem hle (hlen ▸ hlt) (hlen ▸ hsize) hbytes
    have hmove := bufferData_books c (slice mem r.start (r.start + k)) r rest
    rw [hchunk] at hmove
    split_ifs
    · exact (withdraw_books c).trans (sendRError_refused env _).books
    · exact hmove.trans (completeResponse_books env _)
    · exact hmove
    · exact .refl c
  · exact .refl c

lemma startTransfer_books (env : Env) (h : c.Attached) : Books c (c.startTransfer env).1 := by
  unfold startTransfer
  split_ifs
  · exact completeResponse_books env c
  · exact firstChunk_books env h

lemma sendRRequestOk_attached (env : Env) (h : c.Attached) : (c.sendRRequestOk env).Attached := by
  unfold sendRRequestOk
  dsimp only
  split_ifs <;> exact h.congr rfl

lemma respond_books (env : Env) (h : c.Attached) : Books c (c.respond env).1 := by
  unfold respond
  split
  · next r rest hr =>
    have hpartial : (c.sendRPartialContent env r).Attached := h.congr rfl
    exact (sendRPartialContent_books env c r).trans (startTransfer_books env hpartial)
  · have hall : Books c { c with ranges := [⟨0, ulongMax⟩] } := .of_eq rfl rfl id
    have hfixup := hall.trans (rangesFixup_books env _)
    revert hfixup
    unfold rangesFixup
    dsimp only
    split_ifs
    · exact id
    · intro hfixup
      have hranges : Attached { c with ranges := fixupRanges c.filesize [⟨0, ulongMax⟩] } :=
        ⟨fixupRanges_within, h.mapped⟩
      exact (hfixup.trans (sendRRequestOk_books env _)).trans
        (startTransfer_books env (sendRRequestOk_attached env hranges))

lemma serveRegular_books (env : Env) (hmem : c.dataMem = none) (f : File) :
    Books c (c.serveRegular env f).1 := by
  have hclose (d : Request) : Books d (d.log (.closed f.fd)) := .log d ⟨rfl, rfl⟩
  have hsize : Books c { c with filesize := f.size, lastModified := f.mtime } := .of_eq rfl rfl id
  unfold serveRegular
  split_ifs with hnot
  · exact (sendRNotModified_refused env c).books.trans (hclose _)
  · dsimp only
    split_ifs with hzero hversion hranges
    · exact (hsize.trans (sendRNoContent_books env _)).trans (hclose _)
    · exact (hsize.trans (sendRRequestOk_books env _)).trans (hclose _)
    · have hfixup := hsize.trans (rangesFixup_books env _)
      revert hfixup
      unfold rangesFixup
      dsimp only
      split_ifs
      · exact fun hfixup => hfixup.trans (hclose _)
      · intro hfixup
        exact (hfixup.trans (attachData_books env _ f)).trans
          (respond_books env (attachData_attached (by exact hmem) rfl fixupRanges_within))
    · have hnil : c.ranges = [] := not_not.mp hranges
      refine (hsize.trans (attachData_books env _ f)).trans
        (respond_books env (attachData_attached (by exact hmem) rfl ?_))
      simp [hnil]

end Request
end Boa
