import Boa.Delivery

/-! The body of a static file on its three ways to the client: from the mapping next to
the header and then past the buffer, through the buffer, and by sendfile. -/
namespace Boa
open Memory History

/-- The answers still due in a round are short or blocked, and the file from `pos` on is
that of `D`. A kernel without sendfile may say so. -/
structure Smooth (D : Bytes) (pos : ℕ) (c : Request) : Prop where
  sock : ∀ w ∈ c.sock, w = .again ∨ ∃ n, w = .wrote (n + 1)
  file : ∀ r ∈ c.file, r = .again ∨ ∃ n, r = .data (slice D pos (pos + (n + 1)))
  sendfile : ∀ r ∈ c.sendfile, r = .again ∨ r = .nosys ∨ ∃ n, r = .sent (slice D pos (pos + (n + 1)))

/-- A round without errors on an unchanged file. -/
structure Env.Fine (D : Bytes) (env : Env) (c : Request) : Prop where
  answers : Smooth D ((c.ranges.head?.map Range.start).getD 0) (c.arm env)
  sigbus : env.sigbus = false
  lseek : env.lseekOk = true
  bufsize : 0 < env.systemBufsize

/-- The request with its header block in the buffer, for a file that is not empty and was
modified. -/
def Request.headed (env : Env) (c : Request) (f : File) : Request :=
  let c := { c with filesize := f.size, lastModified := f.mtime, ranges := fixupRanges f.size c.ranges }
  let c := c.attachData env f
  match c.ranges with
  | r :: _ => c.sendRPartialContent env r
  | [] => { c with ranges := [⟨0, f.size - 1⟩] }.sendRRequestOk env

/-- A GET of the file `f` that has answered nothing yet, for the whole file or for one range
of it. -/
structure Asks (f : File) (start stop : ℕ) (c : Request) : Prop extends Out.BufOk c.toOut where
  method : c.method = .get
  status : c.status = .write
  empty : c.bufferEnd = 0
  unmapped : c.dataMem = none
  range : (c.ranges = [] ∧ start = 0 ∧ stop + 1 = f.size) ∨
    (c.ranges ≠ [] ∧ fixupRanges f.size c.ranges = [⟨start, stop⟩] ∧ c.numranges = 1)

/-- The rounds of the request from `r₀` on, with the number of those that were not blocked.
A handler that returns 0 is followed by `free_request`, which may keep the request for its
buffer. -/
inductive Rounds (D : Bytes) (r₀ : Request × Ret) : ℕ → Request × Ret → Prop
  | start : Rounds D r₀ 0 r₀
  | serve {n : ℕ} {r : Request × Ret} (h : Rounds D r₀ n r) (hr : r.2 ≠ .done) (env : Env)
      (he : env.Fine D r.1) :
      Rounds D r₀ (n + if (r.1.serveOnce env).2 = .blocked then 0 else 1)
        ((r.1.serveOnce env).1.heedSigterm env, (r.1.serveOnce env).2)
  | free {n : ℕ} {r : Request × Ret} (h : Rounds D r₀ n r) (hr : r.2 = .done) (env : Env)
      (hsock : ∀ w ∈ r.1.sock, w = .again ∨ ∃ n, w = .wrote (n + 1))
      (hf : (r.1.freeRequest env).2 = .ready) : Rounds D r₀ n ((r.1.freeRequest env).1, .more)

section Transfer

variable {D : Bytes} {head : List Event} {start stop k : ℕ} {c : Request} {env : Env}

/-- `k` bytes of the body have been produced. -/
structure Moving (D : Bytes) (head : List Event) (start stop k : ℕ) (c : Request) : Prop extends
    Out.BufOk c.toOut where
  method : c.method ≠ .head
  ranges : c.ranges = [⟨start + k, stop⟩]
  le : start + k ≤ stop
  out : produced c.trace = produced head ++ slice D start (start + k)
  settled : c.bufferEnd ≠ 0 → c.bufferStart < c.bufferEnd
  way : (c.status = .write ∧ c.dataMem = some D) ∨ (c.status = .ioShuffle ∧ c.dataFd ≠ 0)
  single : ¬(c.responseStatus = 206 ∧ 1 < c.numranges)
  calls : c.trace.count .wild = head.count .wild

/-- The whole body has been produced and the range is taken off. -/
structure Finished (D : Bytes) (head : List Event) (start stop : ℕ) (c : Request) : Prop extends
    Out.BufOk c.toOut where
  ranges : c.ranges = []
  status : c.status = .done
  out : produced c.trace = produced head ++ slice D start (stop + 1)
  calls : c.trace.count .wild = head.count .wild

/-- What is left to do: a byte is read and sent, or sent at once. -/
def work (start stop k : ℕ) (c : Request) : ℕ :=
  2 * (stop + 1 - (start + k)) + (c.bufferEnd - c.bufferStart)

/-- A handler has made progress, or it is blocked, or the body is complete. -/
def Advanced (D : Bytes) (head : List Event) (start stop m : ℕ) (r : Request × Ret) : Prop :=
  (r.2 = .done ∧ Finished D head start stop r.1) ∨
    (r.2 ≠ .done ∧ ∃ k, Moving D head start stop k r.1 ∧
      work start stop k r.1 + (if r.2 = .blocked then 0 else 1) ≤ m)

lemma Advanced.mono {m m' : ℕ} {r : Request × Ret} (h : Advanced D head start stop m r)
    (hm : m ≤ m') : Advanced D head start stop m' r := by
  obtain h | ⟨h1, k, h2, h3⟩ := h
  · exact .inl h
  · exact .inr ⟨h1, k, h2, h3.trans hm⟩

lemma Moving.blocked (h : Moving D head start stop k c) :
    Advanced D head start stop (work start stop k c) (c, .blocked) :=
  .inr ⟨nofun, k, h, le_rfl⟩

/-- The next part of the body behind what has been produced. -/
lemma Moving.next_out (h : Moving D head start stop k c) (m : ℕ) :
    produced c.trace ++ slice D (start + k) (start + k + m) = produced head ++ slice D start (start + (k + m)) := by
  rw [h.out, List.append_assoc, slice_append_slice (by omega) (by omega), Nat.add_assoc]

/-- The size of the range in C's arithmetic. -/
lemma Moving.bytes (h : Moving D head start stop k c) (hstop : stop < 2 ^ 63) :
    Range.bytes ⟨start + k, stop⟩ = stop + 1 - (start + k) := by
  have hle := h.le
  unfold Range.bytes
  dsimp only
  omega

/-- `complete_response`, for a response of one part. -/
lemma completeResponse_advanced {r : Range} {m : ℕ} (hok : c.toOut.BufOk) (hr : c.ranges = [r])
    (hone : ¬(c.responseStatus = 206 ∧ 1 < c.numranges))
    (hout : produced c.trace = produced head ++ slice D start (stop + 1))
    (hcalls : c.trace.count .wild = head.count .wild) :
    Advanced D head start stop m (c.completeResponse env) := by
  have he : c.completeResponse env = ({ c with ranges := [], status := .done }, .done) := by
    unfold Request.completeResponse
    rw [hr]
    dsimp only
    rw [if_neg hone]
  rw [he]
  exact .inl ⟨rfl, ⟨hok.start_le, hok.end_le, hok.size⟩, rfl, rfl, hout, hcalls⟩

/-! ### Past the buffer -/

/-- Part of the body goes to the client past the buffer. -/
lemma Moving.sendDirect (h : Moving D head start stop k c) (env : Env) {m : ℕ} (hm : 1 ≤ m)
    (hle : start + k + m ≤ stop + 1) {d : Request}
    (hd : d = (c.sendDirect (slice D (start + k) (start + k + m))).moveRange ⟨start + k, stop⟩ [] m) :
    (start + k + m = stop + 1 →
      Advanced D head start stop (work start stop k c) (d.completeResponse env)) ∧
    (start + k + m ≠ stop + 1 →
      Advanced D head start stop (work start stop k c) (d, .more)) := by
  have hout : produced d.trace = produced head ++ slice D start (start + (k + m)) := by
    rw [← h.next_out m, hd]
    simp only [Request.sendDirect, Request.moveRange, Request.log, produced_snoc, produce]
  have hcalls : d.trace.count .wild = head.count .wild := by
    rw [← h.calls, hd]
    simp [Request.sendDirect, Request.moveRange, Request.log, List.count_append]
  have hok : d.toOut.BufOk := by
    rw [hd]
    exact ⟨h.start_le, h.end_le, h.size⟩
  have hranges : d.ranges = [⟨start + (k + m), stop⟩] := by
    rw [hd, ← Nat.add_assoc]
    rfl
  have hfields : d.method = c.method ∧ d.responseStatus = c.responseStatus ∧ d.numranges = c.numranges ∧
      d.status = c.status ∧ d.dataMem = c.dataMem ∧ d.dataFd = c.dataFd ∧
      d.bufferEnd = c.bufferEnd ∧ d.bufferStart = c.bufferStart := by
    rw [hd]
    exact ⟨rfl, rfl, rfl, rfl, rfl, rfl, rfl, rfl⟩
  obtain ⟨h1, h2, h3, h4, h5, h6, h7, h8⟩ := hfields
  have hone : ¬(d.responseStatus = 206 ∧ 1 < d.numranges) := by
    rw [h2, h3]
    exact h.single
  constructor
  · intro he
    refine completeResponse_advanced hok hranges hone ?_ hcalls
    rw [hout, ← he, Nat.add_assoc]
  · intro hne
    refine .inr ⟨by simp, k + m, ⟨hok, ?_, hranges, by omega, hout, ?_, ?_, hone, hcalls⟩, ?_⟩
    · rw [h1]
      exact h.method
    · rw [h7, h8]
      exact h.settled
    · rw [h4, h5, h6]
      exact h.way
    · simp only [work, h7, h8, reduceCtorEq, if_false]
      omega

/-- `process_get`. -/
lemma processGet_advanced (h : Moving D head start stop k c) (hstop : stop < D.length)
    (hsize : D.length < 2 ^ 63) (hmem : c.status = .write ∧ c.dataMem = some D)
    (hsock : ∀ w ∈ c.sock, w = .again ∨ ∃ n, w = .wrote (n + 1)) (hbus : env.sigbus = false)
    (hbuf : 0 < env.systemBufsize) :
    Advanced D head start stop (work start stop k c) (c.processGet env) := by
  have hle := h.le
  have hpop : Moving D head start stop k c.popSock :=
    ⟨⟨h.start_le, h.end_le, h.size⟩, h.method, h.ranges, h.le, h.out, h.settled, h.way, h.single, h.calls⟩
  unfold Request.processGet
  rw [if_neg h.method, h.ranges]
  dsimp only
  rw [h.bytes (by omega), hbus, if_neg (by decide)]
  by_cases hagain : c.nextWrite = .again
  · rw [hagain]
    exact hpop.blocked
  · obtain hw | ⟨n, hw⟩ := hsock _ (Out.nextWrite_mem hagain)
    · exact absurd hw hagain
    · rw [hw]
      dsimp only
      generalize hm : min (n + 1) (min (stop + 1 - (start + k)) env.systemBufsize) = m
      have hm1 : 1 ≤ m ∧ m ≤ stop + 1 - (start + k) := by omega
      rw [hmem.2, Option.getD_some]
      obtain ⟨h1, h2⟩ := hpop.sendDirect env hm1.1 (by omega) rfl
      split_ifs with he
      · exact h1 he.symm
      · exact h2 fun hc => he hc.symm

/-! ### Through the buffer -/

/-- Nothing is skipped where nothing was interrupted. -/
lemma dropWhile_of_ne {α : Type} [DecidableEq α] {a : α} {l : List α} (h : ∀ x ∈ l, x ≠ a) :
    l.dropWhile (· = a) = l := by
  cases l with
  | nil => rfl
  | cons x l => simp [h x List.mem_cons_self]

/-- The `restartwrite` part of `io_shuffle`, with something in the buffer. -/
lemma shuffleWrite_advanced (h : Moving D head start stop k c) (hpos : c.bufferStart < c.bufferEnd)
    (hsock : ∀ w ∈ c.sock, w = .again ∨ ∃ n, w = .wrote (n + 1)) :
    Advanced D head start stop (work start stop k c) c.shuffleWrite := by
  have hend := h.end_le
  have hpop : Moving D head start stop k c.popSock :=
    ⟨⟨h.start_le, h.end_le, h.size⟩, h.method, h.ranges, h.le, h.out, h.settled, h.way, h.single, h.calls⟩
  have hrestart : c.restartWrite = c := by
    unfold Request.restartWrite
    rw [dropWhile_of_ne fun w hw => ?_]
    obtain rfl | ⟨n, rfl⟩ := hsock w hw <;> exact nofun
  unfold Request.shuffleWrite
  dsimp only
  rw [if_neg (by omega), hrestart]
  by_cases hagain : c.nextWrite = .again
  · rw [hagain]
    exact hpop.blocked
  · obtain hw | ⟨n, hw⟩ := hsock _ (Out.nextWrite_mem hagain)
    · exact absurd hw hagain
    · rw [hw]
      dsimp only
      generalize hm : min (n + 1) (c.bufferEnd - c.bufferStart) = m
      have hm1 : 1 ≤ m ∧ m ≤ c.bufferEnd - c.bufferStart := by omega
      have hout : produced (c.popSock.trace ++ [.sent (slice c.popSock.buffer c.popSock.bufferStart
          (c.popSock.bufferStart + m))]) = produced head ++ slice D start (start + k) := by
        rw [produced_snoc]
        exact h.out
      have hcalls := (count_snoc (t := c.popSock.trace) (e := .wild) (x := .sent (slice c.popSock.buffer
        c.popSock.bufferStart (c.popSock.bufferStart + m))) nofun).trans h.calls
      split_ifs with he
      · refine .inr ⟨nofun, k, ⟨⟨le_rfl, Nat.zero_le _, h.size⟩, h.method, h.ranges, h.le, hout,
          fun h0 => absurd rfl h0, h.way, h.single, hcalls⟩, ?_⟩
        simp only [work, reduceCtorEq, if_false]
        omega
      · refine .inr ⟨nofun, k, ⟨⟨?_, h.end_le, h.size⟩, h.method, h.ranges, h.le, hout, fun _ => ?_, h.way,
          h.single, hcalls⟩, ?_⟩
        · show c.bufferStart + m ≤ c.bufferEnd
          omega
        · show c.bufferStart + m < c.bufferEnd
          omega
        · show 2 * (stop + 1 - (start + k)) + (c.bufferEnd - (c.bufferStart + m)) + 1 ≤ _
          unfold work
          omega

lemma take_slice (m : Bytes) (a n k : ℕ) :
    (slice m a (a + n)).take k = slice m a (a + min k n) := by
  unfold slice
  rw [List.take_take, Nat.add_sub_cancel_left, Nat.add_sub_cancel_left]

lemma slice_ne_nil {m : Bytes} {a n : ℕ} (ha : a < m.length) (hn : 0 < n) : slice m a (a + n) ≠ [] := by
  intro he
  have hlen := congrArg List.length he
  simp only [slice, List.length_take, List.length_drop, List.length_nil] at hlen
  omega

/-- Part of the body goes into the buffer. -/
lemma Moving.bufferData (h : Moving D head start stop k c) (hstop : stop < D.length) (env : Env) {m : ℕ}
    (hm : 1 ≤ m) (hle : start + k + m ≤ stop + 1) (hroom : m ≤ bufferSize - c.bufferEnd) {n : ℕ}
    {d : Request} (hd : d = { c.bufferData (slice D (start + k) (start + k + m)) with
      ranges := [⟨start + k + m, stop⟩], bytesWritten := n }) :
    (start + k + m = stop + 1 →
      Advanced D head start stop (work start stop k c) (d.completeResponse env)) ∧
    (start + k + m ≠ stop + 1 → Moving D head start stop (k + m) d ∧ d.bufferStart < d.bufferEnd ∧
      work start stop (k + m) d + 1 ≤ work start stop k c) := by
  have hlen : (slice D (start + k) (start + k + m)).length = m := by
    rw [length_slice (by omega)]
    omega
  have hout : produced d.trace = produced head ++ slice D start (start + (k + m)) := by
    rw [← h.next_out m, hd]
    simp only [Request.bufferData, Out.append, produced_snoc, produce]
  have hcalls : d.trace.count .wild = head.count .wild := by
    rw [← h.calls, hd]
    exact count_snoc (by simp)
  have hok : d.toOut.BufOk := by
    rw [hd]
    exact Out.append_bufOk h.toBufOk .data (by omega)
  have hranges : d.ranges = [⟨start + (k + m), stop⟩] := by
    rw [hd, ← Nat.add_assoc]
  have hfields : d.method = c.method ∧ d.responseStatus = c.responseStatus ∧ d.numranges = c.numranges ∧
      d.status = c.status ∧ d.dataMem = c.dataMem ∧ d.dataFd = c.dataFd ∧
      d.bufferEnd = c.bufferEnd + m ∧ d.bufferStart = c.bufferStart := by
    rw [hd]
    exact ⟨rfl, rfl, rfl, rfl, rfl, rfl, congrArg (c.bufferEnd + ·) hlen, rfl⟩
  obtain ⟨h1, h2, h3, h4, h5, h6, h7, h8⟩ := hfields
  have hone : ¬(d.responseStatus = 206 ∧ 1 < d.numranges) := by
    rw [h2, h3]
    exact h.single
  have hstart := h.start_le
  constructor
  · intro he
    refine completeResponse_advanced hok hranges hone ?_ hcalls
    rw [hout, ← he, Nat.add_assoc]
  · intro hne
    refine ⟨⟨hok, ?_, hranges, by omega, hout, fun _ => by omega, ?_, hone, hcalls⟩, by omega, ?_⟩
    · rw [h1]
      exact h.method
    · rw [h4, h5, h6]
      exact h.way
    · simp only [work, h7, h8]
      omega

/-- What a read of the file gives. -/
lemma nextFile_cases {pos room : ℕ} (hs : Smooth D pos c) (hpos : pos < D.length) (hroom : 0 < room) :
    c.nextFile room = .again ∨
      ∃ m, 1 ≤ m ∧ m ≤ room ∧ c.nextFile room = .data (slice D pos (pos + m)) := by
  unfold Request.nextFile
  cases hf : c.file with
  | nil => exact .inl rfl
  | cons r rs =>
    obtain rfl | ⟨n, rfl⟩ := hs.file r (by simp [hf])
    · exact .inl rfl
    · refine .inr ⟨min room (n + 1), by omega, by omega, ?_⟩
      simp only [List.head?_cons, Option.getD_some, ReadRes.fit, take_slice]
      rw [if_neg (slice_ne_nil hpos (by omega))]

/-- `io_shuffle`. -/
lemma ioShuffle_advanced (h : Moving D head start stop k c) (hstop : stop < D.length)
    (hsize : D.length < 2 ^ 63) (hfd : c.status = .ioShuffle ∧ c.dataFd ≠ 0)
    (hs : Smooth D (start + k) c) (hseek : env.lseekOk = true) :
    Advanced D head start stop (work start stop k c) (c.ioShuffle env) := by
  have hle := h.le
  have hend := h.end_le
  have hrestart : c.restartRead = c := by
    unfold Request.restartRead
    rw [dropWhile_of_ne fun r hr => ?_]
    obtain rfl | ⟨n, rfl⟩ := hs.file r hr <;> exact nofun
  have hpop : Moving D head start stop k c.popFile :=
    ⟨⟨h.start_le, h.end_le, h.size⟩, h.method, h.ranges, h.le, h.out, h.settled, h.way, h.single, h.calls⟩
  unfold Request.ioShuffle
  rw [if_neg h.method, h.ranges]
  dsimp only
  rw [h.bytes (by omega)]
  generalize hto : min (bufferSize - c.bufferEnd - 256) (stop + 1 - (start + k)) = toRead
  split_ifs with hread
  · unfold Request.shuffleRead
    rw [if_neg (by simp [hseek]), hrestart]
    dsimp only
    obtain hnext | ⟨m, hm1, hm2, hnext⟩ := nextFile_cases hs (by omega) hread.1
    · rw [hnext]
      dsimp only
      split_ifs with hempty
      · exact hpop.blocked
      · exact shuffleWrite_advanced hpop (show c.bufferStart < c.bufferEnd by omega) hs.sock
    · rw [hnext]
      dsimp only
      have hlen : (slice D (start + k) (start + k + m)).length = m := by
        rw [length_slice (by omega)]
        omega
      rw [hlen]
      obtain ⟨h1, h2⟩ := hpop.bufferData hstop env hm1 (by omega)
        (show m ≤ bufferSize - c.bufferEnd by omega) rfl
      split_ifs with he
      · exact h1 he.symm
      · obtain ⟨h3, h4, h5⟩ := h2 fun hc => he hc.symm
        exact (shuffleWrite_advanced h3 h4 hs.sock).mono (Nat.le_of_succ_le h5)
  · -- there is no room to read, so the buffer is not empty
    have hne : c.bufferEnd ≠ 0 := by
      intro h0
      have hb : bufferSize = 4096 := rfl
      exact hread ⟨by omega, hfd.2⟩
    exact shuffleWrite_advanced h (h.settled hne) hs.sock

/-! ### By sendfile -/

/-- What a call of sendfile gives. -/
lemma nextSend_cases {pos want : ℕ} (hs : Smooth D pos c) (hwant : 0 < want) :
    c.nextSend want = .again ∨ c.nextSend want = .nosys ∨
      ∃ m, 1 ≤ m ∧ m ≤ want ∧ c.nextSend want = .sent (slice D pos (pos + m)) := by
  have hdrop : c.sendfile.dropWhile (· = SendRes.intr) = c.sendfile := by
    refine dropWhile_of_ne fun r hr => ?_
    obtain rfl | rfl | ⟨n, rfl⟩ := hs.sendfile r hr <;> exact nofun
  unfold Request.nextSend
  rw [hdrop]
  cases hf : c.sendfile with
  | nil => exact .inl rfl
  | cons r rs =>
    obtain rfl | rfl | ⟨n, rfl⟩ := hs.sendfile r (by simp [hf])
    · exact .inl rfl
    · exact .inr (.inl rfl)
    · refine .inr (.inr ⟨min want (n + 1), by omega, by omega, ?_⟩)
      simp only [List.head?_cons, Option.getD_some, take_slice]

/-- `io_shuffle_sendfile`. -/
lemma ioShuffleSendfile_advanced (h : Moving D head start stop k c) (hstop : stop < D.length)
    (hsize : D.length < 2 ^ 63) (hfd : c.status = .ioShuffle ∧ c.dataFd ≠ 0)
    (hs : Smooth D (start + k) c) (hseek : env.lseekOk = true) (hbuf : 0 < env.systemBufsize) :
    Advanced D head start stop (work start stop k c) (c.ioShuffleSendfile env) := by
  have hle := h.le
  have hpop : Moving D head start stop k c.popSend :=
    ⟨⟨h.start_le, h.end_le, h.size⟩, h.method, h.ranges, h.le, h.out, h.settled, h.way, h.single, h.calls⟩
  have hoff : ∀ n, n ≤ stop + 1 → offNegative n = false := by
    intro n hn
    unfold offNegative
    simp only [Bool.not_eq_false', decide_eq_true_eq]
    omega
  unfold Request.ioShuffleSendfile
  rw [if_neg h.method, h.ranges]
  dsimp only
  rw [h.bytes (by omega), if_neg (by omega), hoff _ (by omega), if_neg (by decide)]
  obtain hnext | hnext | ⟨m, hm1, hm2, hnext⟩ :=
    nextSend_cases hs (show 0 < min (stop + 1 - (start + k)) env.systemBufsize by omega)
  · rw [hnext]
    exact hpop.blocked
  · rw [hnext]
    have hs' : Smooth D (start + k) c.popSend := by
      refine ⟨hs.sock, hs.file, fun r hr => hs.sendfile r ?_⟩
      exact (List.dropWhile_suffix _).subset (List.mem_of_mem_tail hr)
    exact ioShuffle_advanced hpop hstop hsize hfd hs' hseek
  · rw [hnext]
    have hlen : (slice D (start + k) (start + k + m)).length = m := by
      rw [length_slice (by omega)]
      omega
    have hne : slice D (start + k) (start + k + m) ≠ [] := slice_ne_nil (by omega) (by omega)
    obtain ⟨h1, h2⟩ := hpop.sendDirect env hm1 (by omega) rfl
    generalize slice D (start + k) (start + k + m) = bs at hlen hne h1 h2
    cases bs with
    | nil => exact absurd rfl hne
    | cons b bs =>
      dsimp only
      rw [hlen, hoff _ (by omega), if_neg (by decide)]
      unfold Request.sentRange
      dsimp only [Request.moveRange]
      split_ifs with he
      · exact h1 (by omega)
      · exact h2 (by omega)

/-! ### Rounds -/

lemma reqFlush_wilds (o : Out) : o.reqFlush.1.trace.count .wild = o.trace.count .wild := by
  have hr : Out.Replies (fun _ => True) (fun _ => True) o o.reqFlush.1 := Out.reqFlush_replies o
  exact hr.adds.count_eq id

/-- A flush on a socket without errors neither produces nor loses anything. -/
lemma flush_smooth {o : Out} (hok : o.BufOk) (hs : ¬ .done < o.status)
    (hsock : ∀ w ∈ o.sock, w = .again ∨ ∃ n, w = .wrote (n + 1)) :
    o.reqFlush.1.BufOk ∧ produced o.reqFlush.1.trace = produced o.trace ∧
      o.reqFlush.1.status = o.status ∧ o.reqFlush.2 ≠ .error ∧
      (∀ w ∈ o.reqFlush.1.sock, w = .again ∨ ∃ n, w = .wrote (n + 1)) ∧
      (o.bufferStart < o.bufferEnd → o.reqFlush.1.bufferEnd ≠ 0 →
        o.reqFlush.1.bufferStart < o.reqFlush.1.bufferEnd) ∧
      o.reqFlush.1.bufferEnd - o.reqFlush.1.bufferStart ≤ o.bufferEnd - o.bufferStart := by
  have hsteady : o.Steady := by
    intro w hw
    obtain rfl | ⟨n, rfl⟩ := hsock w hw <;> exact ⟨nofun, nofun⟩
  have hbuf := Out.reqFlush_bufOk hok
  have hstream := Out.reqFlush_stream hok hsteady
  have hstatus := Out.reqFlush_status hok hsteady
  have htail : ∀ w ∈ o.sock.tail, w = .again ∨ ∃ n, w = .wrote (n + 1) :=
    fun w hw => hsock w (List.mem_of_mem_tail hw)
  have hsettle : ∀ p : Out, (p.settle.bufferEnd ≠ 0 → p.bufferStart ≤ p.bufferEnd →
      p.settle.bufferStart < p.settle.bufferEnd) ∧
      p.settle.bufferEnd - p.settle.bufferStart ≤ p.bufferEnd - p.bufferStart := by
    intro p
    unfold Out.settle
    split_ifs with he
    · exact ⟨fun h0 => absurd rfl h0, Nat.zero_le _⟩
    · exact ⟨fun _ hle => by omega, le_rfl⟩
  refine ⟨hbuf, hstream.2, hstatus, ?_⟩
  obtain ⟨-, hlate⟩ | ⟨-, -, he⟩ | ⟨-, -, -, he⟩ | ⟨-, -, hw, -⟩ | ⟨-, -, n, -, he⟩ :=
    Out.reqFlush_cases o hok
  · exact absurd hlate hs
  · rw [he]
    refine ⟨nofun, ?_, fun _ h0 => (hsettle o).1 h0 hok.start_le, (hsettle o).2⟩
    rw [Out.settle_sock]
    exact hsock
  · rw [he]
    exact ⟨nofun, htail, fun h _ => h, le_rfl⟩
  · have hmem := hsteady _ (Out.nextWrite_mem (o := o) (by obtain hw | hw := hw <;> simp [hw]))
    obtain hw | hw := hw
    · exact absurd hw hmem.1
    · exact absurd hw hmem.2
  · rw [he]
    have hacc := Out.accept_bufOk hok (min_le_right n (o.bufferEnd - o.bufferStart))
    refine ⟨nofun, ?_, fun _ h0 => (hsettle _).1 h0 hacc.start_le, (hsettle _).2.trans ?_⟩
    · rw [Out.settle_sock]
      exact htail
    · show o.bufferEnd - (o.bufferStart + _) ≤ _
      omega

/-- The flush at the top of a round. -/
lemma Moving.flushFirst (h : Moving D head start stop k c)
    (hsock : ∀ w ∈ c.sock, w = .again ∨ ∃ n, w = .wrote (n + 1)) :
    ∃ o, c.flushFirst = ({ c with toOut := o }, .blocked) ∧
        Moving D head start stop k { c with toOut := o } ∧
        work start stop k { c with toOut := o } ≤ work start stop k c ∨
      c.flushFirst = ({ c with toOut := o }, .more) ∧
        Moving D head start stop k { c with toOut := o } ∧
        work start stop k { c with toOut := o } ≤ work start stop k c ∧
        ∀ w ∈ o.sock, w = .again ∨ ∃ n, w = .wrote (n + 1) := by
  have hearly : ¬ .done < c.status := by
    obtain ⟨hs, -⟩ | ⟨hs, -⟩ := h.way <;> rw [hs] <;> decide
  unfold Request.flushFirst
  split_ifs with hcond
  · obtain ⟨h1, h2, h3, h4, h5, h6, h7⟩ := flush_smooth h.toBufOk hearly hsock
    have hmoving : Moving D head start stop k { c with toOut := c.toOut.reqFlush.1 } := by
      refine ⟨h1, h.method, h.ranges, h.le, h2.trans h.out, h6 (h.settled hcond.1), ?_, h.single,
        (reqFlush_wilds _).trans h.calls⟩
      show (c.toOut.reqFlush.1.status = .write ∧ _) ∨ (c.toOut.reqFlush.1.status = .ioShuffle ∧ _)
      rw [h3]
      exact h.way
    have hwork : work start stop k { c with toOut := c.toOut.reqFlush.1 } ≤ work start stop k c :=
      Nat.add_le_add_left h7 _
    refine ⟨c.toOut.reqFlush.1, ?_⟩
    generalize c.toOut.reqFlush = r at h4 h5 hmoving hwork
    obtain ⟨o, fl⟩ := r
    cases fl with
    | error => exact absurd rfl h4
    | blocked => exact .inl ⟨rfl, hmoving, hwork⟩
    | left n => exact .inr ⟨rfl, hmoving, hwork, h5⟩
  · exact ⟨c.toOut, .inr ⟨rfl, h, le_rfl, hsock⟩⟩

/-- One round of the transfer, whichever way the body goes. -/
lemma Moving.serveOnce (h : Moving D head start stop k c) (hstop : stop < D.length)
    (hsize : D.length < 2 ^ 63) (he : env.Fine D c) :
    Advanced D head start stop (work start stop k c) (c.serveOnce env) := by
  have harm : Moving D head start stop k (c.arm env) :=
    ⟨⟨h.start_le, h.end_le, h.size⟩, h.method, h.ranges, h.le, h.out, h.settled, h.way, h.single, h.calls⟩
  have hs := he.answers
  rw [h.ranges] at hs
  have hs : Smooth D (start + k) (c.arm env) := hs
  obtain ⟨o, ⟨hflush, hd, hwork⟩ | ⟨hflush, hd, hwork, hsock⟩⟩ := harm.flushFirst hs.sock
  · unfold Request.serveOnce
    rw [hflush]
    exact hd.blocked.mono hwork
  · unfold Request.serveOnce
    rw [hflush]
    dsimp only
    have hs' : Smooth D (start + k) { c.arm env with toOut := o } := ⟨hsock, hs.file, hs.sendfile⟩
    refine Advanced.mono ?_ hwork
    unfold Request.handle
    obtain hway | hway := hd.way
    · rw [hway.1]
      exact processGet_advanced hd hstop hsize hway hsock he.sigbus he.bufsize
    · rw [hway.1]
      dsimp only
      split_ifs
      · exact ioShuffleSendfile_advanced hd hstop hsize hway hs' he.lseek he.bufsize
      · exact ioShuffle_advanced hd hstop hsize hway hs' he.lseek

lemma Finished.flush (h : Finished D head start stop c)
    (hsock : ∀ w ∈ c.sock, w = .again ∨ ∃ n, w = .wrote (n + 1)) :
    Finished D head start stop { c with toOut := c.toOut.reqFlush.1 } ∧ c.toOut.reqFlush.2 ≠ .error ∧
      ∀ w ∈ c.toOut.reqFlush.1.sock, w = .again ∨ ∃ n, w = .wrote (n + 1) := by
  have hdone : ¬ .done < c.status := by
    rw [h.status]
    decide
  obtain ⟨h1, h2, h3, h4, h5, -, -⟩ := flush_smooth h.toBufOk hdone hsock
  exact ⟨⟨h1, h.ranges, h3.trans h.status, h2.trans h.out, (reqFlush_wilds _).trans h.calls⟩, h4, h5⟩

/-- Behind the body a round only sends what is in the buffer. -/
lemma Finished.serveOnce (h : Finished D head start stop c)
    (hsock : ∀ w ∈ env.sock, w = .again ∨ ∃ n, w = .wrote (n + 1)) :
    Finished D head start stop (c.serveOnce env).1 := by
  have harm : Finished D head start stop (c.arm env) :=
    ⟨⟨h.start_le, h.end_le, h.size⟩, h.ranges, h.status, h.out, h.calls⟩
  have hhandle : ∀ d : Request, Finished D head start stop d →
      (∀ w ∈ d.sock, w = .again ∨ ∃ n, w = .wrote (n + 1)) →
      Finished D head start stop (d.handle env).1 := by
    intro d hd hs
    obtain ⟨h1, h2, -⟩ := hd.flush hs
    unfold Request.handle
    rw [hd.status]
    dsimp only
    unfold Request.processDone
    generalize d.toOut.reqFlush = r at h1 h2
    obtain ⟨o, fl⟩ := r
    cases fl with
    | error => exact absurd rfl h2
    | blocked => exact h1
    | left n => cases n <;> exact h1
  unfold Request.serveOnce Request.flushFirst
  split_ifs
  · obtain ⟨h1, h2, h3⟩ := harm.flush hsock
    generalize (c.arm env).toOut.reqFlush = r at h1 h2 h3
    obtain ⟨o, fl⟩ := r
    cases fl with
    | error => exact absurd rfl h2
    | blocked => exact h1
    | left n => exact hhandle _ h1 h3
  · exact hhandle _ harm hsock

/-- `free_request`, when it leaves the request on the ready list. -/
lemma Finished.free (h : Finished D head start stop c)
    (hsock : ∀ w ∈ c.sock, w = .again ∨ ∃ n, w = .wrote (n + 1))
    (hf : (c.freeRequest env).2 = .ready) : Finished D head start stop (c.freeRequest env).1 := by
  have hstatus : { c.toOut with status := .done } = c.toOut := by rw [← h.status]
  have hend : ∀ d : Request, (d.endRequest env).2 ≠ .ready := by
    intro d
    obtain ⟨es, code, -, ⟨-, he⟩ | ⟨-, he⟩⟩ := Request.endRequest_cases env d <;> rw [he] <;> exact nofun
  obtain ⟨-, -, n, -, he⟩ | ⟨-, -, -, he⟩ | ⟨-, -, -, he⟩ | ⟨-, he⟩ := Request.freeRequest_cases env c
  · rw [he, hstatus]
    exact (h.flush hsock).1
  all_goals
    rw [he] at hf
    exact absurd hf (hend _)

/-- The whole file as a range. -/
lemma fixupRanges_whole {size : ℕ} (hpos : size ≠ 0) (hlt : size < 2 ^ 63) :
    fixupRanges size [⟨0, ulongMax⟩] = [⟨0, size - 1⟩] := by
  have hoff : offNegative 0 = false := by
    unfold offNegative
    simp
  unfold fixupRanges
  rw [if_neg hpos]
  simp only [List.filterMap_cons, List.filterMap_nil, fixupRange, ulongMax]
  simp [hoff]
  omega

lemma attachData_fields (env : Env) (c : Request) (f : File) :
    (c.attachData env f).ranges = c.ranges ∧ (c.attachData env f).filesize = c.filesize := by
  unfold Request.attachData
  split_ifs <;> exact ⟨rfl, rfl⟩

/-- `init_get` from the choice between a full and a partial response on. -/
lemma respond_eq {f : File} (hpos : f.size ≠ 0) (hsize : c.filesize = f.size) :
    c.respond env = Request.startTransfer env (match c.ranges with
      | r :: _ => c.sendRPartialContent env r
      | [] => { c with ranges := [⟨0, f.size - 1⟩] }.sendRRequestOk env) := by
  unfold Request.respond
  cases hr : c.ranges with
  | cons r rest => rfl
  | nil =>
    have hfix : { c with ranges := [⟨0, ulongMax⟩] }.rangesFixup env =
        ({ c with ranges := [⟨0, f.size - 1⟩] }, true) := by
      unfold Request.rangesFixup
      dsimp only
      rw [hsize, fixupRanges_whole hpos f.size_lt, if_neg (by simp)]
    rw [hfix]

/-- The header block of an open file is written, and the transfer starts. -/
lemma serveRegular_headed {f : File} (hmod : c.notModified env f = false) (hpos : f.size ≠ 0)
    (hsat : c.ranges ≠ [] → fixupRanges f.size c.ranges ≠ []) :
    c.serveRegular env f = (c.headed env f).startTransfer env := by
  have hrespond : c.serveRegular env f = Request.respond env (Request.attachData env { c with
      filesize := f.size, lastModified := f.mtime, ranges := fixupRanges f.size c.ranges } f) := by
    unfold Request.serveRegular
    rw [hmod, if_neg (by decide)]
    dsimp only
    rw [if_neg hpos]
    by_cases hr : c.ranges = []
    · have hnil : fixupRanges f.size c.ranges = c.ranges := by
        unfold fixupRanges
        rw [hr, if_neg hpos]
        rfl
      rw [if_neg (not_not.mpr hr), hnil]
    · unfold Request.rangesFixup
      dsimp only
      rw [if_pos hr, if_neg (hsat hr)]
  rw [hrespond, respond_eq hpos (attachData_fields env _ f).2]
  rfl

lemma Asks.serveRegular {f : File} (h : Asks f start stop c) (hlt : stop < f.size)
    (hmod : c.notModified env f = false) :
    c.serveRegular env f = (c.headed env f).startTransfer env := by
  refine serveRegular_headed hmod (by omega) fun hr => ?_
  obtain ⟨hnil, -, -⟩ | ⟨-, hfix, -⟩ := h.range
  · exact absurd hnil hr
  · rw [hfix]
    exact List.cons_ne_nil _ _

/-- The first part of a mapped file goes next to the header. -/
lemma startTransfer_advanced (h : Moving D head start stop 0 c) (hstop : stop < D.length)
    (hmap : (c.dataMem = some D ∧ D.length ≤ maxFileMmap) ∨ c.dataMem = none) (hbus : env.sigbus = false) :
    Advanced D head start stop (work start stop 0 c + 1) (c.startTransfer env) := by
  have hle := h.le
  have hidle : Advanced D head start stop (work start stop 0 c + 1) (c, .more) :=
    .inr ⟨nofun, 0, h, le_rfl⟩
  unfold Request.startTransfer Request.firstChunk
  rw [if_neg h.method, h.ranges]
  obtain ⟨hmem, hsmall⟩ | hmem := hmap
  · have hmax : maxFileMmap = 102400 := rfl
    have hbytes := h.bytes (by omega)
    rw [hmem]
    dsimp only
    rw [hbytes, Nat.mod_eq_of_lt (by omega), hbus]
    generalize hn : min (bufferSize - c.bufferEnd) (stop + 1 - (start + 0)) = n
    by_cases hfree : 256 < bufferSize - c.bufferEnd
    · have hn1 : 1 ≤ n ∧ start + 0 + n ≤ stop + 1 ∧ n ≤ bufferSize - c.bufferEnd := by omega
      obtain ⟨h1, h2⟩ := h.bufferData hstop env hn1.1 hn1.2.1 hn1.2.2 (n := c.bytesWritten + n) rfl
      rw [if_pos hfree, if_neg (by decide)]
      split_ifs with hlast
      · exact (h1 (by omega)).mono (Nat.le_succ _)
      · obtain ⟨h3, -, h4⟩ := h2 (by omega)
        exact .inr ⟨nofun, 0 + n, h3, h4.trans (Nat.le_succ _)⟩
    · rw [if_neg hfree]
      exact hidle
  · rw [hmem]
    exact hidle

/-- The header routines write, and the transfer finds what it needs. -/
lemma Moving.of_writes (hok : c.toOut.BufOk) (hmethod : c.method = .get)
    (hempty : c.bufferStart = 0) (hle : start ≤ stop) (hranges : c.ranges = [⟨start, stop⟩])
    (hone : ¬(c.responseStatus = 206 ∧ 1 < c.numranges))
    (hway : (c.status = .write ∧ c.dataMem = some D) ∨ (c.status = .ioShuffle ∧ c.dataFd ≠ 0))
    (ms : List Msg) (hroom : (c.writes ms).status ≠ .dead) :
    Moving D (c.writes ms).trace start stop 0 (c.writes ms) := by
  have hr : Out.Replies (fun _ => True) (fun _ => True) c.toOut (c.toOut.writes ms) :=
    Out.writes_replies c.toOut ms (fun _ _ => trivial) (fun _ _ => trivial)
  have hbuf : (c.writes ms).toOut.BufOk := (hr.sound False ⟨hok, nofun, nofun⟩).toBufOk
  have hstart : (c.writes ms).bufferStart = 0 := (Request.writes_bufferStart c ms).trans hempty
  have hstatus : (c.writes ms).status = c.status := hr.status.resolve_right hroom
  refine ⟨hbuf, ?_, hranges, hle, ?_, ?_, ?_, hone, rfl⟩
  · show c.method ≠ .head
    rw [hmethod]
    exact nofun
  · simp [slice]
  · intro h0
    rw [hstart]
    omega
  · rw [hstatus]
    exact hway

lemma sendRRequestOk_writes (env : Env) (c : Request) :
    ∃ ms, c.sendRRequestOk env = { c with responseStatus := 200 }.writes ms := by
  unfold Request.sendRRequestOk
  dsimp only
  by_cases hold : c.httpVersion = .http09
  · rw [if_pos hold]
    exact ⟨[], rfl⟩
  · rw [if_neg hold]
    exact ⟨_, rfl⟩

/-- The way the body will go. -/
lemma attachData_way {f : File} (env : Env) (hsize : c.filesize = f.size) (hmem : c.dataMem = none)
    (hstatus : c.status = .write) :
    ((c.attachData env f).status = .write ∧ (c.attachData env f).dataMem = some f.data ∧
        f.data.length ≤ maxFileMmap) ∨
      ((c.attachData env f).status = .ioShuffle ∧ (c.attachData env f).dataFd ≠ 0 ∧
        (c.attachData env f).dataMem = none) := by
  unfold Request.attachData
  split_ifs with hlarge
  · have hfd := f.fd_gt
    exact .inr ⟨rfl, show f.fd ≠ 0 by omega, hmem⟩
  · refine .inl ⟨hstatus, rfl, ?_⟩
    rw [← File.size, ← hsize]
    exact Nat.le_of_not_lt fun hc => hlarge (.inl hc)

lemma attachData_kept (env : Env) (c : Request) (f : File) :
    (c.attachData env f).bufferStart = c.bufferStart ∧ (c.attachData env f).method = c.method ∧
      (c.attachData env f).numranges = c.numranges := by
  unfold Request.attachData
  split_ifs <;> exact ⟨rfl, rfl, rfl⟩

/-- The request behind its header block. -/
lemma Asks.headed {f : File} (h : Asks f start stop c) (hle : start ≤ stop)
    (hroom : (c.headed env f).status ≠ .dead) :
    Moving f.data (c.headed env f).trace start stop 0 (c.headed env f) ∧
      (((c.headed env f).dataMem = some f.data ∧ f.data.length ≤ maxFileMmap) ∨
        (c.headed env f).dataMem = none) := by
  unfold Request.headed at hroom ⊢
  dsimp only at hroom ⊢
  generalize hd : { c with filesize := f.size, lastModified := f.mtime, ranges := fixupRanges f.size c.ranges } =
    d at hroom ⊢
  have hd1 : d.toOut = c.toOut ∧ d.filesize = f.size ∧ d.dataMem = none ∧ d.method = .get ∧
      d.numranges = c.numranges ∧ d.ranges = fixupRanges f.size c.ranges := by
    rw [← hd]
    exact ⟨rfl, rfl, h.unmapped, h.method, rfl, rfl⟩
  obtain ⟨hout, hsize, hmem, hmethod, hnum, hranges⟩ := hd1
  have hway := attachData_way env hsize hmem (by rw [hout]; exact h.status)
  have hok : (d.attachData env f).toOut.BufOk := by
    have heff : Effect False d (d.attachData env f) := Request.attachData_effect env d f
    exact (heff.sound ⟨hout ▸ h.toBufOk, nofun, nofun⟩).toBufOk
  obtain ⟨hstart, hm, hn⟩ := attachData_kept env d f
  have hr := (attachData_fields env d f).1
  have hzero : c.bufferStart = 0 := by
    have h1 := h.start_le
    have h2 := h.empty
    omega
  generalize d.attachData env f = e at hroom hway hok hstart hm hn hr ⊢
  rw [hout, hzero] at hstart
  rw [hmethod] at hm
  rw [hranges] at hr
  have hway' : (e.status = .write ∧ e.dataMem = some f.data) ∨ (e.status = .ioShuffle ∧ e.dataFd ≠ 0) := by
    obtain ⟨h1, h2, -⟩ | ⟨h1, h2, -⟩ := hway
    · exact .inl ⟨h1, h2⟩
    · exact .inr ⟨h1, h2⟩
  have hmap : (e.dataMem = some f.data ∧ f.data.length ≤ maxFileMmap) ∨ e.dataMem = none := by
    obtain ⟨-, h1⟩ | ⟨-, -, h1⟩ := hway
    · exact .inl h1
    · exact .inr h1
  obtain ⟨hnil, rfl, hstop⟩ | ⟨-, hfix, hnum1⟩ := h.range
  · have hre : e.ranges = [] := by
      rw [hr, hnil]
      unfold fixupRanges
      split_ifs <;> rfl
    rw [hre] at hroom ⊢
    dsimp only at hroom ⊢
    obtain ⟨ms, hms⟩ := sendRRequestOk_writes env { e with ranges := [⟨0, f.size - 1⟩] }
    rw [hms] at hroom ⊢
    refine ⟨Moving.of_writes (c := { e with ranges := [⟨0, f.size - 1⟩], responseStatus := 200 }) hok hm
      hstart hle ?_ (by simp) hway' ms hroom, hmap⟩
    rw [← hstop]
    rfl
  · rw [hfix] at hr
    rw [hr] at hroom ⊢
    refine ⟨Moving.of_writes (c := { e with responseStatus := 206 }) hok hm hstart hle hr ?_ hway' _ hroom,
      hmap⟩
    intro hc
    have hlt : 1 < e.numranges := hc.2
    omega

/-! ### The whole run -/

lemma Moving.heedSigterm (h : Moving D head start stop k c) (env : Env) :
    Moving D head start stop k (c.heedSigterm env) ∧
      work start stop k (c.heedSigterm env) = work start stop k c := by
  unfold Request.heedSigterm
  split_ifs
  · exact ⟨⟨⟨h.start_le, h.end_le, h.size⟩, h.method, h.ranges, h.le, h.out, h.settled, h.way, h.single,
      h.calls⟩, rfl⟩
  · exact ⟨h, rfl⟩

lemma Finished.heedSigterm (h : Finished D head start stop c) (env : Env) :
    Finished D head start stop (c.heedSigterm env) := by
  unfold Request.heedSigterm
  split_ifs
  · exact ⟨⟨h.start_le, h.end_le, h.size⟩, h.ranges, h.status, h.out, h.calls⟩
  · exact h

/-- Every round that is not blocked makes progress, until the body is complete. -/
lemma Rounds.advanced {m n : ℕ} {r₀ r : Request × Ret} (hr : Rounds D r₀ n r)
    (h₀ : Advanced D head start stop (m + 1) r₀) (hmore : r₀.2 ≠ .blocked) (hstop : stop < D.length)
    (hsize : D.length < 2 ^ 63) :
    Finished D head start stop r.1 ∨
      r.2 ≠ .done ∧ ∃ k, Moving D head start stop k r.1 ∧ work start stop k r.1 + n ≤ m := by
  induction hr with
  | start =>
    obtain ⟨-, h⟩ | ⟨h1, k, h2, h3⟩ := h₀
    · exact .inl h
    · rw [if_neg hmore] at h3
      exact .inr ⟨h1, k, h2, Nat.le_of_succ_le_succ h3⟩
  | serve h hd env he ih =>
    obtain hfin | ⟨-, k, hmov, hwork⟩ := ih
    · exact .inl ((hfin.serveOnce he.answers.sock).heedSigterm env)
    · obtain ⟨-, hfin⟩ | ⟨hnext, k', hmov', hwork'⟩ := hmov.serveOnce hstop hsize he
      · exact .inl (hfin.heedSigterm env)
      · obtain ⟨hheed, hsame⟩ := hmov'.heedSigterm env
        refine .inr ⟨hnext, k', hheed, ?_⟩
        rw [hsame]
        split_ifs at hwork' ⊢ <;> omega
  | free h hd env hsock hf ih =>
    obtain hfin | ⟨hnot, -⟩ := ih
    · exact .inl (hfin.free hsock hf)
    · exact absurd hd hnot

lemma startTransfer_not_blocked (env : Env) (c : Request) : (c.startTransfer env).2 ≠ .blocked := by
  have hcomplete : ∀ d : Request, (d.completeResponse env).2 ≠ .blocked := by
    intro d
    unfold Request.completeResponse
    split
    · exact nofun
    · dsimp only
      split_ifs
      · split <;> exact nofun
      · exact nofun
  unfold Request.startTransfer
  by_cases hhead : c.method = .head
  · rw [if_pos hhead]
    exact hcomplete c
  · rw [if_neg hhead]
    unfold Request.firstChunk
    split
    · dsimp only
      split_ifs
      · exact nofun
      · exact hcomplete _
      · exact nofun
      · exact nofun
    · exact nofun

end Transfer

/-- The body of a GET, on every way and for all partial transfers: behind the header block
there is always the range up to where it has been advanced, `complete_response` takes the
range off with its last byte and is not called again, and only so many rounds can pass
before it. -/
theorem body_complete {f : File} {start stop : ℕ} {c : Request} {env : Env} (hc : Asks f start stop c)
    (hle : start ≤ stop) (hlt : stop < f.size) (hmod : c.notModified env f = false)
    (hbus : env.sigbus = false) (hroom : (c.headed env f).status ≠ .dead) {n : ℕ} {r : Request × Ret}
    (hr : Rounds f.data (c.serveRegular env f) n r) :
    r.1.trace.count .wild = (c.headed env f).trace.count .wild ∧
      ((∃ k ≤ stop - start, r.1.ranges = [⟨start + k, stop⟩] ∧ r.2 ≠ .done ∧
          produced r.1.trace = produced (c.headed env f).trace ++ slice f.data start (start + k) ∧
          n ≤ 2 * (stop + 1 - start) + bufferSize) ∨
        (r.1.ranges = [] ∧ r.1.status = .done ∧
          produced r.1.trace = produced (c.headed env f).trace ++ slice f.data start (stop + 1))) := by
  obtain ⟨hmov, hmap⟩ := hc.headed hle hroom
  rw [hc.serveRegular hlt hmod] at hr
  have hfirst := startTransfer_advanced hmov hlt hmap hbus
  obtain hfin | ⟨hnot, k, hmov', hwork⟩ :=
    hr.advanced hfirst (startTransfer_not_blocked env _) hlt f.size_lt
  · exact ⟨hfin.calls, .inr ⟨hfin.ranges, hfin.status, hfin.out⟩⟩
  · have hk := hmov'.le
    have hend := hmov.end_le
    unfold work at hwork
    exact ⟨hmov'.calls, .inl ⟨k, by omega, hmov'.ranges, hnot, hmov'.out, by omega⟩⟩

/-- A range of a small file that cannot be mapped; the kernel takes two of its bytes. -/
def shortEnv : Env :=
  { tinyEnv with mapped := false, sock := [.wrote 1000], sendfile := [.sent [101, 108]] }

def rangeRequest : Request :=
  { Request.getRequest tinyEnv tinyPeer {} with
    method := .get
    status := .write
    httpVersion := .http11
    ranges := [⟨1, 3⟩]
    numranges := 1 }

def shortRound : Request × Ret :=
  let r := rangeRequest.serveRegular shortEnv tinyFile
  ((r.1.serveOnce shortEnv).1.heedSigterm shortEnv, (r.1.serveOnce shortEnv).2)

lemma rangeRequest_asks : Asks tinyFile 1 3 rangeRequest where
  start_le := by decide
  end_le := by decide
  size := by decide +kernel
  method := rfl
  status := rfl
  empty := rfl
  unmapped := rfl
  range := .inr ⟨by decide, by decide +kernel, rfl⟩

lemma shortEnv_fine :
    shortEnv.Fine tinyFile.data (rangeRequest.serveRegular shortEnv tinyFile).1 := by
  have hpos : (rangeRequest.serveRegular shortEnv tinyFile).1.ranges = [⟨1, 3⟩] := by decide +kernel
  refine ⟨?_, rfl, rfl, by decide⟩
  rw [hpos]
  refine ⟨?_, nofun, ?_⟩
  · intro w hw
    exact .inr ⟨999, List.mem_singleton.mp hw⟩
  · intro w hw
    exact .inr (.inr ⟨1, List.mem_singleton.mp hw⟩)

theorem body_complete_short :
    Rounds tinyFile.data (rangeRequest.serveRegular shortEnv tinyFile) 1 shortRound ∧
      ((∃ k ≤ 3 - 1, shortRound.1.ranges = [⟨1 + k, 3⟩] ∧ shortRound.2 ≠ .done ∧
          produced shortRound.1.trace = produced (rangeRequest.headed shortEnv tinyFile).trace ++
            slice tinyFile.data 1 (1 + k) ∧
          1 ≤ 2 * (3 + 1 - 1) + bufferSize) ∨
        (shortRound.1.ranges = [] ∧ shortRound.1.status = .done ∧
          produced shortRound.1.trace = produced (rangeRequest.headed shortEnv tinyFile).trace ++
            slice tinyFile.data 1 (3 + 1))) := by
  have hstart : Rounds tinyFile.data (rangeRequest.serveRegular shortEnv tinyFile) 0
    (rangeRequest.serveRegular shortEnv tinyFile) := .start
  have hr := hstart.serve (by decide +kernel) shortEnv shortEnv_fine
  have hone : (((rangeRequest.serveRegular shortEnv tinyFile).1.serveOnce shortEnv).2 = .blocked) = False := by
    decide +kernel
  simp only [hone, if_false] at hr
  exact ⟨hr, (body_complete rangeRequest_asks (by decide) (by decide) (by decide +kernel) rfl
    (by decide +kernel) hr).2⟩

end Boa
