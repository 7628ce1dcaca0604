import Boa.Parser

/-! The effect of the routines that move a file to the client (get.c, pipe.c). A
routine that writes past the buffer needs it to be empty. -/
namespace Boa
open Memory History

variable {S : Prop}

namespace Request

lemma popSock_effect (c : Request) : Effect S c c.popSock :=
  ⟨fun h => ⟨⟨h.start_le, h.end_le, h.size⟩, Out.steady_tail h.steady, h.flow⟩, .refl _, rfl, id, id,
    .inl rfl⟩

lemma sendDirect_effect (c : Request) (bs : Bytes) (hq : S → c.pending = []) :
    Effect S c (c.sendDirect bs) := by
  refine ⟨fun h => ⟨⟨h.start_le, h.end_le, h.size⟩, h.steady, fun hS => ?_⟩,
    (Adds.snoc trivial).trans (.snoc trivial), rfl, id, id, .inl rfl⟩
  have hf := h.flow hS
  have hp : c.toOut.channel.queue = [] := hq hS
  have hb := Channel.stream_bypass hp bs
  simp only [Channel.bypass, Channel.stream, Out.channel] at hf hb
  simp only [sendDirect, Request.log, Out.channel, Channel.stream, Out.pending, produced_snoc,
    sentBytes_snoc, produce, Event.sentBytes, List.append_nil] at hf hb ⊢
  rw [hf, hb]

lemma kill_effect (c : Request) : Effect S c { c with status := .dead } := .setStatus (by decide)

lemma processGet_effect (env : Env) (c : Request) (hq : c.method ≠ .head → S → c.pending = []) :
    Effect S c (c.processGet env).1 := by
  unfold processGet
  split
  · exact completeResponse_effect env c
  next hm =>
  split
  · exact .log c .wild rfl
  · next r rest _ =>
    dsimp only
    generalize min r.bytes env.systemBufsize = want
    split
    · exact (Effect.log c .fileError rfl).trans (kill_effect _)
    · split
      · exact popSock_effect c
      · exact (popSock_effect c).trans (kill_effect _)
      · exact (popSock_effect c).trans (kill_effect _)
      · have h1 := fun bs n => ((popSock_effect (S := S) c).trans
          (sendDirect_effect c.popSock bs (hq hm))).trans (moveRange_effect _ r rest n)
        split_ifs
        · exact (h1 _ _).trans (completeResponse_effect env _)
        · exact h1 _ _

/-- The socket took `k` of the pending bytes. -/
lemma accept_effect {c c' : Request} {k : ℕ} (hk : k ≤ c.bufferEnd - c.bufferStart)
    (ho : c'.toOut = c.toOut.accept k) (hf : c'.lasting = c.lasting)
    (hw : (c'.piping, c'.keepalive) = (c.piping, c.keepalive)) : Effect S c c' := by
  have h1 : Effect S c { c with toOut := c.toOut.accept k } := by
    refine ⟨fun h => ?_, .snoc trivial, rfl, id, id, .inl rfl⟩
    refine ⟨Out.accept_bufOk h.toBufOk hk, Out.steady_tail h.steady, fun hS => ?_⟩
    have hf := h.flow hS
    rw [← Out.accept_stream h.toBufOk hk] at hf
    exact (produced_snoc _ _).trans hf
  exact h1.trans (.of_out_eq ho hf hw)

/-- An empty buffer starts again at 0. -/
lemma restart_effect (c : Request) (h0 : c.bufferEnd ≤ c.bufferStart) :
    Effect S c { c with bufferStart := 0, bufferEnd := 0 } := by
  refine ⟨fun h => ⟨⟨le_rfl, Nat.zero_le _, h.size⟩, h.steady, fun hS => ?_⟩, .refl _, rfl, id, id,
    .inl rfl⟩
  have hf := h.flow hS
  rw [Out.channel, Channel.stream, Out.pending_eq_nil h0] at hf
  rw [Out.channel, Channel.stream, Out.pending_eq_nil le_rfl]
  exact hf

lemma restartWrite_effect (c : Request) : Effect S c c.restartWrite := by
  refine ⟨fun h => ⟨⟨h.start_le, h.end_le, h.size⟩, fun hS r hr => ?_, h.flow⟩, .refl _, rfl, id, id,
    .inl rfl⟩
  exact h.steady hS r ((List.dropWhile_suffix _).subset hr)

lemma shuffleWrite_effect (c : Request) : Effect S c c.shuffleWrite.1 := by
  unfold shuffleWrite
  dsimp only
  split_ifs with h1 h2
  · exact .refl c
  · exact restart_effect c (by omega)
  · have hdrop := restartWrite_effect (S := S) c
    have hstart : c.restartWrite.bufferStart = c.bufferStart := rfl
    have hend : c.restartWrite.bufferEnd = c.bufferEnd := rfl
    generalize c.restartWrite = d at hdrop hstart hend ⊢
    split
    · exact hdrop.trans (popSock_effect d)
    · exact hdrop.trans (popSock_effect d)
    · exact hdrop.trans ((popSock_effect d).trans (kill_effect _))
    · next n _ =>
      have hacc : ∀ d' : Request, d'.toOut = d.toOut.accept (min n (c.bufferEnd - c.bufferStart)) →
          d'.lasting = d.lasting → (d'.piping, d'.keepalive) = (d.piping, d.keepalive) → Effect S d d' :=
        fun d' => accept_effect (by omega)
      generalize hk : min n (c.bufferEnd - c.bufferStart) = k at hacc ⊢
      have hsent := hacc { d.popSock.log (.sent (slice d.popSock.buffer d.popSock.bufferStart
          (d.popSock.bufferStart + k))) with
        bufferStart := d.popSock.bufferStart + k, bytesWritten := d.popSock.bytesWritten + k }
        rfl rfl rfl
      split_ifs with h3
      · refine (hdrop.trans hsent).trans (restart_effect _ ?_)
        show d.bufferEnd ≤ d.bufferStart + k
        omega
      · exact hdrop.trans hsent

lemma fit_data {r : ReadRes} {room : ℕ} {bs : Bytes} (h : r.fit room = .data bs) :
    bs.length ≤ room ∧ bs ≠ [] := by
  cases r with
  | data xs =>
    simp only [ReadRes.fit] at h
    split_ifs at h with hx
    cases h
    exact ⟨List.length_take_le _ _, hx⟩
  | _ => simp [ReadRes.fit] at h

lemma shuffleRead_effect (env : Env) (c : Request) (r : Range) (rest : List Range) {toRead : ℕ}
    (hr : toRead ≤ bufferSize - c.bufferEnd) : Effect S c (c.shuffleRead env r rest toRead).1 := by
  have hfile : ∀ (d : Request) (xs : List ReadRes), Effect S d { d with file := xs } :=
    fun d xs => .of_out_eq rfl rfl rfl
  unfold shuffleRead
  split
  · exact (Effect.log c .fileError rfl).trans (kill_effect _)
  dsimp only
  have hdrop : Effect S c c.restartRead := hfile c _
  have hend : c.restartRead.bufferEnd = c.bufferEnd := rfl
  generalize c.restartRead = d at hdrop hend ⊢
  have hpop : Effect S c d.popFile := hdrop.trans (hfile d d.file.tail)
  split
  · split_ifs
    · exact hpop
    · exact hpop.trans (shuffleWrite_effect _)
  · split_ifs
    · exact hpop
    · exact hpop.trans (shuffleWrite_effect _)
  · exact hpop.trans ((Effect.log _ .fileError rfl).trans (kill_effect _))
  · have hclose : Effect S ((d.popFile.log .fileEof).log (.closed d.dataFd))
        { (d.popFile.log .fileEof).log (.closed d.dataFd) with dataFd := 0 } := .of_out_eq rfl rfl rfl
    exact (hpop.trans (((Effect.log _ .fileEof rfl).trans (.log _ _ rfl)).trans hclose)).trans
      (shuffleWrite_effect _)
  · next bs hbs =>
    have hfits : bs.length ≤ bufferSize - d.popFile.bufferEnd := by
      show bs.length ≤ bufferSize - d.bufferEnd
      have h1 := (fit_data hbs).1
      omega
    have hbuf : Effect S c { d.popFile.bufferData bs with
        ranges := { r with start := r.start + bs.length } :: rest } :=
      (hpop.trans (bufferData_effect _ hfits)).trans (.of_out_eq rfl rfl rfl)
    split_ifs
    · exact hbuf.trans (completeResponse_effect env _)
    · exact hbuf.trans (shuffleWrite_effect _)

lemma ioShuffle_effect (env : Env) (c : Request) : Effect S c (c.ioShuffle env).1 := by
  unfold ioShuffle
  split
  · exact completeResponse_effect env c
  split
  · exact .log c .wild rfl
  · next r rest _ =>
    dsimp only
    generalize r.bytes = left
    split
    · exact shuffleRead_effect env c r rest (by omega)
    · exact shuffleWrite_effect c

lemma sentRange_effect (env : Env) (c : Request) : Effect S c (c.sentRange env).1 := by
  unfold sentRange
  split
  · exact .log c .wild rfl
  · split_ifs
    · exact completeResponse_effect env c
    · exact .refl c

lemma ioShuffleSendfile_effect (env : Env) (c : Request)
    (hq : c.method ≠ .head → S → c.pending = []) : Effect S c (c.ioShuffleSendfile env).1 := by
  have hpop : Effect S c c.popSend := .of_out_eq rfl rfl rfl
  unfold ioShuffleSendfile
  split
  · exact completeResponse_effect env c
  next hm =>
  split
  · exact .log c .wild rfl
  · next r rest _ =>
    dsimp only
    generalize min r.bytes env.systemBufsize = want
    split
    · exact sentRange_effect env c
    split
    · exact kill_effect c
    · split
      · exact hpop.trans (ioShuffle_effect env _)
      · exact hpop
      · exact hpop
      · exact hpop
      · exact hpop.trans ((Effect.log _ .fileError rfl).trans (kill_effect _))
      · split
        · exact (hpop.trans (sendDirect_effect _ _ (hq hm))).trans (kill_effect _)
        · exact ((hpop.trans (sendDirect_effect _ _ (hq hm))).trans
            (moveRange_effect _ r rest _)).trans (sentRange_effect env _)

end Request
end Boa
