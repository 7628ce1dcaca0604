import Boa.Transfer

/-! The output of a child on its way to the client (pipe.c, cgi_header.c): it is
kept in a window of `req->buffer` next to the text that waits there. -/
namespace Boa
open Memory History

lemma strstr_spec {pat s : Bytes} {k : ℕ} (h : strstr pat s = some k) : pat <+: s.drop k := by
  induction s generalizing k with
  | nil =>
    simp only [strstr] at h
    split_ifs at h with hp
    cases h
    exact List.isPrefixOf_iff_prefix.mp hp
  | cons b s ih =>
    simp only [strstr] at h
    split_ifs at h with hp
    · cases h
      exact List.isPrefixOf_iff_prefix.mp hp
    · obtain ⟨j, hj, rfl⟩ := Option.map_eq_some_iff.mp h
      exact ih hj

/-- A blank line starts with a line end and ends inside the text. -/
lemma findBlankLine_spec {buf : Bytes} {k : ℕ} (h : findBlankLine buf = some k) :
    buf[k]? = some lf ∧ blankLineEnd buf k < buf.length := by
  unfold findBlankLine at h
  have hat : ∀ (pat t : Bytes), pat ++ t = buf.drop k → ∀ j, buf[k + j]? = (pat ++ t)[j]? := by
    intro pat t ht j
    rw [ht, List.getElem?_drop]
  unfold blankLineEnd
  rw [List.getD_eq_getElem?_getD]
  cases h1 : strstr [lf, cr, lf] buf with
  | some j =>
    rw [h1] at h
    obtain rfl : j = k := by simpa using h
    obtain ⟨t, ht⟩ := strstr_spec h1
    have hj := hat _ t ht
    have h2 : buf[j + 2]? = some lf := hj 2
    refine ⟨hj 0, ?_⟩
    rw [hj 1]
    exact (List.getElem?_eq_some_iff.mp h2).1
  | none =>
    rw [h1] at h
    obtain ⟨t, ht⟩ := strstr_spec h
    have hj := hat _ t ht
    have h2 : buf[k + 1]? = some lf := hj 1
    refine ⟨hj 0, ?_⟩
    rw [hj 1]
    exact (List.getElem?_eq_some_iff.mp h2).1

/-- A character that is no letter is no part of what a name matched. -/
lemma startsWithCase_not_mem {pat s : Bytes} {b : UInt8} (h : startsWithCase pat s)
    (hb : b ∉ pat.map tolower) (hlow : tolower b = b) : b ∉ s.take pat.length := by
  intro hm
  apply hb
  rw [← beq_iff_eq.mp h]
  exact List.mem_map.mpr ⟨b, hm, hlow⟩

/-- What a routine behind the header parser leaves alone, whatever it does to the output. -/
structure Later (c c' : Request) : Prop where
  adds : Adds Event.later c.trace c'.trace
  named : (c'.kept, c'.host) = (c.kept, c.host)
  late : 6 ≤ c.status.rank → 6 ≤ c'.status.rank
  idle : c'.keepalive = c.keepalive ∨ c'.keepalive = .stopped

variable {S : Prop}

lemma Effect.toLater {c c' : Request} (h : Effect S c c') : Later c c' :=
  ⟨h.adds.mono fun _ => Event.later_of_answers,
    Prod.ext (Request.of_fixed h.fixed).1 (congrArg Prod.snd h.lasting : c'.host = c.host), h.late, h.idle⟩

namespace Later

lemma kept {c c' : Request} (h : Later c c') : c'.kept = c.kept := congrArg Prod.fst h.named

lemma refl (c : Request) : Later c c := ⟨.refl _, rfl, id, .inl rfl⟩

lemma trans {c c' c'' : Request} (h : Later c c') (h' : Later c' c'') : Later c c'' :=
  ⟨h.adds.trans h'.adds, h'.named.trans h.named, fun hl => h'.late (h.late hl),
    Effect.idle_trans h.idle h'.idle⟩

/-- A routine that changes neither the trace nor the status. -/
lemma of_eq {c c' : Request} (ht : c'.trace = c.trace) (hs : c'.status = c.status)
    (hf : ((c'.kept, c'.host), c'.keepalive) = ((c.kept, c.host), c.keepalive)) : Later c c' := by
  obtain ⟨hf, hk⟩ := Prod.mk.injEq .. ▸ hf
  refine ⟨?_, hf, fun hl => hs ▸ hl, .inl hk⟩
  rw [ht]
  exact .refl _

lemma log (c : Request) (e : Event) (he : e.later) : Later c (c.log e) :=
  ⟨.snoc he, rfl, id, .inl rfl⟩

lemma setStatus (c : Request) {s : Status} (hs : 6 ≤ s.rank) : Later c { c with status := s } :=
  ⟨.refl _, rfl, fun _ => hs, .inl rfl⟩

lemma squashKa (c : Request) : Later c c.squashKa := ⟨.refl _, rfl, id, .inr rfl⟩

end Later

namespace Request

/-- The output of a child that is read and ready to go out, but not yet sent. -/
def window (c : Request) : Bytes :=
  if c.status.piped ∧ c.cgiStatus ≠ .parse then c.cgiText else []

/-- The bounds of the window, and what it means that the request is on its way out. -/
def PipeOk (c : Request) : Prop :=
  c.status.piped → c.headerLine.area = .buffer ∧ c.headerEnd.area = .buffer ∧
    c.headerLine.off ≤ c.headerEnd.off ∧ c.headerEnd.off ≤ bufferSize + 1 ∧
    (c.status = .pipeWrite → c.cgiStatus ≠ .parse)

end Request

/-- A request that goes on: the bounds hold and, if `S`, the socket is steady and
all that was produced is sent, pending or in the window, in this order. -/
structure Flow (S : Prop) (c : Request) : Prop extends Out.BufOk c.toOut where
  steady : S → c.Steady
  flow : S → produced c.trace = sentBytes c.trace ++ c.pending ++ c.window
  pipe : c.PipeOk

/-- A request that is over: nothing that was to be sent is lost unless it died. -/
structure Over (S : Prop) (c : Request) : Prop where
  ok : c.status < .timedOut → c.toOut.BufOk
  steady : S → c.Steady
  flow : S → c.status < .timedOut → produced c.trace = sentBytes c.trace ++ c.pending
  order : S → sentBytes c.trace <+: produced c.trace

/-- What a handler leaves behind, by its return value. -/
def Settled (S : Prop) (r : Request × Ret) : Prop :=
  (r.2 ≠ .done → Flow S r.1) ∧ (r.2 = .done → Over S r.1)

lemma Out.Sound.over {c : Request} (h : c.toOut.Sound S) : Over S c := by
  refine ⟨fun _ => h.toBufOk, h.steady, fun hS _ => h.flow hS, fun hS => ?_⟩
  rw [h.flow hS]
  exact Channel.sent_prefix_stream c.toOut.channel

lemma Request.Calm.window {c : Request} (h : c.Calm) : c.window = [] := by
  unfold Request.window
  split_ifs with hp
  · rw [Request.cgiText, (h hp.1).1, slice_self]
  · rfl

lemma Out.Sound.flowing {c : Request} (h : c.toOut.Sound S) (hc : c.Calm) : Flow S c := by
  refine ⟨h.toBufOk, h.steady, fun hS => ?_, fun hp => ?_⟩
  · rw [hc.window, List.append_nil]
    exact h.flow hS
  · obtain ⟨h1, h2, h3, h4⟩ := hc hp
    exact ⟨h1 ▸ h2, h2, by rw [h1], Nat.le_succ_of_le h3, h4⟩

lemma Out.Sound.settled {c : Request} (h : c.toOut.Sound S) (hc : c.Calm) (ret : Ret) :
    Settled S (c, ret) := ⟨fun _ => h.flowing hc, fun _ => h.over⟩

lemma Flow.sound {c : Request} (h : Flow S c) (hw : c.window = []) : c.toOut.Sound S := by
  refine ⟨h.toBufOk, h.steady, fun hS => ?_⟩
  rw [h.flow hS, hw, List.append_nil]
  rfl

lemma Flow.of_parse {c : Request} (h : Flow S c) (hg : c.cgiStatus = .parse) : c.toOut.Sound S :=
  h.sound (if_neg fun hw => hw.2 hg)

lemma Flow.order {c : Request} (h : Flow S c) (hS : S) : sentBytes c.trace <+: produced c.trace := by
  rw [h.flow hS, List.append_assoc]
  exact List.prefix_append _ _

/-- A handler that is no pipe handler. -/
lemma Effect.settled {c : Request} {r : Request × Ret} (h : Effect S c r.1) (hf : Flow S c)
    (hp : ¬ c.status.piped) : Settled S r := by
  have hc : c.Calm := fun hpipe => absurd hpipe hp
  exact (h.sound (hf.sound hc.window)).settled (h.calm hc) r.2

/-- An empty channel does not depend on the contents of the buffer. -/
lemma Out.Sound.rewrite {o : Out} (h : o.Sound S) (hq : S → o.pending = []) {buf : Bytes}
    (hlen : buf.length = bufferSize + 1) : Out.Sound S { o with buffer := buf } := by
  refine ⟨⟨h.start_le, h.end_le, hlen⟩, h.steady, fun hS => ?_⟩
  have hf := h.flow hS
  have hle : o.bufferEnd ≤ o.bufferStart := by
    have := Out.pending_length h.toBufOk
    rw [hq hS, List.length_nil] at this
    omega
  rw [Out.channel, Channel.stream, Out.pending_eq_nil hle] at hf
  rw [Out.channel, Channel.stream, Out.pending_eq_nil (by exact hle)]
  exact hf

namespace Request

/-! ### What is left alone -/

lemma pokeNul_later (c : Request) (i : ℕ) : Later c (c.pokeNul i) := by
  unfold pokeNul
  split_ifs
  · exact .of_eq rfl rfl rfl
  · exact (Later.log c .wild trivial).trans (.of_eq rfl rfl rfl)

lemma cgiOk_later (env : Env) (c : Request) (k : ℕ) : Later c (c.cgiOk env k).1 := by
  have h1 := (sendRRequestOk_effect (S := False) env c).toLater
  have h2 : Later c (if (c.sendRRequestOk env).method = .head
      then { c.sendRRequestOk env with headerEnd := ⟨.buffer, k⟩, cgiStatus := .done }
      else c.sendRRequestOk env) := by
    split_ifs
    · exact h1.trans (.of_eq rfl rfl rfl)
    · exact h1
  unfold cgiOk
  dsimp only
  generalize (if (c.sendRRequestOk env).method = .head
      then { c.sendRRequestOk env with headerEnd := ⟨.buffer, k⟩, cgiStatus := .done }
      else c.sendRRequestOk env) = d at h2 ⊢
  split
  · have h3 : Later (d.log (.withdrawn d.pending))
        { d.log (.withdrawn d.pending) with bufferStart := 0, bufferEnd := 0 } := .of_eq rfl rfl rfl
    have h4 := (sendRError_refused env
      { d.log (.withdrawn d.pending) with bufferStart := 0, bufferEnd := 0 }).effect (S := False)
    exact ((h2.trans (Later.log d (.withdrawn d.pending) trivial)).trans h3).trans h4.toLater
  · have h3 : Later d d.cgiMerge := ⟨.snoc trivial, rfl, id, .inl rfl⟩
    exact (h2.trans h3).trans (reqFlush_effect (S := False) _).toLater

lemma cgiLocation_later (env : Env) (c : Request) (buf : Bytes) : Later c (c.cgiLocation env buf) := by
  unfold cgiLocation
  dsimp only
  have h1 : Later c { c with buffer := store c.buffer (c.headerLine.off + locationEnd buf) [0] } :=
    .of_eq rfl rfl rfl
  refine h1.trans ((movedTemp_refused env _ rfl rfl ?_).effect (S := False)).toLater
  split_ifs <;> rfl

lemma processCgiHeader_later (env : Env) (c : Request) : Later c (c.processCgiHeader env).1 := by
  have h1 : Later c (if c.cgiStatus = .done then c else { c with cgiStatus := .buffer }) := by
    split_ifs
    · exact .refl c
    · exact .of_eq rfl rfl rfl
  unfold processCgiHeader
  dsimp only
  generalize (if c.cgiStatus = .done then c else { c with cgiStatus := .buffer }) = d at h1 ⊢
  generalize cstr (List.drop d.headerLine.off d.buffer) = buf
  split
  · exact h1.trans ((sendRBadGateway_refused env d).effect (S := False)).toLater
  next k _ =>
  have hlog : ∀ e : Request, Later d e → Later c (e.log (.data e.cgiText)) :=
    fun e he => (h1.trans he).trans (.log e _ trivial)
  split
  · exact hlog _ (.of_eq rfl rfl rfl)
  split
  · exact hlog _ (.of_eq rfl rfl rfl)
  split
  · have h2 : Later d (if buf.getD 10 0 = slash then d.sendRBadRequest env else d.cgiLocation env buf) := by
      split_ifs
      · exact ((sendRBadRequest_refused env d).effect (S := False)).toLater
      · exact cgiLocation_later env d buf
    exact (h1.trans h2).trans (.setStatus _ (by decide))
  · exact h1.trans (cgiOk_later env d _)

lemma writeFromPipe_later (c : Request) : Later c c.writeFromPipe.1 := by
  have hreset : ∀ d : Request, Later c d → Later c { d.resetWindow with status := .pipeRead } :=
    fun d hd => hd.trans ((Later.setStatus d (s := .pipeRead) (by decide)).trans (.of_eq rfl rfl rfl))
  have hpop : Later c c.popSock := .of_eq rfl rfl rfl
  unfold writeFromPipe
  dsimp only
  split
  · split
    · exact .refl c
    · exact hreset c (.refl c)
  · split
    · exact hpop
    · exact hpop
    · exact hpop.trans (.setStatus _ (by decide))
    · next n _ =>
      generalize min n c.lineLength = k
      have hsent : Later c { c.popSock.log (.sent (c.lineText k)) with
          headerLine := { c.headerLine with off := c.headerLine.off + k }
          bytesWritten := c.bytesWritten + k } :=
        (hpop.trans (.log _ (.sent (c.lineText k)) trivial)).trans (.of_eq rfl rfl rfl)
      split
      · exact hreset _ hsent
      · exact hsent

lemma pipeEof_later (env : Env) (c : Request) : Later c (c.pipeEof env).1 := by
  unfold pipeEof
  dsimp only
  have h1 : Later c { c.pokeNul c.headerEnd.off with status := .pipeWrite, cgiStatus := .done } :=
    ((pokeNul_later c _).trans (.setStatus _ (s := .pipeWrite) (by decide))).trans (.of_eq rfl rfl rfl)
  split
  · exact h1.trans (processCgiHeader_later env _)
  · exact h1

lemma pipeStore_later (c : Request) (bs : Bytes) : Later c (c.pipeStore bs) := by
  have h1 : Later c { c with
      buffer := store c.buffer c.headerEnd.off bs
      headerEnd := { c.headerEnd with off := c.headerEnd.off + bs.length } } := .of_eq rfl rfl rfl
  exact h1.trans (pokeNul_later _ _)

lemma pipeData_later (env : Env) (c : Request) (bs : Bytes) : Later c (c.pipeData env bs).1 := by
  have h1 := pipeStore_later c bs
  unfold pipeData
  dsimp only
  generalize c.pipeStore bs = d at h1 ⊢
  have h2 : Later d { d with cgiStatus := .done } := .of_eq rfl rfl rfl
  split
  · exact (h1.trans (.log d (.data bs) trivial)).trans (writeFromPipe_later _)
  · split
    · exact h1
    · exact (h1.trans h2).trans (processCgiHeader_later env _)

lemma readFromPipe_later (env : Env) (c : Request) : Later c (c.readFromPipe env).1 := by
  have hpop : Later c c.popFile := .of_eq rfl rfl rfl
  have hbuffer : Later c { c with cgiStatus := .buffer } := .of_eq rfl rfl rfl
  unfold readFromPipe
  dsimp only
  split
  · split
    · exact (hbuffer.trans (pokeNul_later _ _)).trans (processCgiHeader_later env _)
    · exact .setStatus c (by decide)
  · split
    · exact hpop
    · exact hpop
    · exact hpop.trans (.setStatus _ (by decide))
    · exact hpop.trans (pipeEof_later env _)
    · exact hpop.trans (pipeData_later env _ _)

/-- What no routine on a pipe changes, but for the answers of `read`. -/
def beyond (c : Request) := (c.dataFd, c.postDataFd, c.ranges, c.cgiEnv, c.file)

end Request

lemma Refused.beyond {c d : Request} (h : Refused c d) : d.beyond = c.beyond := by
  obtain ⟨o, code, rfl, -⟩ := h
  rfl

/-- The lengths of the three names that `process_cgi_header` compares a header block with. -/
lemma cgiNames : (text "Location: ").length = 10 ∧ (text "Status: ").length = 8 ∧
    (text "HTTP/1.0 ").length = 9 ∧ lf ∉ (text "Location: ").map tolower := by
  decide +kernel

namespace Request

lemma pokeNul_beyond (c : Request) (i : ℕ) : (c.pokeNul i).beyond = c.beyond := by
  unfold pokeNul
  split_ifs <;> rfl

lemma cgiOk_beyond (env : Env) (c : Request) (k : ℕ) : (c.cgiOk env k).1.beyond = c.beyond := by
  have hok : (c.sendRRequestOk env).beyond = c.beyond := by
    unfold sendRRequestOk
    dsimp only
    split_ifs <;> rfl
  have h : (if (c.sendRRequestOk env).method = .head
      then { c.sendRRequestOk env with headerEnd := ⟨.buffer, k⟩, cgiStatus := .done }
      else c.sendRRequestOk env).beyond = c.beyond := by
    split_ifs <;> exact hok
  unfold cgiOk
  dsimp only
  generalize (if (c.sendRRequestOk env).method = .head
      then { c.sendRRequestOk env with headerEnd := ⟨.buffer, k⟩, cgiStatus := .done }
      else c.sendRRequestOk env) = d at h ⊢
  split
  · exact (sendRError_refused env _).beyond.trans h
  · exact h

lemma processCgiHeader_beyond (env : Env) (c : Request) : (c.processCgiHeader env).1.beyond = c.beyond := by
  have h : (if c.cgiStatus = .done then c else { c with cgiStatus := .buffer }).beyond = c.beyond := by
    split_ifs <;> rfl
  unfold processCgiHeader
  dsimp only
  generalize (if c.cgiStatus = .done then c else { c with cgiStatus := .buffer }) = d at h ⊢
  generalize cstr (List.drop d.headerLine.off d.buffer) = buf
  split
  · exact (sendRBadGateway_refused env d).beyond.trans h
  split
  · exact h
  split
  · exact h
  split
  · rw [← h]
    split_ifs
    · exact (sendRBadRequest_refused env d).beyond
    · unfold cgiLocation
      refine (movedTemp_refused env _ rfl rfl ?_).beyond
      split_ifs <;> rfl
  · exact (cgiOk_beyond env d _).trans h

lemma writeFromPipe_beyond (c : Request) : c.writeFromPipe.1.beyond = c.beyond := by
  unfold writeFromPipe
  dsimp only
  split_ifs
  · rfl
  · rfl
  · split
    · rfl
    · rfl
    · rfl
    · split_ifs <;> rfl

lemma readFromPipe_beyond (env : Env) (c : Request) :
    (c.readFromPipe env).1.beyond = c.beyond ∨ (c.readFromPipe env).1.beyond = c.popFile.beyond := by
  unfold readFromPipe
  dsimp only
  split_ifs
  · exact .inl ((processCgiHeader_beyond env _).trans (pokeNul_beyond _ _))
  · exact .inl rfl
  · refine .inr ?_
    split
    · rfl
    · rfl
    · rfl
    · unfold pipeEof
      dsimp only
      split
      · exact (processCgiHeader_beyond env _).trans (pokeNul_beyond _ _)
      · exact pokeNul_beyond _ _
    · next bs _ =>
      have hstore : (c.popFile.pipeStore bs).beyond = c.popFile.beyond := pokeNul_beyond _ _
      unfold pipeData
      dsimp only
      split
      · exact (writeFromPipe_beyond _).trans hstore
      · split
        · exact hstore
        · exact (processCgiHeader_beyond env _).trans hstore

/-! ### What is kept in order -/

/-- The terminator `read_from_pipe` writes behind the window does not change it. -/
lemma pokeNul_spec {c : Request} {i : ℕ} (hsize : c.buffer.length = bufferSize + 1)
    (hi : i ≤ bufferSize + 1) :
    ∃ es uri buf, c.pokeNul i = { c with trace := c.trace ++ es, buffer := buf, requestUri := uri } ∧
      (∀ e ∈ es, e.quiet) ∧ buf.length = bufferSize + 1 ∧
      (∀ a, slice buf a i = slice c.buffer a i) ∧
      ∀ a ≤ i, (cstr (buf.drop a)).length ≤ i - a := by
  unfold pokeNul
  split_ifs with h1
  · have hle : i ≤ c.buffer.length := by omega
    refine ⟨[], c.requestUri, store c.buffer i [0], by simp, by simp, ?_, ?_, ?_⟩
    · rw [length_store [0] hle, hsize]
      simp only [List.length_cons, List.length_nil]
      omega
    · exact fun a => slice_store_before [0] le_rfl hle
    · intro a ha
      refine length_cstr_le ?_
      rw [List.getElem?_drop, Nat.add_sub_cancel' ha]
      exact getElem?_store_self 0 hle
  · refine ⟨[.wild], [], c.buffer, rfl, ?_, hsize, fun a => rfl, fun a ha => ?_⟩
    · simp only [List.mem_singleton, forall_eq]
      exact ⟨fun _ => rfl, rfl⟩
    · refine (List.takeWhile_prefix _).length_le.trans ?_
      rw [List.length_drop, hsize]
      omega

lemma window_eq {c : Request} (hp : c.status.piped) (hg : c.cgiStatus ≠ .parse) :
    c.window = c.cgiText := if_pos ⟨hp, hg⟩

/-- An emptied window: go back to reading. -/
lemma resetWindow_flow {c : Request} (h : c.toOut.Sound S) :
    Flow S { c.resetWindow with status := .pipeRead } := by
  have h1 : Out.Sound S { c.toOut with status := .pipeRead } := Out.setStatus_sound h .pipeRead
  exact Out.Sound.flowing h1 fun _ => ⟨rfl, rfl, Nat.zero_le _, fun hs => by cases hs⟩

/-- The client took the first `k` bytes of the window. -/
lemma sendWindow_flow {c : Request} (h : Flow S c) (hp : c.status.piped) (hg : c.cgiStatus ≠ .parse)
    (hq : S → c.pending = []) {k : ℕ} (hk : k ≤ c.lineLength) :
    Flow S { c.popSock.log (.sent (c.lineText k)) with
      headerLine := { c.headerLine with off := c.headerLine.off + k }
      bytesWritten := c.bytesWritten + k } := by
  obtain ⟨ha, hb, hle, hend, hw⟩ := h.pipe hp
  unfold lineLength at hk
  refine ⟨⟨h.start_le, h.end_le, h.size⟩, Out.steady_tail h.steady, fun hS => ?_,
    fun _ => ⟨ha, hb, ?_, hend, hw⟩⟩
  · have hf := h.flow hS
    have hs : slice c.buffer c.headerLine.off (c.headerLine.off + k) ++
        slice c.buffer (c.headerLine.off + k) c.headerEnd.off = c.cgiText :=
      slice_append_slice (Nat.le_add_right _ _) (by omega)
    have hwin := window_eq hp hg
    have hl : c.lineText k = slice c.buffer c.headerLine.off (c.headerLine.off + k) := by
      simp only [lineText, ha]
    rw [hq hS, hwin, List.append_nil, ← hs, ← List.append_assoc] at hf
    rw [window_eq (by exact hp) (by exact hg)]
    show produced (c.trace ++ [.sent (c.lineText k)]) = sentBytes (c.trace ++ [.sent (c.lineText k)]) ++
      c.pending ++ slice c.buffer (c.headerLine.off + k) c.headerEnd.off
    rw [produced_snoc, sentBytes_snoc, hl, hq hS, List.append_nil]
    exact hf
  · show c.headerLine.off + k ≤ c.headerEnd.off
    omega

lemma popSock_flow {c : Request} (h : Flow S c) : Flow S c.popSock :=
  ⟨⟨h.start_le, h.end_le, h.size⟩, Out.steady_tail h.steady, h.flow, h.pipe⟩

lemma done_not_piped : ¬ Status.piped .done := by decide

lemma dead_not_live : ¬ Status.dead < .timedOut := by decide

/-- A request that dies keeps what was sent. -/
lemma kill_over {c : Request} (h : Flow S c) : Over S { c with status := .dead } :=
  ⟨fun hs => absurd hs dead_not_live, h.steady, fun _ hs => absurd hs dead_not_live,
    fun hS => h.order hS⟩

lemma writeFromPipe_settled {c : Request} (h : Flow S c) (hp : c.status.piped)
    (hg : c.cgiStatus ≠ .parse) (hq : S → c.pending = []) : Settled S c.writeFromPipe := by
  obtain ⟨-, -, hle, -, -⟩ := h.pipe hp
  unfold writeFromPipe
  dsimp only
  split
  · next h0 =>
    have hw : c.window = [] := by
      rw [window_eq hp hg]
      exact slice_eq_nil (by unfold lineLength at h0; omega)
    split
    · exact ⟨fun hn => absurd rfl hn, fun _ => (h.sound hw).over⟩
    · exact ⟨fun _ => resetWindow_flow (h.sound hw), fun hd => by cases hd⟩
  · split
    · exact ⟨fun _ => popSock_flow h, fun hd => by cases hd⟩
    · exact ⟨fun _ => popSock_flow h, fun hd => by cases hd⟩
    · exact ⟨fun hn => absurd rfl hn, fun _ => kill_over (popSock_flow h)⟩
    · next n _ =>
      have hs := sendWindow_flow h hp hg hq (k := min n c.lineLength) (min_le_right _ _)
      generalize hk : min n c.lineLength = k at hs ⊢
      split
      · next hall =>
        refine ⟨fun _ => resetWindow_flow (hs.sound ?_), fun hd => by cases hd⟩
        rw [window_eq (by exact hp) (by exact hg)]
        refine slice_eq_nil ?_
        show c.headerEnd.off ≤ c.headerLine.off + k
        unfold lineLength at hall
        omega
      · exact ⟨fun _ => hs, fun hd => by cases hd⟩

/-- The header of a CGI goes out as it is: the rest of the text is the window. -/
lemma passOn_flow {c : Request} (h : c.toOut.Sound S) (hp : c.status.piped) (hg : c.cgiStatus ≠ .parse)
    (hpipe : c.PipeOk) : Flow S (c.log (.data c.cgiText)) := by
  refine ⟨⟨h.start_le, h.end_le, h.size⟩, h.steady, fun hS => ?_, hpipe⟩
  have hf : produced c.trace = sentBytes c.trace ++ c.pending := h.flow hS
  rw [window_eq (by exact hp) (by exact hg)]
  show produced (c.trace ++ [.data c.cgiText]) = sentBytes (c.trace ++ [.data c.cgiText]) ++
    c.pending ++ c.cgiText
  simp [produced_snoc, sentBytes_snoc, produce, Event.sentBytes, hf]

lemma startsWithCase_length {pat s : Bytes} (h : startsWithCase pat s) : pat.length ≤ s.length := by
  unfold startsWithCase at h
  have hl := congrArg List.length (beq_iff_eq.mp h)
  simp only [List.length_map, List.length_take] at hl
  omega

/-- The end of the first line lies inside a header block that starts with `Location: `. -/
lemma locationEnd_lt {buf : Bytes} {k : ℕ} (hk : buf[k]? = some lf)
    (h : startsWithCase (text "Location: ") buf) : locationEnd buf < buf.length := by
  have hlf : lf ∉ buf.take 10 := by
    rw [← cgiNames.1]
    exact startsWithCase_not_mem h cgiNames.2.2.2 (by decide)
  have hlen : k < buf.length := (List.getElem?_eq_some_iff.mp hk).1
  have hge : 10 ≤ k := by
    by_contra hlt
    apply hlf
    rw [List.mem_iff_getElem?]
    exact ⟨k, by rw [List.getElem?_take_of_lt (by omega), hk]⟩
  have hstop : ((buf.drop 10).takeWhile (· ≠ lf)).length ≤ k - 10 := by
    by_contra hlt
    have hpre := List.takeWhile_prefix (l := buf.drop 10) (fun b => decide (b ≠ lf))
    have hget := hpre.getElem (i := k - 10) (by omega)
    have hmem := List.mem_takeWhile_imp (List.getElem_mem (l := (buf.drop 10).takeWhile (· ≠ lf))
      (n := k - 10) (by omega))
    rw [hget] at hmem
    have hat : (buf.drop 10)[k - 10]? = some lf := by
      rw [List.getElem?_drop, Nat.add_sub_cancel' hge, hk]
    obtain ⟨_, hat⟩ := List.getElem?_eq_some_iff.mp hat
    simp [hat] at hmem
  unfold locationEnd
  dsimp only
  omega

lemma cgiLocation_sound {env : Env} {c : Request} {buf : Bytes} (h : c.toOut.Sound S)
    (hq : S → c.pending = []) (hb : c.headerLine.off + locationEnd buf < bufferSize + 1) :
    (c.cgiLocation env buf).toOut.Sound S := by
  unfold cgiLocation
  dsimp only
  have hlen : (store c.buffer (c.headerLine.off + locationEnd buf) [0]).length = bufferSize + 1 := by
    have hsize := h.size
    rw [length_store [0] (by omega), hsize, List.length_singleton]
    omega
  refine ((movedTemp_refused env _ rfl rfl ?_).effect (S := S)).sound (h.rewrite hq hlen)
  split_ifs <;> rfl

lemma cgiOk_settled {env : Env} {c : Request} {k : ℕ} (h : c.toOut.Sound S)
    (hg : c.cgiStatus ≠ .parse) : Settled S (c.cgiOk env k) := by
  have h1 : (c.sendRRequestOk env).toOut.Sound S := (sendRRequestOk_effect env c).sound h
  have hg1 : (c.sendRRequestOk env).cgiStatus ≠ .parse := by
    unfold sendRRequestOk
    dsimp only
    split_ifs <;> exact hg
  have h2 : (if (c.sendRRequestOk env).method = .head
      then { c.sendRRequestOk env with headerEnd := ⟨.buffer, k⟩, cgiStatus := .done }
      else c.sendRRequestOk env).toOut.Sound S := by
    split_ifs
    · exact h1
    · exact h1
  have hg2 : (if (c.sendRRequestOk env).method = .head
      then { c.sendRRequestOk env with headerEnd := ⟨.buffer, k⟩, cgiStatus := .done }
      else c.sendRRequestOk env).cgiStatus ≠ .parse := by
    split_ifs
    · simp
    · exact hg1
  unfold cgiOk
  dsimp only
  generalize (if (c.sendRRequestOk env).method = .head
      then { c.sendRRequestOk env with headerEnd := ⟨.buffer, k⟩, cgiStatus := .done }
      else c.sendRRequestOk env) = d at h2 hg2 ⊢
  split
  · have h3 : Out.Sound S { d.log (.withdrawn d.pending) with bufferStart := 0, bufferEnd := 0 }.toOut := by
      refine ⟨⟨le_rfl, Nat.zero_le _, h2.size⟩, h2.steady, fun hS => ?_⟩
      have hf : produced d.trace = sentBytes d.trace ++ d.pending := h2.flow hS
      show produced (d.trace ++ [.withdrawn d.pending]) =
        sentBytes (d.trace ++ [.withdrawn d.pending]) ++ slice d.buffer 0 0
      simp [produced_snoc, sentBytes_snoc, produce, Event.sentBytes, hf]
    exact ⟨fun hn => absurd rfl hn,
      fun _ => (((sendRError_refused env _).effect (S := S)).sound h3).over⟩
  · next hroom =>
    have hfit : d.cgiText.length ≤ bufferSize - d.bufferEnd := by
      have h3 : d.cgiText.length ≤ d.headerEnd.off - d.headerLine.off := by
        simp only [cgiText, slice, List.length_take]
        omega
      omega
    have h3 : d.cgiMerge.toOut.Sound S := Out.append_sound h2 (.inr rfl) hfit
    have hcalm : d.cgiMerge.Calm :=
      fun _ => ⟨rfl, rfl, h3.end_le, fun _ => hg2⟩
    have h4 := reqFlush_effect (S := S) d.cgiMerge
    exact (h4.sound h3).settled (h4.calm hcalm) _

/-- `process_cgi_header` on a terminated text, while nothing else is pending. -/
lemma processCgiHeader_settled {env : Env} {c : Request} (h : c.toOut.Sound S) (hp : c.status.piped)
    (hpipe : c.PipeOk) (hq : S → c.pending = [])
    (hterm : (cstr (c.buffer.drop c.headerLine.off)).length ≤ c.headerEnd.off - c.headerLine.off) :
    Settled S (c.processCgiHeader env) := by
  have hd : ∃ g, g ≠ .parse ∧ (if c.cgiStatus = .done then c else { c with cgiStatus := .buffer }) =
      { c with cgiStatus := g } := by
    split_ifs with hg
    · exact ⟨.done, by simp, by rw [← hg]⟩
    · exact ⟨.buffer, by simp, rfl⟩
  obtain ⟨g, hg, hd⟩ := hd
  obtain ⟨ha, hb, hle, hend, hw⟩ := hpipe hp
  unfold processCgiHeader
  rw [hd]
  dsimp only
  generalize hbuf : cstr (List.drop c.headerLine.off c.buffer) = buf at hterm ⊢
  split
  · exact ⟨fun hn => absurd rfl hn,
      fun _ => (((sendRBadGateway_refused env _).effect (S := S)).sound (by exact h)).over⟩
  next k hk =>
  obtain ⟨hlf, hblank⟩ := findBlankLine_spec hk
  split
  · refine ⟨fun _ => passOn_flow (by exact h) hp hg fun _ => ⟨rfl, hb, ?_, hend, fun _ => hg⟩,
      fun hd => by cases hd⟩
    show c.headerLine.off + blankLineEnd buf k ≤ c.headerEnd.off
    omega
  split
  · next hs =>
    have h8 : 8 ≤ buf.length := by
      rw [← cgiNames.2.1]
      exact startsWithCase_length hs
    have hlen : (store c.buffer (c.headerLine.off - 1) (text "HTTP/1.0 ")).length = bufferSize + 1 := by
      have hsize := h.size
      have h9 := cgiNames.2.2.1
      rw [length_store _ (by omega), hsize, h9]
      unfold bufferSize at *
      omega
    refine ⟨fun _ => passOn_flow (h.rewrite hq hlen) hp hg fun _ => ⟨rfl, hb, ?_, hend, fun _ => hg⟩,
      fun hd => by cases hd⟩
    show c.headerLine.off - 1 ≤ c.headerEnd.off
    omega
  split
  · next hl =>
    have h1 : (if buf.getD 10 0 = slash then sendRBadRequest env { c with cgiStatus := g }
        else cgiLocation env { c with cgiStatus := g } buf).toOut.Sound S := by
      split_ifs
      · exact ((sendRBadRequest_refused env _).effect (S := S)).sound (by exact h)
      · refine cgiLocation_sound (by exact h) hq ?_
        have := locationEnd_lt hlf hl
        show c.headerLine.off + locationEnd buf < bufferSize + 1
        omega
    refine ⟨fun _ => ?_, fun hd => by cases hd⟩
    exact Out.Sound.flowing (Out.setStatus_sound h1 .done) fun hp => absurd hp done_not_piped
  · exact cgiOk_settled (by exact h) hg

lemma logs_flow {c : Request} (h : Flow S c) {es : List Event} (hes : ∀ e ∈ es, e.quiet) :
    Flow S { c with trace := c.trace ++ es } := by
  induction es using List.reverseRecOn with
  | nil => simpa using h
  | append_singleton es e ih =>
    obtain ⟨h1, h2⟩ := hes e (by simp)
    have h3 := ih fun e' he' => hes e' (by simp [he'])
    refine ⟨⟨h3.start_le, h3.end_le, h3.size⟩, h3.steady, fun hS => ?_, h3.pipe⟩
    have hf := h3.flow hS
    show produced (c.trace ++ (es ++ [e])) = sentBytes (c.trace ++ (es ++ [e])) ++ c.pending ++ c.window
    rw [← List.append_assoc, produced_snoc, sentBytes_snoc, h1, h2, List.append_nil]
    exact hf

/-- The part of the buffer behind the window can be changed while nothing is pending. -/
lemma rewrite_flow {c : Request} (h : Flow S c) (hq : S → c.pending = []) {buf : Bytes}
    (hlen : buf.length = bufferSize + 1)
    (hs : c.status.piped → slice buf c.headerLine.off c.headerEnd.off = c.cgiText) :
    Flow S { c with buffer := buf } := by
  have hb : Out.BufOk { c.toOut with buffer := buf } := ⟨h.start_le, h.end_le, hlen⟩
  refine ⟨hb, h.steady, fun hS => ?_, h.pipe⟩
  have hf := h.flow hS
  have hpend : Out.pending { c.toOut with buffer := buf } = [] := by
    have hl := Out.pending_length h.toBufOk
    rw [hq hS, List.length_nil] at hl
    refine Out.pending_eq_nil ?_
    show c.bufferEnd ≤ c.bufferStart
    omega
  have hwin : window { c with buffer := buf } = c.window := by
    unfold window
    by_cases hpp : c.status.piped ∧ c.cgiStatus ≠ .parse
    · rw [if_pos hpp, if_pos (by exact hpp)]
      exact hs hpp.1
    · rw [if_neg hpp, if_neg (by exact hpp)]
  rw [hwin, hpend]
  rw [hq hS] at hf
  exact hf

/-- What the terminator behind the window leaves: the flow, and a string to search. -/
lemma pokeNul_flow {c : Request} (h : Flow S c) (hp : c.status.piped) (hq : S → c.pending = []) :
    ∃ es uri buf, c.pokeNul c.headerEnd.off =
        { c with trace := c.trace ++ es, buffer := buf, requestUri := uri } ∧
      Flow S { c with trace := c.trace ++ es, buffer := buf, requestUri := uri } ∧
      (cstr (buf.drop c.headerLine.off)).length ≤ c.headerEnd.off - c.headerLine.off ∧
      (S → Out.pending { c.toOut with trace := c.trace ++ es, buffer := buf } = []) := by
  obtain ⟨-, -, hle, hend, -⟩ := h.pipe hp
  obtain ⟨es, uri, buf, he, hes, hlen, hslice, hterm⟩ := pokeNul_spec h.size hend
  have h1 := rewrite_flow h hq hlen fun _ => hslice _
  have h2 := logs_flow h1 hes
  refine ⟨es, uri, buf, he, ⟨h2.toBufOk, h2.steady, h2.flow, h2.pipe⟩, hterm _ hle, fun hS => ?_⟩
  have hl := Out.pending_length h.toBufOk
  rw [hq hS, List.length_nil] at hl
  refine Out.pending_eq_nil ?_
  show c.bufferEnd ≤ c.bufferStart
  omega

lemma pipeEof_settled {env : Env} {c : Request} (h : Flow S c) (hp : c.status.piped)
    (hq : S → c.pending = []) : Settled S (c.pipeEof env) := by
  obtain ⟨es, uri, buf, he, hf, hterm, hq'⟩ := pokeNul_flow h hp hq
  have hpipe := h.pipe hp
  have hpw : Status.piped .pipeWrite := .inr rfl
  unfold pipeEof
  rw [he]
  dsimp only
  split
  · next hg =>
    exact processCgiHeader_settled (Out.setStatus_sound (hf.of_parse hg) .pipeWrite) hpw
      (fun _ => ⟨hpipe.1, hpipe.2.1, hpipe.2.2.1, hpipe.2.2.2.1, by simp⟩) hq' hterm
  · next hg =>
    refine ⟨fun _ => ⟨⟨hf.start_le, hf.end_le, hf.size⟩, hf.steady, fun hS => ?_,
      fun _ => ⟨hpipe.1, hpipe.2.1, hpipe.2.2.1, hpipe.2.2.2.1, by simp⟩⟩, fun hd => by cases hd⟩
    have hflow := hf.flow hS
    rw [window_eq (by exact hp) (by exact hg)] at hflow
    rw [window_eq (by exact hpw) (by simp)]
    exact hflow

lemma pipeData_settled {env : Env} {c : Request} {bs : Bytes} (h : Flow S c) (hp : c.status.piped)
    (hq : S → c.pending = []) (hbs : bs.length ≤ bufferSize + 1 - c.headerEnd.off) :
    Settled S (c.pipeData env bs) := by
  obtain ⟨ha, hb, hle, hend, hw⟩ := h.pipe hp
  have hsize := h.size
  have hstore : (store c.buffer c.headerEnd.off bs).length = bufferSize + 1 := by
    rw [length_store bs (by omega), hsize]
    omega
  obtain ⟨es, uri, buf, he, hes, hlen, hslice, hterm⟩ := pokeNul_spec (c := { c with
    buffer := store c.buffer c.headerEnd.off bs
    headerEnd := { c.headerEnd with off := c.headerEnd.off + bs.length } })
    (i := c.headerEnd.off + bs.length) hstore (by omega)
  have hpipe : c.headerLine.off ≤ c.headerEnd.off + bs.length ∧
      c.headerEnd.off + bs.length ≤ bufferSize + 1 := by omega
  have hlog := logs_flow h hes
  have hpend : S → Out.pending { c.toOut with trace := c.trace ++ es, buffer := buf } = [] := by
    intro hS
    have hl := Out.pending_length h.toBufOk
    rw [hq hS, List.length_nil] at hl
    refine Out.pending_eq_nil ?_
    show c.bufferEnd ≤ c.bufferStart
    omega
  have hdef : c.pipeStore bs = { c with
      trace := c.trace ++ es, buffer := buf, requestUri := uri,
      headerEnd := { c.headerEnd with off := c.headerEnd.off + bs.length } } := he
  unfold pipeData
  rw [hdef]
  dsimp only
  split
  · next hg =>
    refine writeFromPipe_settled ⟨⟨h.start_le, h.end_le, hlen⟩, h.steady, fun hS => ?_,
      fun _ => ⟨ha, hb, hpipe.1, hpipe.2, hw⟩⟩ hp hg hpend
    have hf := hlog.flow hS
    have hwin : slice buf c.headerLine.off (c.headerEnd.off + bs.length) = c.cgiText ++ bs := by
      rw [hslice]
      exact slice_store_append bs hle (by omega)
    rw [window_eq (by exact hp) (by exact hg)] at hf ⊢
    show produced ((c.trace ++ es) ++ [.data bs]) = sentBytes ((c.trace ++ es) ++ [.data bs]) ++
      Out.pending { c.toOut with trace := c.trace ++ es, buffer := buf } ++
      slice buf c.headerLine.off (c.headerEnd.off + bs.length)
    have hf' : produced (c.trace ++ es) = sentBytes (c.trace ++ es) ++ c.pending ++ c.cgiText := hf
    rw [produced_snoc, sentBytes_snoc, hwin, hpend hS]
    rw [hq hS] at hf'
    simp [produce, Event.sentBytes, hf']
  · next hg =>
    have hg : c.cgiStatus = .parse := not_not.mp hg
    have hsound : Out.Sound S { c.toOut with trace := c.trace ++ es, buffer := buf } :=
      Out.Sound.rewrite (hlog.of_parse hg) hq hlen
    have hpipeOk : ∀ g : CgiStatus, g = .done ∨ g = .parse → PipeOk { c with
        trace := c.trace ++ es, buffer := buf, requestUri := uri,
        headerEnd := { c.headerEnd with off := c.headerEnd.off + bs.length }, cgiStatus := g } := by
      rintro g (rfl | rfl) _
      · exact ⟨ha, hb, hpipe.1, hpipe.2, by simp⟩
      · exact ⟨ha, hb, hpipe.1, hpipe.2, fun hs => absurd hg (hw hs)⟩
    split
    · refine ⟨fun _ => ⟨hsound.toBufOk, hsound.steady, fun hS => ?_, ?_⟩, fun hd => by cases hd⟩
      · have hnone : window { c with
            trace := c.trace ++ es, buffer := buf, requestUri := uri,
            headerEnd := { c.headerEnd with off := c.headerEnd.off + bs.length } } = [] :=
          if_neg fun hw => hw.2 hg
        rw [hnone, List.append_nil]
        exact hsound.flow hS
      · have := hpipeOk .parse (.inr rfl)
        rw [← hg] at this
        exact this
    · exact processCgiHeader_settled hsound hp (hpipeOk .done (.inl rfl)) hpend
        (hterm _ hpipe.1)

lemma readFromPipe_settled {env : Env} {c : Request} (h : Flow S c) (hp : c.status.piped)
    (hq : S → c.pending = []) : Settled S (c.readFromPipe env) := by
  have hpop : Flow S c.popFile := ⟨⟨h.start_le, h.end_le, h.size⟩, h.steady, h.flow, h.pipe⟩
  obtain ⟨ha, hb, hle, hend, hw⟩ := h.pipe hp
  unfold readFromPipe
  dsimp only
  split
  · split
    · next hg =>
      obtain ⟨es, uri, buf, he, hf, hterm, hq'⟩ := pokeNul_flow h hp hq
      have he' : pokeNul { c with cgiStatus := .buffer } c.headerEnd.off = { c with
          trace := c.trace ++ es, buffer := buf, requestUri := uri, cgiStatus := .buffer } := by
        have := congrArg (fun d : Request => { d with cgiStatus := .buffer }) he
        refine Eq.trans ?_ this
        unfold pokeNul
        split_ifs <;> rfl
      rw [he']
      exact processCgiHeader_settled (hf.of_parse hg) hp
        (fun _ => ⟨ha, hb, hle, hend, by simp⟩) hq' hterm
    · next hg =>
      refine ⟨fun _ => ⟨⟨h.start_le, h.end_le, h.size⟩, h.steady, fun hS => ?_,
        fun _ => ⟨ha, hb, hle, hend, fun _ => hg⟩⟩, fun hd => by cases hd⟩
      have hf := h.flow hS
      rw [window_eq hp hg] at hf
      rw [window_eq (.inr rfl) (by exact hg)]
      exact hf
  · split
    · exact ⟨fun _ => hpop, fun hd => by cases hd⟩
    · exact ⟨fun _ => hpop, fun hd => by cases hd⟩
    · exact ⟨fun hn => absurd rfl hn, fun _ => kill_over hpop⟩
    · exact pipeEof_settled hpop hp hq
    · next bs hbs => exact pipeData_settled hpop hp hq (fit_data hbs).1

end Request
end Boa
