import Boa.Delivery

/-! The output of a child that needs no header from the server: `read_from_pipe`
and `write_from_pipe` pass it on as it is, whatever the pieces. -/
namespace Boa
open Memory

lemma Later.sent {c c' : Request} (h : Later c c') : sentBytes c.trace <+: sentBytes c'.trace := by
  obtain ⟨es, he, -⟩ := h.adds
  rw [he, sentBytes, sentBytes, List.flatMap_append]
  exact List.prefix_append _ _

/-! ### The pipe and its reader -/

/-- What `read` on the pipe does: give at most `n + 1` bytes of what the child has
written, or the end of file when there is nothing more, or fail for now. -/
inductive PipeRead
  | chunk (n : ℕ) | again | intr

def PipeRead.answer (rest : Bytes) : PipeRead → ReadRes
  | .chunk n => if rest = [] then .eof else .data (rest.take (n + 1))
  | .again => .again
  | .intr => .intr

def ReadRes.bytes : ReadRes → Bytes
  | .data bs => bs
  | _ => []

/-- One round of the scheduler: how `read` and `write` behave, with no error but
EAGAIN and EINTR. -/
structure RelayRound where
  env : Env
  read : PipeRead
  write : WriteRes
  write_ok : write ≠ .err

/-- A request, the output of its child that it has not read, whether `read` has
returned 0, and what the last round returned. -/
structure Relay where
  req : Request
  rest : Bytes
  eof : Bool := false
  ret : Ret := .more

/-- A round of a request that goes on. `read` was called if its answer is used up;
it returns no more than it was asked for. -/
def Relay.step (s : Relay) (r : RelayRound) : Relay :=
  if s.ret = .done then s
  else
    let answer := r.read.answer s.rest
    let res := s.req.serveOnce { r.env with file := [answer], sock := [r.write] }
    let c := res.1.heedSigterm r.env
    let got := if c.file = [] then answer.fit (bufferSize + 1 - s.req.headerEnd.off) else .again
    { req := c, rest := s.rest.drop got.bytes.length, eof := s.eof || got == .eof, ret := res.2 }

namespace Request

/-- The state in which `init_cgi` leaves a request whose child needs no header. -/
structure RelayStart (c : Request) : Prop where
  status : c.status = .pipeRead
  mode : c.cgiStatus = .buffer
  line : c.headerLine = ⟨.buffer, 0⟩
  last : c.headerEnd = ⟨.buffer, 0⟩
  size : c.buffer.length = bufferSize + 1
  empty : c.bufferEnd = 0

lemma startPipe_relayStart (env : Env) {c : Request} (hc : c.cgiType ≠ .cgi)
    (hsize : c.buffer.length = bufferSize + 1) (h0 : c.bufferEnd = 0) :
    (c.startPipe env).RelayStart := by
  unfold startPipe
  constructor <;> simp [hc, hsize, h0]

/-- A child's output is being passed on. -/
structure Relaying (c : Request) : Prop where
  piped : c.status.piped
  mode : c.cgiStatus ≠ .parse
  area : c.headerLine.area = .buffer
  le : c.headerLine.off ≤ c.headerEnd.off
  bound : c.headerEnd.off ≤ bufferSize + 1
  size : c.buffer.length = bufferSize + 1
  empty : c.bufferEnd = 0

lemma RelayStart.relaying {c : Request} (h : c.RelayStart) : c.Relaying where
  piped := .inl h.status
  mode := by simp [h.mode]
  area := by simp [h.line]
  le := by simp [h.line, h.last]
  bound := by simp [h.last]
  size := h.size
  empty := h.empty

/-- Something waits for the client, or there is room to read more. -/
def Ready (c : Request) : Prop :=
  c.headerLine.off < c.headerEnd.off ∨ c.status = .pipeRead ∧ c.headerEnd.off ≤ bufferSize

lemma RelayStart.ready {c : Request} (h : c.RelayStart) : c.Ready :=
  .inr ⟨h.status, by simp [h.last]⟩

/-- What reached the client and what waits in the buffer. -/
def relayed (c : Request) : Bytes := sentBytes c.trace ++ c.cgiText

/-- `write_from_pipe` moves bytes from the buffer to the client; it returns 0 only
with nothing left. -/
lemma writeFromPipe_relays {c : Request} (h : c.Relaying) (hw : c.nextWrite ≠ .err) :
    c.writeFromPipe.1.Relaying ∧ c.writeFromPipe.1.relayed = c.relayed ∧
      c.writeFromPipe.1.file = c.file ∧ (c.writeFromPipe.2 = .done → c.writeFromPipe.1.cgiText = []) := by
  have hle := h.le
  have hreset (d : Request) (hm : d.cgiStatus ≠ .parse) (hs : d.buffer.length = bufferSize + 1)
      (he : d.bufferEnd = 0) : ({ d.resetWindow with status := .pipeRead } : Request).Relaying :=
    ⟨.inl rfl, hm, rfl, Nat.le_refl _, Nat.zero_le _, hs, he⟩
  unfold writeFromPipe
  dsimp only
  split
  · next h0 =>
    have hnil : c.cgiText = [] := slice_eq_nil (by unfold lineLength at h0; omega)
    split
    · exact ⟨h, rfl, rfl, fun _ => hnil⟩
    · refine ⟨hreset c h.mode h.size h.empty, ?_, rfl, fun hd => by cases hd⟩
      rw [relayed, relayed, hnil]
      simp [cgiText, resetWindow]
  · split
    · exact ⟨⟨h.piped, h.mode, h.area, h.le, h.bound, h.size, h.empty⟩, rfl, rfl, fun hd => by cases hd⟩
    · exact ⟨⟨h.piped, h.mode, h.area, h.le, h.bound, h.size, h.empty⟩, rfl, rfl, fun hd => by cases hd⟩
    · next he => exact absurd he hw
    · next n _ =>
      have hk : min n c.lineLength ≤ c.lineLength := min_le_right _ _
      generalize min n c.lineLength = k at hk ⊢
      have hkl : c.headerLine.off + k ≤ c.headerEnd.off := by unfold lineLength at hk; omega
      have hsplit : slice c.buffer c.headerLine.off (c.headerLine.off + k) ++
          slice c.buffer (c.headerLine.off + k) c.headerEnd.off = c.cgiText :=
        slice_append_slice (Nat.le_add_right _ _) hkl
      have hl : c.lineText k = slice c.buffer c.headerLine.off (c.headerLine.off + k) := by
        simp only [lineText, h.area]
      split
      · next hall =>
        refine ⟨hreset _ h.mode h.size h.empty, ?_, rfl, fun hd => by cases hd⟩
        have hend : slice c.buffer (c.headerLine.off + k) c.headerEnd.off = [] :=
          slice_eq_nil (by unfold lineLength at hall; omega)
        rw [hend, List.append_nil] at hsplit
        simp [relayed, cgiText, resetWindow, popSock, Request.log, Event.sentBytes, hl] at hsplit ⊢
        exact hsplit
      · refine ⟨⟨h.piped, h.mode, h.area, hkl, h.bound, h.size, h.empty⟩, ?_, rfl, fun hd => by cases hd⟩
        simp [relayed, cgiText, popSock, Request.log, Event.sentBytes, hl] at hsplit ⊢
        exact hsplit

/-- It goes on as long as there is something to write. -/
lemma writeFromPipe_ready {c : Request} (h : c.headerLine.off < c.headerEnd.off)
    (hw : c.nextWrite ≠ .err) : c.writeFromPipe.1.Ready ∧ c.writeFromPipe.2 ≠ .done := by
  unfold writeFromPipe
  dsimp only
  split
  · next h0 =>
    unfold lineLength at h0
    omega
  · split
    · exact ⟨.inl h, by simp⟩
    · exact ⟨.inl h, by simp⟩
    · next he => exact absurd he hw
    · split
      · exact ⟨.inr ⟨rfl, Nat.zero_le _⟩, by simp⟩
      · next n _ hn =>
        refine ⟨.inl ?_, by simp⟩
        show c.headerLine.off + min n c.lineLength < c.headerEnd.off
        unfold lineLength at hn ⊢
        omega

/-- New bytes stand behind those that wait. -/
lemma pipeStore_relays {c : Request} (h : c.Relaying) {bs : Bytes}
    (hbs : bs.length ≤ bufferSize + 1 - c.headerEnd.off) :
    (c.pipeStore bs).Relaying ∧ (c.pipeStore bs).relayed = c.relayed ++ bs ∧
      (c.pipeStore bs).headerLine = c.headerLine ∧
      (c.pipeStore bs).headerEnd.off = c.headerEnd.off + bs.length ∧
      (c.pipeStore bs).file = c.file ∧ (c.pipeStore bs).sock = c.sock := by
  have hle := h.le
  have hbound := h.bound
  have hsize := h.size
  have hstore : (store c.buffer c.headerEnd.off bs).length = bufferSize + 1 := by
    rw [length_store bs (by omega), hsize]
    omega
  obtain ⟨es, uri, buf, he, hes, hlen, hslice, -⟩ := pokeNul_spec (c := { c with
    buffer := store c.buffer c.headerEnd.off bs
    headerEnd := { c.headerEnd with off := c.headerEnd.off + bs.length } })
    (i := c.headerEnd.off + bs.length) hstore (by omega)
  have hdef : c.pipeStore bs = { c with
      trace := c.trace ++ es, buffer := buf, requestUri := uri,
      headerEnd := { c.headerEnd with off := c.headerEnd.off + bs.length } } := he
  have hquiet : es.flatMap Event.sentBytes = [] :=
    List.flatMap_eq_nil_iff.mpr fun e he => (hes e he).2
  have htext : slice buf c.headerLine.off (c.headerEnd.off + bs.length) = c.cgiText ++ bs := by
    rw [hslice]
    exact slice_store_append bs hle (by omega)
  rw [hdef]
  refine ⟨⟨h.piped, h.mode, h.area, ?_, ?_, hlen, h.empty⟩, ?_, rfl, rfl, rfl, rfl⟩
  · exact Nat.le_trans hle (Nat.le_add_right _ _)
  · show c.headerEnd.off + bs.length ≤ bufferSize + 1
    omega
  · show sentBytes (c.trace ++ es) ++ slice buf c.headerLine.off (c.headerEnd.off + bs.length) = _
    rw [htext]
    simp [sentBytes, hquiet, relayed]

/-- The end of file changes nothing that waits. -/
lemma pipeEof_relays (env : Env) {c : Request} (h : c.Relaying) :
    (c.pipeEof env).1.Relaying ∧ (c.pipeEof env).1.relayed = c.relayed ∧
      (c.pipeEof env).1.file = c.file ∧ (c.pipeEof env).2 = .more := by
  obtain ⟨es, uri, buf, he, hes, hlen, hslice, -⟩ := pokeNul_spec h.size h.bound
  have hquiet : es.flatMap Event.sentBytes = [] :=
    List.flatMap_eq_nil_iff.mpr fun e he => (hes e he).2
  unfold pipeEof
  rw [he]
  dsimp only
  rw [if_neg h.mode]
  refine ⟨⟨.inr rfl, by simp, h.area, h.le, h.bound, hlen, h.empty⟩, ?_, rfl, rfl⟩
  show sentBytes (c.trace ++ es) ++ slice buf c.headerLine.off c.headerEnd.off = _
  rw [hslice]
  simp [sentBytes, hquiet, relayed, cgiText]

/-- `read_from_pipe` appends what it reads, and reads unless the buffer is full. -/
lemma readFromPipe_relays (env : Env) {c : Request} (h : c.Relaying) (hw : c.nextWrite ≠ .err)
    (hr : c.nextFile (bufferSize + 1 - c.headerEnd.off) ≠ .err) :
    (c.readFromPipe env).1.Relaying ∧
    ((c.readFromPipe env).2 = .done → (c.readFromPipe env).1.cgiText = []) ∧
    (((c.readFromPipe env).1.file = c.file ∧ (c.readFromPipe env).1.relayed = c.relayed) ∨
      (c.headerEnd.off < bufferSize + 1 ∧ (c.readFromPipe env).1.file = c.file.tail ∧
        (c.readFromPipe env).1.relayed =
          c.relayed ++ (c.nextFile (bufferSize + 1 - c.headerEnd.off)).bytes)) := by
  have hpop : c.popFile.Relaying := ⟨h.piped, h.mode, h.area, h.le, h.bound, h.size, h.empty⟩
  unfold readFromPipe
  dsimp only
  split
  · rw [if_neg h.mode]
    exact ⟨⟨.inr rfl, h.mode, h.area, h.le, h.bound, h.size, h.empty⟩, by simp, .inl ⟨rfl, rfl⟩⟩
  · next hroom =>
    have hlt : c.headerEnd.off < bufferSize + 1 := by omega
    split
    · next he => exact ⟨hpop, by simp, .inr ⟨hlt, rfl, by simp [he, ReadRes.bytes]; rfl⟩⟩
    · next he => exact ⟨hpop, by simp, .inr ⟨hlt, rfl, by simp [he, ReadRes.bytes]; rfl⟩⟩
    · next he => exact absurd he hr
    · next he =>
      obtain ⟨h1, h2, h3, h4⟩ := pipeEof_relays env hpop
      refine ⟨h1, by simp [h4], .inr ⟨hlt, h3, ?_⟩⟩
      rw [h2, he]
      exact (List.append_nil _).symm
    · next bs he =>
      obtain ⟨h1, h2, -, -, h3, h4⟩ := pipeStore_relays hpop (fit_data he).1
      have hlog : ((c.popFile.pipeStore bs).log (.data bs)).Relaying :=
        ⟨h1.piped, h1.mode, h1.area, h1.le, h1.bound, h1.size, h1.empty⟩
      have hsent : ((c.popFile.pipeStore bs).log (.data bs)).relayed = c.relayed ++ bs := by
        refine Eq.trans ?_ h2
        simp [relayed, Request.log, Event.sentBytes, cgiText]
      have hnext : ((c.popFile.pipeStore bs).log (.data bs)).nextWrite ≠ .err := by
        show (c.popFile.pipeStore bs).sock.head?.getD .again ≠ _
        rw [h4]
        exact hw
      obtain ⟨k1, k2, k3, k4⟩ := writeFromPipe_relays hlog hnext
      unfold pipeData
      dsimp only
      rw [if_pos h1.mode]
      refine ⟨k1, k4, .inr ⟨hlt, k3.trans h3, ?_⟩⟩
      rw [k2, hsent, he]
      rfl

/-- Before the end of file it goes on. -/
lemma readFromPipe_ready (env : Env) {c : Request} (h : c.Relaying) (hready : c.Ready)
    (hw : c.nextWrite ≠ .err) (hr : c.nextFile (bufferSize + 1 - c.headerEnd.off) ≠ .err) :
    (c.readFromPipe env).2 ≠ .done ∧
      ((c.readFromPipe env).1.Ready ∨ (c.readFromPipe env).1.file = c.file.tail ∧
        c.nextFile (bufferSize + 1 - c.headerEnd.off) = .eof) := by
  have hpop : c.popFile.Relaying := ⟨h.piped, h.mode, h.area, h.le, h.bound, h.size, h.empty⟩
  unfold readFromPipe
  dsimp only
  split
  · next hfull =>
    rw [if_neg h.mode]
    refine ⟨by simp, .inl (.inl (hready.resolve_right fun hroom => ?_))⟩
    have hle := hroom.2
    omega
  · split
    · exact ⟨by simp, .inl hready⟩
    · exact ⟨by simp, .inl hready⟩
    · next he => exact absurd he hr
    · next he =>
      obtain ⟨-, -, h3, h4⟩ := pipeEof_relays env hpop
      exact ⟨by simp [h4], .inr ⟨h3, he⟩⟩
    · next bs he =>
      obtain ⟨h1, -, h2, h3, -, h4⟩ := pipeStore_relays hpop (fit_data he).1
      have hpos : 0 < bs.length := List.length_pos_iff.mpr (fit_data he).2
      have hle := h.le
      have hlt : (c.popFile.pipeStore bs).headerLine.off < (c.popFile.pipeStore bs).headerEnd.off := by
        rw [h2, h3]
        show c.headerLine.off < c.headerEnd.off + bs.length
        omega
      unfold pipeData
      dsimp only
      rw [if_pos h1.mode]
      have hnext : ((c.popFile.pipeStore bs).log (.data bs)).nextWrite ≠ .err := by
        show (c.popFile.pipeStore bs).sock.head?.getD .again ≠ _
        rw [h4]
        exact hw
      obtain ⟨k1, k2⟩ := writeFromPipe_ready (c := (c.popFile.pipeStore bs).log (.data bs)) hlt hnext
      exact ⟨k2, .inl k1⟩

lemma heedSigterm_relays {c : Request} (env : Env) (h : c.Relaying) :
    (c.heedSigterm env).Relaying ∧ (c.heedSigterm env).relayed = c.relayed ∧
      (c.heedSigterm env).file = c.file ∧ (c.heedSigterm env).cgiText = c.cgiText ∧
      (c.Ready → (c.heedSigterm env).Ready) := by
  unfold heedSigterm
  split_ifs
  · exact ⟨⟨h.piped, h.mode, h.area, h.le, h.bound, h.size, h.empty⟩, rfl, rfl, rfl, id⟩
  · exact ⟨h, rfl, rfl, rfl, id⟩

/-- With nothing queued, a round runs one of the two pipe routines. -/
lemma serveOnce_relaying (env : Env) {c : Request} (hp : c.status.piped) (h0 : c.bufferEnd = 0) :
    (c.status = .pipeRead ∧ c.serveOnce env = (c.arm env).readFromPipe env) ∨
      (c.status = .pipeWrite ∧ c.serveOnce env = (c.arm env).writeFromPipe) := by
  have hflush : (c.arm env).flushFirst = (c.arm env, .more) := by
    unfold flushFirst
    exact if_neg fun hb => hb.1 h0
  unfold serveOnce
  rw [hflush]
  have hstatus : (c.arm env).status = c.status := rfl
  dsimp only [handle]
  rcases hp with hs | hs
  · exact .inl ⟨hs, by rw [hstatus, hs]⟩
  · exact .inr ⟨hs, by rw [hstatus, hs]⟩

lemma heedSigterm_trace (env : Env) (c : Request) : (c.heedSigterm env).trace = c.trace := by
  unfold heedSigterm
  split_ifs <;> rfl

lemma serveOnce_sent {env : Env} {c : Request} (h : c.Relaying) :
    sentBytes c.trace <+: sentBytes (c.serveOnce env).1.trace := by
  obtain ⟨-, hs⟩ | ⟨-, hs⟩ := serveOnce_relaying env h.piped h.empty
  · have hl := (readFromPipe_later env (c.arm env)).sent
    rw [hs]
    exact hl
  · have hl := (writeFromPipe_later (c.arm env)).sent
    rw [hs]
    exact hl

end Request

/-- What the pipe gives is the next part of the output. -/
lemma PipeRead.fit_answer (r : PipeRead) (rest : Bytes) (room : ℕ) :
    ((r.answer rest).fit room).bytes ++ rest.drop ((r.answer rest).fit room).bytes.length = rest := by
  cases r with
  | chunk n =>
    unfold answer
    split_ifs with hr
    · simp [ReadRes.fit, ReadRes.bytes]
    · unfold ReadRes.fit
      dsimp only
      split_ifs
      · simp [ReadRes.bytes]
      · rw [ReadRes.bytes, List.take_take]
        exact List.prefix_iff_eq_append.mp (List.take_prefix _ _)
  | again => simp [answer, ReadRes.fit, ReadRes.bytes]
  | intr => simp [answer, ReadRes.fit, ReadRes.bytes]

lemma PipeRead.fit_eof {r : PipeRead} {rest : Bytes} {room : ℕ} (hroom : 0 < room)
    (h : (r.answer rest).fit room = .eof) : rest = [] := by
  cases r with
  | chunk n =>
    unfold answer at h
    split_ifs at h with hr
    · exact hr
    · simp only [ReadRes.fit, List.take_take] at h
      split_ifs at h with ht
      have hzero : room = 0 := by simpa [List.take_eq_nil_iff, hr] using ht
      omega
  | again => simp [answer, ReadRes.fit] at h
  | intr => simp [answer, ReadRes.fit] at h

/-- The output of the child is where it belongs: with the client, in the buffer or
still in the pipe, in this order. -/
structure Relay.Ok (start out : Bytes) (s : Relay) : Prop where
  relaying : s.req.Relaying
  stream : s.req.relayed ++ s.rest = start ++ out
  ready : s.eof ∨ s.req.Ready
  drained : s.eof → s.rest = []
  finished : s.ret = .done → s.eof ∧ s.req.cgiText = []
  grows : start <+: sentBytes s.req.trace

/-- The pipe does not fail. -/
lemma PipeRead.fit_ne_err (r : PipeRead) (rest : Bytes) (room : ℕ) : (r.answer rest).fit room ≠ .err := by
  intro he
  cases r with
  | chunk n =>
    unfold answer at he
    split_ifs at he
    · simp [ReadRes.fit] at he
    · simp only [ReadRes.fit] at he
      split_ifs at he
  | again => simp [answer, ReadRes.fit] at he
  | intr => simp [answer, ReadRes.fit] at he

/-- A round either leaves the pipe alone or takes the next bytes from it; before the
end of file it goes on. -/
lemma Request.serveOnce_relays {c : Request} (h : c.Relaying) (r : RelayRound) (rest : Bytes) {env : Env}
    (henv : env = { r.env with file := [r.read.answer rest], sock := [r.write] }) :
    (c.serveOnce env).1.Relaying ∧
    ((c.serveOnce env).2 = .done → (c.serveOnce env).1.cgiText = []) ∧
    (((c.serveOnce env).1.file ≠ [] ∧ (c.serveOnce env).1.relayed = c.relayed) ∨
      (c.headerEnd.off < bufferSize + 1 ∧ (c.serveOnce env).1.file = [] ∧
        (c.serveOnce env).1.relayed = c.relayed ++
          ((r.read.answer rest).fit (bufferSize + 1 - c.headerEnd.off)).bytes)) ∧
    (c.Ready → (c.serveOnce env).2 ≠ .done ∧ ((c.serveOnce env).1.Ready ∨
      (c.serveOnce env).1.file = [] ∧
        (r.read.answer rest).fit (bufferSize + 1 - c.headerEnd.off) = .eof)) := by
  have hfile : (c.arm env).file = [r.read.answer rest] := by
    subst henv
    rfl
  have harm : (c.arm env).Relaying := ⟨h.piped, h.mode, h.area, h.le, h.bound, h.size, h.empty⟩
  have hwrite : (c.arm env).nextWrite ≠ .err := by
    subst henv
    exact r.write_ok
  have hnext : (c.arm env).nextFile (bufferSize + 1 - c.headerEnd.off) =
      (r.read.answer rest).fit (bufferSize + 1 - c.headerEnd.off) := by
    rw [nextFile, hfile]
    rfl
  have hread : (c.arm env).nextFile (bufferSize + 1 - (c.arm env).headerEnd.off) ≠ .err :=
    fun he => r.read.fit_ne_err rest _ (hnext.symm.trans he)
  obtain ⟨-, hs⟩ | ⟨hstatus, hs⟩ := serveOnce_relaying env h.piped h.empty
  · rw [hs]
    obtain ⟨h1, h2, h3⟩ := readFromPipe_relays env harm hwrite hread
    refine ⟨h1, h2, ?_, fun hready => ?_⟩
    · obtain ⟨h3, h4⟩ | ⟨h3, h4, h5⟩ := h3
      · exact .inl ⟨by simp [h3, hfile], h4⟩
      · exact .inr ⟨h3, by simp [h4, hfile], hnext ▸ h5⟩
    · obtain ⟨k1, k2⟩ := readFromPipe_ready env harm hready hwrite hread
      exact ⟨k1, k2.imp_right fun k => ⟨by simp [k.1, hfile], hnext ▸ k.2⟩⟩
  · rw [hs]
    obtain ⟨h1, h2, h3, h4⟩ := writeFromPipe_relays harm hwrite
    refine ⟨h1, h4, .inl ⟨by simp [h3, hfile], h2⟩, fun hready => ?_⟩
    have hlt := hready.resolve_right fun hr => by simp [hstatus] at hr
    obtain ⟨k1, k2⟩ := writeFromPipe_ready (c := c.arm env) hlt hwrite
    exact ⟨k2, .inl k1⟩

lemma Relay.Ok.step {start out : Bytes} {s : Relay} (h : s.Ok start out) (r : RelayRound) :
    (s.step r).Ok start out := by
  unfold Relay.step
  split_ifs with hret
  · exact h
  dsimp only
  generalize henv : ({ r.env with file := [r.read.answer s.rest], sock := [r.write] } : Env) = env
  obtain ⟨h1, hdone, hcase, hready⟩ := Request.serveOnce_relays h.relaying r s.rest henv.symm
  obtain ⟨k1, k2, k3, k4, k5⟩ := Request.heedSigterm_relays r.env h1
  have hstream := h.stream
  have hgrows : sentBytes s.req.trace <+: sentBytes ((s.req.serveOnce env).1.heedSigterm r.env).trace := by
    rw [Request.heedSigterm_trace]
    exact Request.serveOnce_sent h.relaying
  obtain ⟨hf, hrel⟩ | ⟨hroom, hf, hrel⟩ := hcase
  · rw [k3, if_neg hf]
    refine ⟨k1, ?_, ?_, fun he => ?_, fun hd => ?_, ?_⟩
    · rw [k2, hrel]
      exact hstream
    · refine h.ready.imp (fun he => by simp [he]) fun hr => k5 ?_
      exact (hready hr).2.resolve_right fun hn => hf hn.1
    · have he' : s.eof = true := by simpa using he
      simp [h.drained he', ReadRes.bytes]
    · have he : s.eof := h.ready.resolve_right fun hr => (hready hr).1 hd
      exact ⟨by simp [he], by rw [k4]; exact hdone hd⟩
    · exact h.grows.trans hgrows
  · rw [k3, if_pos hf]
    have hsplit := r.read.fit_answer s.rest (bufferSize + 1 - s.req.headerEnd.off)
    refine ⟨k1, ?_, ?_, fun he => ?_, fun hd => ?_, ?_⟩
    · rw [k2, hrel, List.append_assoc, hsplit]
      exact hstream
    · obtain he | hr := h.ready
      · simp [he]
      · obtain hr | ⟨-, heof⟩ := (hready hr).2
        · exact .inr (k5 hr)
        · simp [heof]
    · have hrest : s.rest = [] := by
        rw [Bool.or_eq_true] at he
        obtain he | he := he
        · exact h.drained he
        · exact PipeRead.fit_eof (Nat.sub_pos_of_lt hroom) (eq_of_beq he)
      simp [hrest]
    · have he : s.eof := h.ready.resolve_right fun hr => (hready hr).1 hd
      exact ⟨by simp [he], by rw [k4]; exact hdone hd⟩
    · exact h.grows.trans hgrows

lemma Relay.Ok.run {start out : Bytes} {s : Relay} (h : s.Ok start out) (rounds : List RelayRound) :
    (rounds.foldl Relay.step s).Ok start out := by
  induction rounds generalizing s with
  | nil => exact h
  | cons r rounds ih => exact ih (h.step r)

/-- The output of the child reaches the client unchanged: at any time what the
client has got is followed by what waits in the buffer and what is still in the
pipe, and the request ends only when all of it was read and sent. -/
theorem relay_fidelity {c : Request} (h : c.RelayStart) (out : Bytes) (rounds : List RelayRound) :
    let s := rounds.foldl Relay.step { req := c, rest := out }
    (∃ got, sentBytes s.req.trace = sentBytes c.trace ++ got ∧
      out = got ++ s.req.cgiText ++ s.rest) ∧
    (s.ret = .done → s.eof ∧ sentBytes s.req.trace = sentBytes c.trace ++ out) := by
  have hinit : Relay.Ok (sentBytes c.trace) out { req := c, rest := out } := by
    refine ⟨h.relaying, ?_, .inr h.ready, by simp, by simp, List.prefix_refl _⟩
    simp [Request.relayed, Request.cgiText, h.line, h.last]
  have hok := hinit.run rounds
  intro s
  obtain ⟨got, hgot⟩ := hok.grows
  have hstream : got ++ s.req.cgiText ++ s.rest = out := by
    have := hok.stream
    rw [Request.relayed, ← hgot] at this
    simpa using this
  refine ⟨⟨got, hgot.symm, hstream.symm⟩, fun hd => ?_⟩
  obtain ⟨heof, hnil⟩ := hok.finished hd
  refine ⟨heof, ?_⟩
  rw [hok.drained heof, hnil] at hstream
  rw [← hgot, ← hstream]
  simp

def relayRequest : Request :=
  { status := .pipeRead, cgiStatus := .buffer, headerLine := ⟨.buffer, 0⟩, headerEnd := ⟨.buffer, 0⟩,
    buffer := List.replicate (bufferSize + 1) 0 }

/-- Reads and writes of any size. -/
def relayRounds : List RelayRound :=
  [⟨tinyEnv, .chunk 1, .wrote 1, by simp⟩, ⟨tinyEnv, .intr, .again, by simp⟩,
    ⟨tinyEnv, .chunk 5, .wrote 1, by simp⟩, ⟨tinyEnv, .chunk 0, .wrote 9, by simp⟩,
    ⟨tinyEnv, .chunk 0, .wrote 9, by simp⟩, ⟨tinyEnv, .chunk 0, .wrote 9, by simp⟩,
    ⟨tinyEnv, .chunk 0, .wrote 9, by simp⟩]

theorem relay_fidelity_three : relayRequest.RelayStart ∧
    sentBytes (relayRounds.foldl Relay.step { req := relayRequest, rest := [1, 2, 3] }).req.trace =
      [1, 2, 3] := by
  have hstart : relayRequest.RelayStart := ⟨rfl, rfl, rfl, rfl, by simp [relayRequest], rfl⟩
  have hend : (relayRounds.foldl Relay.step { req := relayRequest, rest := [1, 2, 3] }).ret = .done := by
    decide +kernel
  exact ⟨hstart, ((relay_fidelity hstart [1, 2, 3] relayRounds).2 hend).2⟩

end Boa
