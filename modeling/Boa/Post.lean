import Boa.Relay
import Boa.Stream

/-! The body of a POST: what `read_header`, `read_body` and `write_body` put into
the temporary file, whatever the pieces it arrives in. -/
namespace Boa
open Memory

/-! ### The client and the temporary file -/

/-- One round: how `read` on the client socket and `write` to the file behave. -/
structure PostRound where
  env : Env
  read : PipeRead
  write : WriteRes

/-- A request, what the client sends and was not read yet, and what the last round
returned. -/
structure Posting where
  req : Request
  rest : Bytes
  ret : Ret := .more

/-- The number of bytes `read_header` or `read_body` asks for. -/
def Request.readRoom (c : Request) : ℕ :=
  if c.status.inHeader then clientStreamSize - c.clientStreamPos
  else min (c.filesize - c.filepos) (bufferSize - c.lineLength)

/-- A round of a request that goes on; `read` was called if its answer is used up. -/
def Posting.step (s : Posting) (r : PostRound) : Posting :=
  if s.ret = .done then s
  else
    let answer := r.read.answer s.rest
    let res := s.req.serveOnce { r.env with client := [answer], post := [r.write] }
    let c := res.1.heedSigterm r.env
    let got := if c.client = [] then answer.fit s.req.readRoom else .again
    { req := c, rest := s.rest.drop got.bytes.length, ret := res.2 }

namespace Request

/-- A request of which nothing was parsed. -/
structure Fresh (c : Request) : Prop where
  status : c.status = .readHeader
  pos : c.parsePos = 0
  start : c.bufferStart = 0
  empty : c.bufferEnd = 0
  size : c.buffer.length = bufferSize + 1
  posted : postedBytes c.trace = []

/-- The part of a body that was read and not written. -/
def bodyText (c : Request) : Bytes := c.lineText c.lineLength

/-- `write_body` has nothing more to write or to wait for. -/
def BodyDone (c : Request) : Prop :=
  min c.lineLength (c.filesize - c.filepos) = 0 ∧ c.filesize ≤ c.filepos

/-- `write_body` without its call of `init_cgi`. -/
def writeChunk (env : Env) (c : Request) : Request × Ret :=
  let toWrite := min c.lineLength (c.filesize - c.filepos)
  if toWrite = 0 then ({ c.resetWindow with status := .bodyRead }, .more)
  else
    let res := c.post.head?.getD .again
    let c := { c with post := c.post.tail }
    match res with
    | .again => (c, .blocked)
    | .intr => (c, .more)
    | .err => (c.boaPerror env, .done)
    | .wrote n =>
      let n := min n toWrite
      let c := c.log (.posted (c.lineText n))
      ({ c with
        filepos := c.filepos + n
        headerLine := { c.headerLine with off := c.headerLine.off + n } }, .more)

lemma writeBody_of_done {env : Env} {c : Request} (h : c.BodyDone) :
    c.writeBody env = c.resetWindow.initCgi env := by
  unfold writeBody
  dsimp only
  rw [if_pos h.1, if_pos h.2]
  rfl

lemma writeBody_of_not_done {env : Env} {c : Request} (h : ¬ c.BodyDone) :
    c.writeBody env = c.writeChunk env := by
  unfold writeBody writeChunk
  dsimp only
  split_ifs with h0 h1
  · exact absurd ⟨h0, h1⟩ h
  · rfl
  · rfl

/-- A round of the body that does not reach `init_cgi`. -/
def bodyRound (env : Env) (c : Request) : Request × Ret :=
  if c.status = .bodyRead then c.readBody env else c.writeChunk env

/-! ### The body -/

lemma lineText_take {c : Request} {m n : ℕ} (h : n ≤ m) : c.lineText n = (c.lineText m).take n := by
  have hmin : min n m = n := min_eq_left h
  cases ha : c.headerLine.area <;>
    simp [lineText, ha, slice, List.take_take, hmin]

/-- The window after its first `n` bytes were written. -/
lemma bodyText_drop {c d : Request} {n : ℕ} (hn : n ≤ c.lineLength)
    (hbuf : d.buffer = c.buffer) (hstream : d.clientStream = c.clientStream)
    (hline : d.headerLine = { c.headerLine with off := c.headerLine.off + n })
    (hend : d.headerEnd = c.headerEnd) : d.bodyText = c.bodyText.drop n := by
  have hlen : d.lineLength = c.lineLength - n := by
    simp only [lineLength, hline, hend]
    omega
  unfold bodyText
  rw [hlen]
  cases ha : c.headerLine.area <;>
    simp only [lineText, hline, ha, hbuf, hstream, slice, List.drop_take, List.drop_drop] <;>
    congr 1 <;> omega

end Request

/-- The state of a body: the bytes written, those in the window and those that
still have to be read make up what follows the header. `B` is all that follows it. -/
structure BodyOk (B rest : Bytes) (c : Request) : Prop where
  live : Live False c
  phase : c.status = .bodyRead ∨ c.status = .bodyWrite
  size : c.contentLength.bind boaAtoi = some c.filesize
  pos : c.filepos = (postedBytes c.trace).length
  text : c.bodyText.length = c.lineLength
  bound : c.filepos + c.lineLength ≤ c.filesize
  flow : postedBytes c.trace ++ c.bodyText <+: B
  more : c.filepos + c.lineLength < c.filesize → postedBytes c.trace ++ c.bodyText ++ rest = B
  reading : c.status = .bodyRead → c.filepos < c.filesize

/-- The states of a POST up to `init_cgi`; `T` is all that the client sends. -/
inductive PostOk (T rest : Bytes) (c : Request) : Prop
  | head (h : Parsing False c) (hm : c.Marked) (hle : c.parsePos ≤ c.clientStream.length)
      (hstream : c.clientStream.drop c.parsePos ++ rest = T.drop c.parsePos)
      (hposted : postedBytes c.trace = [])
  | body (h : BodyOk (T.drop c.parsePos) rest c)
  | later (h : 6 ≤ c.status.rank)

open Request in
/-- The first `k` bytes of the window are written. -/
lemma BodyOk.advance {B rest : Bytes} {c d : Request} {k : ℕ} (h : BodyOk B rest c)
    (hk : k ≤ c.lineLength) (hlive : Live False d) (hstatus : d.status = .bodyWrite)
    (hlength : d.contentLength = c.contentLength) (hsize : d.filesize = c.filesize)
    (hpos : d.filepos = c.filepos + k) (htrace : d.trace = c.trace ++ [.posted (c.lineText k)])
    (hbuf : d.buffer = c.buffer) (hstream : d.clientStream = c.clientStream)
    (hline : d.headerLine = { c.headerLine with off := c.headerLine.off + k })
    (hend : d.headerEnd = c.headerEnd) : BodyOk B rest d := by
  have hposted : postedBytes d.trace = postedBytes c.trace ++ c.bodyText.take k := by
    rw [htrace, postedBytes_snoc, lineText_take hk]
    rfl
  have htext : d.bodyText = c.bodyText.drop k := bodyText_drop hk hbuf hstream hline hend
  have hlen : d.lineLength = c.lineLength - k := by
    simp only [lineLength, hline, hend]
    omega
  have hsplit : postedBytes d.trace ++ d.bodyText = postedBytes c.trace ++ c.bodyText := by
    rw [hposted, htext, List.append_assoc, List.take_append_drop]
  have htl := h.text
  have hbound := h.bound
  refine ⟨hlive, .inr hstatus, by rw [hlength, hsize]; exact h.size, ?_, ?_, ?_, ?_, ?_, ?_⟩
  · rw [hpos, hposted, List.length_append, List.length_take, h.pos]
    omega
  · rw [htext, hlen, List.length_drop, htl]
  · rw [hpos, hlen, hsize]
    omega
  · rw [hsplit]
    exact h.flow
  · intro hlt
    rw [hpos, hlen, hsize] at hlt
    rw [hsplit]
    exact h.more (by omega)
  · intro hread
    rw [hstatus] at hread
    cases hread

open Request in
/-- New bytes in an empty window. -/
lemma BodyOk.fill {B rest rest' bs : Bytes} {c d : Request} (h : BodyOk B rest c)
    (hs : c.status = .bodyRead) (hrest : bs ++ rest' = rest) (hfit : bs.length ≤ c.filesize - c.filepos)
    (hlive : Live False d) (hstatus : d.status = .bodyWrite)
    (hlength : d.contentLength = c.contentLength) (hsize : d.filesize = c.filesize)
    (hpos : d.filepos = c.filepos) (htrace : d.trace = c.trace)
    (hline : d.headerLine = ⟨.buffer, 0⟩) (hend : d.headerEnd = ⟨.buffer, bs.length⟩)
    (hbuf : d.buffer = store c.buffer 0 bs) : BodyOk B rest' d := by
  obtain ⟨hl, he⟩ := h.live.body hs
  have hnil : c.bodyText = [] := by simp [bodyText, Request.lineText, lineLength, hl, he]
  have hlt := h.reading hs
  have hB : postedBytes c.trace ++ rest = B := by
    have hlen : c.lineLength = 0 := by simp [lineLength, hl, he]
    simpa [hnil] using h.more (by omega)
  have htext : d.bodyText = bs := by
    simp only [bodyText, Request.lineText, lineLength, hline, hend, hbuf]
    simpa using slice_store_self bs (Nat.zero_le c.buffer.length)
  have hlen : d.lineLength = bs.length := by simp [lineLength, hline, hend]
  refine ⟨hlive, .inr hstatus, by rw [hlength, hsize]; exact h.size, ?_, ?_, ?_, ?_, ?_, ?_⟩
  · rw [hpos, htrace]
    exact h.pos
  · rw [htext, hlen]
  · rw [hpos, hlen, hsize]
    omega
  · rw [htrace, htext, ← hB, ← hrest, ← List.append_assoc]
    exact List.prefix_append _ _
  · intro _
    rw [htrace, htext, List.append_assoc, hrest, hB]
  · intro hread
    rw [hstatus] at hread
    cases hread

namespace Request

/-- The set-up of the body: what was read with the header is its beginning. -/
lemma startBody_bodyOk {env : Env} {c : Request} {B rest : Bytes}
    (hB : c.clientStream.drop c.parsePos ++ rest = B)
    (hposted : postedBytes c.trace = []) (hr : (c.startBody env).2 ≠ .done)
    (hlive : Live False (c.startBody env).1) : BodyOk B rest (c.startBody env).1 := by
  unfold startBody at hr hlive ⊢
  dsimp only at hr hlive ⊢
  cases hn : c.contentLength.bind boaAtoi with
  | none =>
    simp only [hn] at hr
    exact absurd rfl hr
  | some n =>
    simp only [hn] at hr hlive ⊢
    split_ifs at hr hlive ⊢ with hlimit hshort
    · exact absurd rfl hr
    · have hlen : n < c.clientStream.length - c.parsePos := hshort
      have htext : slice c.clientStream c.parsePos (c.parsePos + (c.parsePos + n - c.parsePos)) =
          (c.clientStream.drop c.parsePos).take n := by
        unfold slice
        congr 1
        omega
      have hpre : (c.clientStream.drop c.parsePos).take n <+: B :=
        hB ▸ (List.take_prefix _ _).trans (List.prefix_append _ _)
      refine ⟨hlive, .inr rfl, hn, by simp [hposted], ?_, ?_, ?_, ?_, by simp⟩
      · show (slice c.clientStream c.parsePos (c.parsePos + (c.parsePos + n - c.parsePos))).length = _
        rw [htext]
        simp only [List.length_take, List.length_drop, lineLength]
        omega
      · simp only [lineLength]
        omega
      · show postedBytes c.trace ++ slice c.clientStream c.parsePos
          (c.parsePos + (c.parsePos + n - c.parsePos)) <+: B
        rw [htext, hposted]
        exact hpre
      · intro hlt
        simp only [lineLength] at hlt
        omega
    · have hlen : c.clientStream.length - c.parsePos ≤ n := Nat.le_of_not_lt hshort
      have htext : slice c.clientStream c.parsePos
          (c.parsePos + (c.clientStream.length - c.parsePos)) = c.clientStream.drop c.parsePos := by
        unfold slice
        rw [Nat.add_sub_cancel_left]
        exact List.take_of_length_le (by simp)
      refine ⟨hlive, .inr rfl, hn, by simp [hposted], ?_, ?_, ?_, ?_, by simp⟩
      · show (slice c.clientStream c.parsePos (c.parsePos + (c.clientStream.length - c.parsePos))).length = _
        rw [htext]
        simp [lineLength, clientStreamPos]
      · simp only [lineLength, clientStreamPos]
        omega
      · show postedBytes c.trace ++ slice c.clientStream c.parsePos
          (c.parsePos + (c.clientStream.length - c.parsePos)) <+: B
        rw [htext, hposted]
        exact hB ▸ List.prefix_append _ _
      · intro _
        show postedBytes c.trace ++ slice c.clientStream c.parsePos
          (c.parsePos + (c.clientStream.length - c.parsePos)) ++ rest = B
        rw [htext, hposted]
        exact hB

/-- `write_body` moves bytes from the window to the file. -/
lemma writeChunk_bodyOk {env : Env} {c : Request} {B rest : Bytes} (h : BodyOk B rest c)
    (hs : c.status = .bodyWrite) (hnd : ¬ c.BodyDone) (hr : (c.writeChunk env).2 ≠ .done) :
    BodyOk B rest (c.writeChunk env).1 ∧ (c.writeChunk env).1.client = c.client := by
  have hended := writeBody_ended env h.live hs
  rw [writeBody_of_not_done hnd] at hended
  have hlive := hended.1 hr
  have hbound := h.bound
  have hmin : min c.lineLength (c.filesize - c.filepos) = c.lineLength := min_eq_left (by omega)
  unfold BodyDone at hnd
  unfold writeChunk at hr hlive ⊢
  dsimp only at hr hlive ⊢
  rw [hmin] at hnd hr hlive ⊢
  split_ifs at hr hlive ⊢ with h0
  · have hlt : c.filepos < c.filesize := by omega
    have hnil : c.bodyText = [] := List.length_eq_zero_iff.mp (h.text.trans h0)
    have hflow := h.flow
    have hmore := h.more (by omega)
    rw [hnil] at hflow hmore
    refine ⟨⟨hlive, .inl rfl, h.size, h.pos, ?_, ?_, ?_, ?_, fun _ => hlt⟩, rfl⟩
    · simp [bodyText, lineText, lineLength, resetWindow]
    · simp only [lineLength, resetWindow]
      omega
    · simpa [bodyText, lineText, lineLength, resetWindow] using hflow
    · intro _
      simpa [bodyText, lineText, lineLength, resetWindow] using hmore
  · cases hw : c.post.head?.getD .again with
    | again =>
      simp only [hw] at hlive ⊢
      exact ⟨⟨hlive, .inr hs, h.size, h.pos, h.text, h.bound, h.flow, h.more, h.reading⟩, trivial⟩
    | intr =>
      simp only [hw] at hlive ⊢
      exact ⟨⟨hlive, .inr hs, h.size, h.pos, h.text, h.bound, h.flow, h.more, h.reading⟩, trivial⟩
    | err =>
      simp only [hw] at hr
      exact absurd rfl hr
    | wrote n =>
      simp only [hw] at hlive ⊢
      have hk : min n c.lineLength ≤ c.lineLength := min_le_right _ _
      generalize min n c.lineLength = k at hk hlive ⊢
      exact ⟨h.advance hk hlive hs rfl rfl rfl rfl rfl rfl rfl rfl, rfl⟩

/-- `read_body` fills the empty window with the next bytes. -/
lemma readBody_bodyOk {env : Env} {c : Request} {B rest : Bytes} {read : PipeRead}
    (h : BodyOk B rest c) (hs : c.status = .bodyRead) (hclient : c.client = [read.answer rest])
    (hr : (c.readBody env).2 ≠ .done) :
    (c.readBody env).1.client = [] ∧
      BodyOk B (rest.drop ((read.answer rest).fit c.readRoom).bytes.length) (c.readBody env).1 := by
  obtain ⟨hline, hend⟩ := h.live.body hs
  have hlen : c.lineLength = 0 := by simp [lineLength, hline, hend]
  have hnil : c.bodyText = [] := List.length_eq_zero_iff.mp (h.text.trans hlen)
  have hlt := h.reading hs
  have hB : postedBytes c.trace ++ rest = B := by simpa [hnil] using h.more (by omega)
  have hlive := (readBody_ended env h.live hs).1 hr
  have hroom : c.readRoom = min (c.filesize - c.filepos) (bufferSize - c.lineLength) := by
    unfold readRoom
    rw [if_neg (by rw [hs]; decide)]
  have hpos : 0 < c.readRoom := by
    rw [hroom, hlen]
    exact lt_min (by omega) (by decide)
  have hsplit := read.fit_answer rest c.readRoom
  have hnext : c.nextClient c.readRoom = (read.answer rest).fit c.readRoom := by
    rw [nextClient, hclient]
    rfl
  unfold readBody at hr hlive ⊢
  dsimp only at hr hlive ⊢
  rw [← hroom] at hr hlive ⊢
  rw [if_neg (by omega)] at hr hlive ⊢
  rw [hnext] at hr hlive ⊢
  cases ha : (read.answer rest).fit c.readRoom with
  | again =>
    simp only [ha, ReadRes.bytes, List.length_nil, List.drop_zero] at hlive ⊢
    refine ⟨by simp [popClient, hclient], hlive, .inl hs, h.size, h.pos, h.text, h.bound, h.flow, h.more,
      h.reading⟩
  | intr => simp [ha] at hr
  | err => simp [ha] at hr
  | eof => simp [ha] at hr
  | data bs =>
    have hfit := (fit_data ha).1
    simp only [ha, ReadRes.bytes] at hlive hsplit ⊢
    have hstore : c.popClient.storeAtEnd bs =
        { c.popClient with buffer := store c.buffer 0 bs } := by
      have hend' : c.popClient.headerEnd = ⟨.buffer, 0⟩ := hend
      unfold storeAtEnd
      simp only [hend']
      rfl
    rw [hstore] at hlive ⊢
    refine ⟨by simp [popClient, hclient], h.fill hs hsplit ?_ hlive rfl rfl rfl rfl rfl hline ?_ rfl⟩
    · rw [hroom] at hfit
      exact hfit.trans (min_le_left _ _)
    · simp [popClient, hend]

/-- With nothing queued, a round runs the handler of the status. -/
lemma serveOnce_of_empty {env : Env} {c : Request} (h0 : c.bufferEnd = 0) :
    c.serveOnce env = (c.arm env).handle env := by
  have hskip : (c.arm env).flushFirst = (c.arm env, .more) := if_neg fun hcond => hcond.1 h0
  unfold serveOnce
  rw [hskip]

lemma handle_of_inHeader {env : Env} {c : Request} (h : c.status.inHeader) :
    c.handle env = c.readHeader env := by
  unfold handle
  cases hs : c.status <;> first | rfl | (rw [hs] at h; exact absurd h (by decide))

end Request

lemma Live.parsing {c : Request} (h : Live False c) (hh : c.status.inHeader) : Parsing False c :=
  ⟨h.toFlow.sound (Request.Calm.window fun hp => absurd hp hh.not_piped), hh,
    h.early (Nat.lt_of_lt_of_le (Status.inHeader_iff.mp hh) (by omega))⟩

open Request in
/-- What follows a byte at which the parser stops. -/
lemma Stopped.postOk {env : Env} {n : ℕ} {c : Request} {r : Request × Ret} {T rest : Bytes}
    (h : Stopped env n c r) (hn : c.parsePos + n ≤ c.clientStream.length) (hr : r.2 ≠ .done)
    (hlive : Live False r.1) (hstream : c.clientStream.drop c.parsePos ++ rest = T.drop c.parsePos)
    (hposted : postedBytes c.trace = []) : PostOk T rest r.1 := by
  have hahead : ∀ d, Taken n c d → d.clientStream.drop d.parsePos ++ rest = T.drop d.parsePos := by
    intro d hd
    have hdrop := congrArg (List.drop n) hstream
    rw [List.drop_append_of_le_length (by rw [List.length_drop]; omega), List.drop_drop,
      List.drop_drop] at hdrop
    rw [hd.ahead, hd.pos]
    exact hdrop
  obtain ⟨ht, hin | h6 | ⟨e, he, hb⟩⟩ := h
  · exact .head (hlive.parsing hin) (ht.marked hin) (by rw [ht.pos, ht.length]; exact hn)
      (hahead _ ht) (ht.posted.trans hposted)
  · exact .later h6
  · rw [← hb] at hr hlive
    have hbody := startBody_bodyOk (hahead e he) (he.posted.trans hposted) hr hlive
    have hpos : r.1.parsePos = e.parsePos := ht.pos.trans he.pos.symm
    refine .body ?_
    rw [hpos]
    rw [hb] at hbody
    exact hbody

open Request in
/-- `read_header` has parsed everything and reads on. -/
lemma readMore_postOk {T rest : Bytes} {d : Request} {read : PipeRead} (hd : Parsing False d)
    (hm : d.Marked) (hpos : d.parsePos = d.clientStream.length) (hrest : rest = T.drop d.parsePos)
    (hposted : postedBytes d.trace = []) (hclient : d.client = [read.answer rest])
    (hr : d.readMore.2 ≠ .done) : d.readMore.1.client = [] ∧
      PostOk T (rest.drop ((read.answer rest).fit (clientStreamSize - d.clientStreamPos)).bytes.length)
        d.readMore.1 := by
  have hlive := (readMore_ended hd).1 hr
  have hnext : d.nextClient (clientStreamSize - d.clientStreamPos) =
      (read.answer rest).fit (clientStreamSize - d.clientStreamPos) := by
    rw [nextClient, hclient]
    rfl
  have hpop : d.popClient.client = [] := by simp [popClient, hclient]
  have hsplit := read.fit_answer rest (clientStreamSize - d.clientStreamPos)
  have hnone : d.clientStream.drop d.parsePos = [] := by simp [hpos]
  have hsame : PostOk T rest d.popClient :=
    .head ⟨⟨⟨hd.start_le, hd.end_le, hd.size⟩, fun hS => hS.elim, fun hS => hS.elim⟩, hd.header, hd.empty⟩
      hm hpos.le (by rw [hrest]; simp [popClient, hnone]) hposted
  unfold readMore at hr hlive ⊢
  dsimp only at hr hlive ⊢
  split_ifs at hr hlive ⊢ with hfull
  · exact absurd rfl hr
  · rw [hnext] at hr hlive ⊢
    cases ha : (read.answer rest).fit (clientStreamSize - d.clientStreamPos) with
    | again =>
      simp only [ReadRes.bytes, List.length_nil, List.drop_zero]
      exact ⟨hpop, hsame⟩
    | intr =>
      simp only [ReadRes.bytes, List.length_nil, List.drop_zero]
      exact ⟨hpop, hsame⟩
    | err => simp [ha] at hr
    | eof => simp [ha] at hr
    | data bs =>
      simp only [ha, ReadRes.bytes] at hlive hsplit ⊢
      refine ⟨hpop, .head (hlive.parsing (by exact hd.header)) (by exact hm) ?_ ?_ ?_⟩
      · show d.parsePos ≤ (d.clientStream ++ bs).length
        rw [hpos, List.length_append]
        exact Nat.le_add_right _ _
      · show (d.clientStream ++ bs).drop d.parsePos ++ rest.drop bs.length = T.drop d.parsePos
        rw [hpos, List.drop_left, hsplit, hrest, hpos]
      · show postedBytes (d.trace ++ [.received bs]) = []
        rw [postedBytes_snoc, hposted]
        rfl

lemma BodyOk.arm {B rest : Bytes} {c : Request} (h : BodyOk B rest c) (env : Env) :
    BodyOk B rest (c.arm env) :=
  have hl := h.live
  ⟨⟨⟨⟨hl.start_le, hl.end_le, hl.size⟩, fun hS => hS.elim, fun hS => hS.elim, hl.pipe⟩, hl.early, hl.body⟩,
    h.phase, h.size, h.pos, h.text, h.bound, h.flow, h.more, h.reading⟩

/-- A request past its body stays there. -/
lemma Request.serveOnce_late {env : Env} {c : Request} (h : 6 ≤ c.status.rank) :
    6 ≤ (c.serveOnce env).1.status.rank := (serveOnce_later h).late h

open Request in
lemma PostOk.serveOnce {T rest : Bytes} {c : Request} (h : PostOk T rest c) (r : PostRound) {env : Env}
    (henv : env = { r.env with client := [r.read.answer rest], post := [r.write] })
    (hr : (c.serveOnce env).2 ≠ .done) :
    PostOk T (rest.drop (if (c.serveOnce env).1.client = []
      then (r.read.answer rest).fit c.readRoom else ReadRes.again).bytes.length)
      (c.serveOnce env).1 := by
  have hclient : (c.arm env).client = [r.read.answer rest] := by
    subst henv
    rfl
  cases h with
  | head h hm hle hstream hposted =>
    have harm : Parsing False (c.arm env) :=
      ⟨⟨⟨h.start_le, h.end_le, h.size⟩, fun hS => hS.elim, fun hS => hS.elim⟩, h.header, h.empty⟩
    have hserve : c.serveOnce env = (c.arm env).readHeader env := by
      rw [serveOnce_of_empty h.empty, handle_of_inHeader (by exact h.header)]
    rw [hserve] at hr ⊢
    have hlive := (readHeader_ended env harm).1 hr
    obtain ⟨n, hn, hstop⟩ | ⟨d, htaken, hd, hmore⟩ := readHeader_taken harm hm hr
    · have hsame : ((c.arm env).readHeader env).1.client ≠ [] := by
        rw [hstop.1.client, hclient]
        simp
      rw [if_neg hsame]
      have hpos : c.parsePos + n ≤ c.clientStream.length := by
        have : n ≤ c.clientStream.length - c.parsePos := hn
        omega
      exact hstop.postOk hpos hr hlive hstream hposted
    · have hpos : d.parsePos = c.clientStream.length := by
        rw [htaken.pos]
        show c.parsePos + (c.clientStream.length - c.parsePos) = _
        omega
      have hlen : d.clientStream.length = c.clientStream.length := htaken.length
      have hrest : rest = T.drop d.parsePos := by
        have hdrop := congrArg (List.drop (c.clientStream.length - c.parsePos)) hstream
        rw [List.drop_left' (by simp), List.drop_drop, Nat.add_sub_cancel' hle] at hdrop
        rw [hpos]
        exact hdrop
      rw [hmore] at hr ⊢
      obtain ⟨h1, h2⟩ := readMore_postOk hd (htaken.marked hd.header) (hpos.trans hlen.symm) hrest
        (htaken.posted.trans hposted) (htaken.client.trans hclient) hr
      have hroom : c.readRoom = clientStreamSize - d.clientStreamPos := by
        rw [readRoom, if_pos h.header, clientStreamPos, clientStreamPos, hlen]
      rw [if_pos h1, hroom]
      exact h2
  | body h =>
    have h0 : c.bufferEnd = 0 := h.live.early (by rcases h.phase with hs | hs <;> rw [hs] <;> decide)
    rw [serveOnce_of_empty h0] at hr ⊢
    rcases h.phase with hs | hs
    · have hread : (c.arm env).handle env = (c.arm env).readBody env := by
        unfold handle
        rw [show (c.arm env).status = .bodyRead from hs]
      rw [hread] at hr ⊢
      obtain ⟨h1, h2⟩ := readBody_bodyOk (h.arm env) hs hclient hr
      have hkept := (readBody_later env (c := c.arm env) hs
        (by rw [((h.arm env).live.body hs).2])).kept
      rw [if_pos h1]
      refine .body ?_
      rw [(of_kept hkept).2.2.2.2.2.2.2]
      exact h2
    · have hwrite : (c.arm env).handle env = (c.arm env).writeBody env := by
        unfold handle
        rw [show (c.arm env).status = .bodyWrite from hs]
      have hkept := (writeBody_later env (c := c.arm env) hs).kept
      rw [hwrite] at hr ⊢
      by_cases hdone : (c.arm env).BodyDone
      · rw [writeBody_of_done hdone] at hr ⊢
        refine .later ?_
        rw [initCgi_more hr]
        decide
      · rw [writeBody_of_not_done hdone] at hr hkept ⊢
        obtain ⟨h1, h2⟩ := writeChunk_bodyOk (h.arm env) hs hdone hr
        rw [if_neg (by rw [h2, hclient]; simp)]
        refine .body ?_
        rw [(of_kept hkept).2.2.2.2.2.2.2]
        exact h1
  | later h => exact .later (serveOnce_late h)

lemma PostOk.heedSigterm {T rest : Bytes} {c : Request} (h : PostOk T rest c) (env : Env) :
    PostOk T rest (c.heedSigterm env) := by
  unfold Request.heedSigterm
  split_ifs
  · cases h with
    | head h hm hle hstream hposted =>
      exact .head ⟨h.toSound, h.header, h.empty⟩ hm hle hstream hposted
    | body h =>
      have hl := h.live
      exact .body ⟨⟨⟨hl.toBufOk, hl.steady, hl.flow, hl.pipe⟩, hl.early, hl.body⟩,
        h.phase, h.size, h.pos, h.text, h.bound, h.flow, h.more, h.reading⟩
    | later h => exact .later h
  · exact h

lemma Posting.step_postOk {T : Bytes} {s : Posting} (r : PostRound)
    (h : s.ret ≠ .done → PostOk T s.rest s.req) :
    (s.step r).ret ≠ .done → PostOk T (s.step r).rest (s.step r).req := by
  unfold Posting.step
  split_ifs with hret
  · exact h
  · dsimp only
    intro hr
    generalize henv : ({ r.env with client := [r.read.answer s.rest], post := [r.write] } : Env) = env
      at hr ⊢
    have hclient : ((s.req.serveOnce env).1.heedSigterm r.env).client = (s.req.serveOnce env).1.client := by
      unfold Request.heedSigterm
      split_ifs <;> rfl
    rw [hclient]
    exact ((h hret).serveOnce r henv.symm hr).heedSigterm r.env

lemma Posting.run_postOk {T : Bytes} {s : Posting} (rounds : List PostRound)
    (h : s.ret ≠ .done → PostOk T s.rest s.req) :
    (rounds.foldl Posting.step s).ret ≠ .done →
      PostOk T (rounds.foldl Posting.step s).rest (rounds.foldl Posting.step s).req := by
  induction rounds generalizing s with
  | nil => exact h
  | cons r rounds ih => exact ih (Posting.step_postOk r h)

lemma Request.Fresh.postOk {c : Request} (h : c.Fresh) (out : Bytes) :
    PostOk (c.clientStream ++ out) out c := by
  have hin : c.status.inHeader := by
    rw [h.status]
    decide
  refine .head ⟨⟨⟨?_, ?_, h.size⟩, fun hS => hS.elim, fun hS => hS.elim⟩, hin, h.empty⟩ ?_ ?_ ?_ h.posted
  · rw [h.start]
    exact Nat.zero_le _
  · rw [h.empty]
    exact Nat.zero_le _
  · exact fun hs => absurd h.status hs
  · rw [h.pos]
    exact Nat.zero_le _
  · simp [h.pos]

/-- The file holds the body exactly when `write_body` is ready for `init_cgi`. -/
lemma BodyOk.done_iff {B rest : Bytes} {c : Request} (h : BodyOk B rest c) :
    (postedBytes c.trace = B.take c.filesize ∧ c.filesize ≤ B.length) ↔
      c.status = .bodyWrite ∧ c.BodyDone := by
  have hbound := h.bound
  have hpos := h.pos
  have hpre : postedBytes c.trace <+: B := (List.prefix_append _ _).trans h.flow
  constructor
  · rintro ⟨hfile, hlen⟩
    have hall : c.filepos = c.filesize := by
      rw [hpos, hfile, List.length_take]
      omega
    have hstatus : c.status = .bodyWrite := by
      rcases h.phase with hs | hs
      · exact absurd (h.reading hs) (by omega)
      · exact hs
    exact ⟨hstatus, by rw [hall]; simp, hall.ge⟩
  · rintro ⟨-, -, hge⟩
    have hall : (postedBytes c.trace).length = c.filesize := by omega
    refine ⟨?_, hall ▸ hpre.length_le⟩
    rw [← hall]
    exact List.prefix_iff_eq_take.mp hpre

open Request in
/-- The temporary file gets the bytes that follow the header block, in order and no
more than announced, and the CGI is started exactly when all of them are there. -/
theorem post_fidelity {c : Request} (h : c.Fresh) (out : Bytes) (rounds : List PostRound) :
    let s := rounds.foldl Posting.step { req := c, rest := out }
    let body := (c.clientStream ++ out).drop s.req.parsePos
    s.ret ≠ .done → s.req.status = .bodyRead ∨ s.req.status = .bodyWrite →
    ∃ N, s.req.contentLength.bind boaAtoi = some N ∧ postedBytes s.req.trace <+: body.take N ∧
      if postedBytes s.req.trace = body.take N ∧ N ≤ body.length
      then ∀ env, s.req.serveOnce env = (s.req.arm env).resetWindow.initCgi env
      else ∀ env, s.req.serveOnce env = (s.req.arm env).bodyRound env := by
  intro s body hret hphase
  have hok : PostOk (c.clientStream ++ out) s.rest s.req :=
    Posting.run_postOk rounds (fun _ => h.postOk out) hret
  have hrank : 4 ≤ s.req.status.rank ∧ s.req.status.rank < 6 := by
    rcases hphase with hs | hs <;> rw [hs] <;> decide
  cases hok with
  | head hp => exact absurd (Status.inHeader_iff.mp hp.header) (by omega)
  | later h6 => omega
  | body hb =>
    have hpre : postedBytes s.req.trace <+: body := (List.prefix_append _ _).trans hb.flow
    have hbound := hb.bound
    have hpos := hb.pos
    have hcut : postedBytes s.req.trace <+: body.take s.req.filesize :=
      List.prefix_take_iff.mpr ⟨hpre, by omega⟩
    have h0 : s.req.bufferEnd = 0 := hb.live.early hrank.2
    refine ⟨s.req.filesize, hb.size, hcut, ?_⟩
    split_ifs with hfull
    · intro env
      obtain ⟨hs, hdone⟩ := hb.done_iff.mp hfull
      rw [serveOnce_of_empty h0, handle, show (s.req.arm env).status = .bodyWrite from hs]
      exact writeBody_of_done hdone
    · intro env
      rw [serveOnce_of_empty h0, bodyRound, handle]
      rcases hphase with hs | hs
      · rw [show (s.req.arm env).status = .bodyRead from hs, if_pos rfl]
      · rw [show (s.req.arm env).status = .bodyWrite from hs,
          if_neg (show ¬ Status.bodyWrite = .bodyRead by decide)]
        exact writeBody_of_not_done fun hdone => hfull (hb.done_iff.mpr ⟨hs, hdone⟩)

def postEnv : Env :=
  { tinyEnv with
    cfg := { tinyConfig with defaultType := confText "application/x-httpd-cgi" (by decide +kernel) }
    tempFd := 7 }

def postRequest : Request := { buffer := List.replicate (bufferSize + 1) 0 }

/-- The header comes with four bytes behind it, of which three belong to the body. -/
def postRun : Posting :=
  [⟨postEnv, .chunk 60, .again⟩, ⟨postEnv, .again, .again⟩, ⟨postEnv, .again, .wrote 1⟩,
    ⟨postEnv, .again, .wrote 9⟩].foldl Posting.step
    { req := postRequest, rest := text "POST /f HTTP/1.0\r\nContent-Length: 3\r\n\r\nabcd" }

theorem post_fidelity_three : postRun.req.status = .bodyWrite ∧
    postedBytes postRun.req.trace = text "abc" ∧
    ∃ N, postRun.req.contentLength.bind boaAtoi = some N ∧
      postedBytes postRun.req.trace <+:
        ((text "POST /f HTTP/1.0\r\nContent-Length: 3\r\n\r\nabcd").drop postRun.req.parsePos).take N := by
  have hstatus : postRun.req.status = .bodyWrite := by decide +kernel
  obtain ⟨N, hN, hpre, -⟩ := post_fidelity (c := postRequest)
    ⟨rfl, rfl, rfl, rfl, by simp [postRequest], rfl⟩ _
    [⟨postEnv, .chunk 60, .again⟩, ⟨postEnv, .again, .again⟩, ⟨postEnv, .again, .wrote 1⟩,
      ⟨postEnv, .again, .wrote 9⟩] (show postRun.ret ≠ .done by decide +kernel) (.inr hstatus)
  exact ⟨hstatus, by decide +kernel, N, hN, hpre⟩

end Boa
