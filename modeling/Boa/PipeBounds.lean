import Boa.Access

/-! The bytes of `req->buffer` that `read_from_pipe` writes: they lie in the array exactly
when each `read` on the pipe gets less than it asked for. -/
namespace Boa
open Memory History

/-- The bound of `read` in `read_from_pipe`, `BUFFER_SIZE - (header_end - buffer - 1)`. -/
def Request.pipeRoom (c : Request) : ℕ := bufferSize + 1 - c.headerEnd.off

/-- The indices of `req->buffer` that `read_from_pipe` writes before it calls anything else: the
data and the NUL behind it, or the NUL alone at the end of the file or of a full buffer. -/
def Request.pipeWrites (c : Request) : List ℕ :=
  if c.pipeRoom = 0 then
    if c.cgiStatus = .parse then [c.headerEnd.off] else []
  else
    match c.nextFile c.pipeRoom with
    | .data bs => List.range' c.headerEnd.off (bs.length + 1)
    | .eof => [c.headerEnd.off]
    | .again | .intr | .err => []

/-- `read_from_pipe` writes inside `req->buffer`, an array of `BUFFER_SIZE + 1` bytes, and
notes no store elsewhere. -/
structure Request.WritesInside (env : Env) (c : Request) : Prop where
  index : ∀ i ∈ c.pipeWrites, i ≤ bufferSize
  events : (c.readFromPipe env).1.trace.count .wild = c.trace.count .wild

/-- `read` gets less than it was asked for. -/
def Request.ShortRead (c : Request) : Prop := ∀ bs, c.nextFile c.pipeRoom = .data bs → bs.length < c.pipeRoom

/-- If the round of a request reads from a pipe, the pipe gives less than it was asked for. -/
def ShortReads : Label → Request → Prop
  | .pass env, c => c.status = .pipeRead → (c.arm env).ShortRead
  | .accept _, _ | .wake _, _ => True

/-- Behind the window there is a byte for the NUL. -/
def Request.Roomy (c : Request) : Prop := c.status.piped → c.headerEnd.off ≤ bufferSize

/-- What a handler that goes on leaves behind. -/
def StaysRoomy (r : Request × Ret) : Prop := r.2 ≠ .done → r.1.Roomy

variable {env : Env} {c d : Request}

lemma Request.Calm.roomy (h : c.Calm) : c.Roomy := fun hp => (h hp).2.2.1

lemma Request.Roomy.of_not (h : ¬ c.status.piped) : c.Roomy := fun hp => absurd hp h

lemma staysRoomy_done (c : Request) : StaysRoomy (c, .done) := fun hn => absurd rfl hn

/-- A handler behind the header parser that did not start at a pipe. -/
lemma Effect.staysRoomy {r : Request × Ret} (h : Effect False c r.1) (hc : ¬ c.status.piped) :
    StaysRoomy r := fun _ => (h.calm fun hp => absurd hp hc).roomy

lemma Refused.last (h : Refused c d) : d.headerEnd = c.headerEnd := by
  obtain ⟨o, code, rfl, -⟩ := h
  rfl

namespace Request

/-! ### One read -/

lemma pokeNul_last (c : Request) (i : ℕ) : (c.pokeNul i).headerEnd = c.headerEnd := by
  unfold pokeNul
  split_ifs <;> rfl

lemma pokeNul_wilds (c : Request) (i : ℕ) :
    (c.pokeNul i).trace.count .wild = c.trace.count .wild + if i ≤ bufferSize then 0 else 1 := by
  unfold pokeNul
  split_ifs
  · rfl
  · rw [log]
    simp

lemma cgiMerge_last (c : Request) (h : c.bufferEnd + (c.headerEnd.off - c.headerLine.off) ≤ bufferSize) :
    c.cgiMerge.headerEnd.off ≤ bufferSize := by
  have hlen : c.cgiText.length ≤ c.headerEnd.off - c.headerLine.off := by
    simp only [cgiText, slice, List.length_take]
    omega
  show c.bufferEnd + c.cgiText.length ≤ bufferSize
  omega

lemma cgiOk_roomy (env : Env) (c : Request) (k : ℕ) : StaysRoomy (c.cgiOk env k) := by
  unfold cgiOk
  dsimp only
  generalize (if (c.sendRRequestOk env).method = .head
      then { c.sendRRequestOk env with headerEnd := ⟨.buffer, k⟩, cgiStatus := .done }
      else c.sendRRequestOk env) = d
  split
  · exact staysRoomy_done _
  · next hfit => exact fun _ _ => cgiMerge_last d (Nat.le_of_not_lt hfit)

lemma processCgiHeader_roomy (env : Env) {c : Request} (hc : c.headerEnd.off ≤ bufferSize) :
    StaysRoomy (c.processCgiHeader env) := by
  have h : (if c.cgiStatus = .done then c else { c with cgiStatus := .buffer }).headerEnd =
      c.headerEnd := by
    split_ifs <;> rfl
  unfold processCgiHeader
  dsimp only
  generalize (if c.cgiStatus = .done then c else { c with cgiStatus := .buffer }) = d at h ⊢
  generalize cstr (List.drop d.headerLine.off d.buffer) = buf
  rw [← h] at hc
  split
  · exact staysRoomy_done _
  split
  · exact fun _ _ => hc
  split
  · exact fun _ _ => hc
  split
  · exact fun _ => .of_not (by decide : ¬ Status.done.piped)
  · exact cgiOk_roomy env d _

lemma writeFromPipe_roomy {c : Request} (hc : c.headerEnd.off ≤ bufferSize) :
    StaysRoomy c.writeFromPipe := by
  have hstart : (0 : ℕ) ≤ bufferSize := Nat.zero_le _
  unfold writeFromPipe
  dsimp only
  split
  · split
    · exact staysRoomy_done c
    · exact fun _ _ => hstart
  · split
    · exact fun _ _ => hc
    · exact fun _ _ => hc
    · exact staysRoomy_done _
    · split
      · exact fun _ _ => hstart
      · exact fun _ _ => hc

/-- The step: a short read leaves room for the NUL of the next one. -/
lemma readFromPipe_roomy (env : Env) {c : Request} (hc : c.headerEnd.off ≤ bufferSize)
    (hshort : c.ShortRead) : StaysRoomy (c.readFromPipe env) := by
  have hroom : ¬ bufferSize + 1 - c.headerEnd.off = 0 := by omega
  unfold readFromPipe
  dsimp only
  rw [if_neg hroom]
  split
  · exact fun _ _ => hc
  · exact fun _ _ => hc
  · exact staysRoomy_done _
  · unfold pipeEof
    dsimp only
    have hpoke : (c.popFile.pokeNul c.popFile.headerEnd.off).headerEnd.off ≤ bufferSize := by
      rw [pokeNul_last]
      exact hc
    split
    · exact processCgiHeader_roomy env hpoke
    · exact fun _ _ => hpoke
  · next bs hbs =>
    have hlen : bs.length < bufferSize + 1 - c.headerEnd.off := hshort bs hbs
    have hstore : (c.popFile.pipeStore bs).headerEnd.off ≤ bufferSize := by
      unfold pipeStore
      rw [pokeNul_last]
      show c.headerEnd.off + bs.length ≤ bufferSize
      omega
    unfold pipeData
    dsimp only
    split
    · exact writeFromPipe_roomy (by exact hstore)
    · split
      · exact fun _ _ => hstore
      · exact processCgiHeader_roomy env (by exact hstore)

/-! ### What is written -/

lemma writes_wilds (c : Request) (ms : List Msg) :
    (c.writes ms).trace.count .wild = c.trace.count .wild := by
  have h : Out.Replies (fun _ => True) (fun _ => True) c.toOut (c.toOut.writes ms) :=
    Out.writes_replies c.toOut ms (fun _ _ => trivial) (fun _ _ => trivial)
  exact h.adds.count_eq id

lemma reqFlush_wilds (c : Request) : c.reqFlush.trace.count .wild = c.trace.count .wild := by
  have h : Out.Replies (fun _ => True) (fun _ => True) c.toOut c.toOut.reqFlush.1 :=
    Out.reqFlush_replies c.toOut
  exact h.adds.count_eq id

lemma cgiOk_wilds (env : Env) (c : Request) (k : ℕ) :
    (c.cgiOk env k).1.trace.count .wild = c.trace.count .wild := by
  have hok : (c.sendRRequestOk env).trace.count .wild = c.trace.count .wild := by
    unfold sendRRequestOk
    dsimp only
    split_ifs
    · rfl
    all_goals exact writes_wilds _ _
  have h : (if (c.sendRRequestOk env).method = .head
      then { c.sendRRequestOk env with headerEnd := ⟨.buffer, k⟩, cgiStatus := .done }
      else c.sendRRequestOk env).trace.count .wild = c.trace.count .wild := by
    split_ifs <;> exact hok
  unfold cgiOk
  dsimp only
  generalize (if (c.sendRRequestOk env).method = .head
      then { c.sendRRequestOk env with headerEnd := ⟨.buffer, k⟩, cgiStatus := .done }
      else c.sendRRequestOk env) = d at h ⊢
  rw [← h]
  split
  · rw [(sendRError_refused env _).wilds]
    exact count_snoc nofun
  · rw [reqFlush_wilds]
    exact count_snoc nofun

lemma processCgiHeader_wilds (env : Env) (c : Request) :
    (c.processCgiHeader env).1.trace.count .wild = c.trace.count .wild := by
  have h : (if c.cgiStatus = .done then c else { c with cgiStatus := .buffer }).trace = c.trace := by
    split_ifs <;> rfl
  unfold processCgiHeader
  dsimp only
  generalize (if c.cgiStatus = .done then c else { c with cgiStatus := .buffer }) = d at h ⊢
  generalize cstr (List.drop d.headerLine.off d.buffer) = buf
  rw [← h]
  split
  · exact (sendRBadGateway_refused env d).wilds
  split
  · exact count_snoc nofun
  split
  · exact count_snoc nofun
  split
  · show (if buf.getD 10 0 = slash then d.sendRBadRequest env
      else d.cgiLocation env buf).trace.count .wild = _
    split_ifs
    · exact (sendRBadRequest_refused env d).wilds
    · unfold cgiLocation
      refine (movedTemp_refused env _ rfl rfl ?_).wilds
      split_ifs <;> rfl
  · exact cgiOk_wilds env d _

lemma writeFromPipe_wilds (c : Request) :
    c.writeFromPipe.1.trace.count .wild = c.trace.count .wild := by
  unfold writeFromPipe
  dsimp only
  split_ifs
  · rfl
  · rfl
  · split
    · rfl
    · rfl
    · rfl
    · split_ifs <;> exact count_snoc nofun

/-- The NUL is the only store of `read_from_pipe` that can miss the array. -/
lemma readFromPipe_wilds (env : Env) (c : Request) :
    (c.readFromPipe env).1.trace.count .wild =
      c.trace.count .wild + if ∀ i ∈ c.pipeWrites, i ≤ bufferSize then 0 else 1 := by
  unfold readFromPipe pipeWrites pipeRoom
  dsimp only
  split
  · split
    · rw [processCgiHeader_wilds, pokeNul_wilds]
      simp
    · simp
  · split
    · simp [popFile, *]
    · simp [popFile, *]
    · simp [popFile, *]
    · next heof =>
      rw [heof]
      have heq : (c.popFile.pipeEof env).1.trace.count .wild =
          (c.popFile.pokeNul c.headerEnd.off).trace.count .wild := by
        unfold pipeEof
        dsimp only
        split
        · exact processCgiHeader_wilds env _
        · rfl
      rw [heq, pokeNul_wilds]
      simp [popFile]
    · next bs hbs =>
      rw [hbs]
      have hlast : (∀ i ∈ List.range' c.headerEnd.off (bs.length + 1), i ≤ bufferSize) ↔
          c.headerEnd.off + bs.length ≤ bufferSize := by
        simp only [List.mem_range'_1]
        constructor
        · exact fun h => h _ (by omega)
        · omega
      have hstore : (c.popFile.pipeStore bs).trace.count .wild = c.trace.count .wild +
          if c.headerEnd.off + bs.length ≤ bufferSize then 0 else 1 := pokeNul_wilds _ _
      have heq : (c.popFile.pipeData env bs).1.trace.count .wild =
          (c.popFile.pipeStore bs).trace.count .wild := by
        unfold pipeData
        dsimp only
        split
        · exact (writeFromPipe_wilds _).trans (count_snoc nofun)
        · split
          · rfl
          · exact processCgiHeader_wilds env _
      simp only [heq, hstore, hlast]

lemma writesInside_iff (env : Env) (c : Request) :
    c.WritesInside env ↔ ∀ i ∈ c.pipeWrites, i ≤ bufferSize := by
  constructor
  · exact fun h => h.index
  · intro h
    refine ⟨h, ?_⟩
    rw [readFromPipe_wilds, if_pos h, Nat.add_zero]

/-- With room for the NUL, the array is left exactly when `read` gets all it asked for. -/
lemma writesInside_iff_short (env : Env) {c : Request} (hc : c.headerEnd.off ≤ bufferSize) :
    c.WritesInside env ↔ c.ShortRead := by
  have hroom : ¬ c.pipeRoom = 0 := by
    unfold pipeRoom
    omega
  rw [writesInside_iff]
  unfold pipeWrites ShortRead
  rw [if_neg hroom]
  cases c.nextFile c.pipeRoom with
  | data bs =>
    simp only [List.mem_range'_1, ReadRes.data.injEq, forall_eq']
    unfold pipeRoom
    constructor
    · intro h
      have hlast := h (c.headerEnd.off + bs.length) (by omega)
      omega
    · omega
  | eof => simp [hc]
  | again => simp
  | intr => simp
  | err => simp

/-! ### The other handlers -/

lemma processHeaderEnd_roomy (env : Env) {c : Request} (h0 : c.bufferStart = 0)
    (hs : ¬ c.status.piped) : StaysRoomy (c.processHeaderEnd env) := by
  have hc := processHeaderEnd_concluded (S := False) env c h0
  exact fun _ => (hc.calm fun hp => absurd hp hs).roomy

lemma endHeader_roomy (env : Env) {c : Request} (h0 : c.bufferStart = 0) (hs : c.status = .bodyRead) :
    StaysRoomy (c.endHeader env) := by
  have hnp : ¬ c.status.piped := by
    rw [hs]
    decide
  obtain ⟨-, he⟩ | ⟨-, he⟩ | ⟨-, -, he⟩ := endHeader_cases env c
  · rw [he]
    exact processHeaderEnd_roomy env h0 hnp
  · rw [he]
    exact processHeaderEnd_roomy env h0 hnp
  · rw [he]
    obtain ⟨_, _, _, _, hb | ⟨e, hb, -⟩⟩ := startBody_cases env (c.processHeaderEnd env).1
    · rw [hb]
      exact fun _ => .of_not (by decide : ¬ Status.bodyWrite.piped)
    · rw [hb]
      exact staysRoomy_done e

end Request

lemma ByteStep.roomy {uc : UInt8} {r : Option Ret} (h : ByteStep env c uc d r) (hc : Parsing False c) :
    ∀ ret, r = some ret → StaysRoomy (d, ret) := by
  intro ret hr
  cases h with
  | skip hi h1 h2 => cases hr
  | option hi hs hl hd hcount => cases hr
  | logline hi hs hl hd hv => cases hr
  | @short d hi hs hl hd hv =>
    cases hr
    obtain ⟨m, v, uri, hh, ka, idx, rfl, -⟩ := hd
    refine Request.processHeaderEnd_roomy env hc.start ?_
    show ¬ (c.advance uc).status.piped
    rw [hs]
    decide
  | finish hi hs =>
    cases hr
    exact Request.endHeader_roomy env hc.start hs
  | illegal hi hd | tooLong hi hs hl hd | optionStop hi hs hl hd | loglineStop hi hs hl hd he =>
    cases hr
    exact staysRoomy_done _

namespace Request

lemma scanHeader_roomy (env : Env) {c : Request} (h : Parsing False c) (bs : Bytes) :
    ∀ ret, (scanHeader env c bs).2 = some ret → StaysRoomy ((scanHeader env c bs).1, ret) := by
  induction bs generalizing c with
  | nil => exact nofun
  | cons uc bs ih =>
    have hnext := ((headerByte_step env c uc).ended h).1
    have hstep := (headerByte_step env c uc).roomy h
    unfold scanHeader
    generalize c.headerByte env uc = r at hnext hstep
    obtain ⟨d, _ | ret⟩ := r
    · exact ih (hnext rfl)
    · exact hstep

/-- A request that goes on reading its header has no pipe. -/
lemma readHeader_roomy (env : Env) {c : Request} (h : Parsing False c) :
    StaysRoomy (c.readHeader env) := by
  have hnext := (scanHeader_ended env h (c.clientStream.drop c.parsePos)).1
  have hscan := scanHeader_roomy env h (c.clientStream.drop c.parsePos)
  unfold readHeader
  generalize scanHeader env c (c.clientStream.drop c.parsePos) = r at hnext hscan
  obtain ⟨d, _ | ret⟩ := r
  · have hd : ¬ d.status.piped := (hnext rfl).header.not_piped
    dsimp only
    split_ifs
    · unfold readMore
      dsimp only
      split_ifs
      · exact staysRoomy_done _
      · split
        · exact fun _ => .of_not hd
        · exact fun _ => .of_not hd
        · exact staysRoomy_done _
        · exact staysRoomy_done _
        · exact fun _ => .of_not hd
    · exact fun _ => .of_not hd
  · exact hscan ret rfl

lemma readBody_roomy (env : Env) {c : Request} (hs : c.status = .bodyRead) : StaysRoomy (c.readBody env) := by
  have hread : ¬ c.status.piped := by
    rw [hs]
    decide
  unfold readBody
  dsimp only
  split_ifs
  · exact fun _ => .of_not (by decide : ¬ Status.bodyWrite.piped)
  · split
    · exact fun _ => .of_not hread
    · exact staysRoomy_done _
    · exact staysRoomy_done _
    · exact staysRoomy_done _
    · exact fun _ => .of_not (by decide : ¬ Status.bodyWrite.piped)

lemma writeBody_roomy (env : Env) {c : Request} (hs : c.status = .bodyWrite) :
    StaysRoomy (c.writeBody env) := by
  have hwrite : ¬ c.status.piped := by
    rw [hs]
    decide
  unfold writeBody
  dsimp only
  split_ifs
  · exact (initCgi_effect env _).staysRoomy hwrite
  · exact fun _ => .of_not (by decide : ¬ Status.bodyRead.piped)
  · split
    · exact fun _ => .of_not hwrite
    · exact fun _ => .of_not hwrite
    · exact staysRoomy_done _
    · exact fun _ => .of_not hwrite

lemma processDone_roomy {c : Request} (hs : c.status = .done) : StaysRoomy c.processDone := by
  have hdone : ¬ c.status.piped := by
    rw [hs]
    decide
  have hflush : Effect False c { c with toOut := c.toOut.reqFlush.1 } := reqFlush_effect c
  unfold processDone
  generalize c.toOut.reqFlush = r at hflush
  obtain ⟨o, fl⟩ := r
  cases fl with
  | error => exact staysRoomy_done _
  | blocked => exact hflush.staysRoomy (r := (_, .blocked)) hdone
  | left n =>
    cases n with
    | zero => exact staysRoomy_done _
    | succ n => exact hflush.staysRoomy (r := (_, .more)) hdone

/-- One handler: the window keeps room for the NUL unless a full read takes it. -/
lemma handle_roomy (env : Env) {c : Request} (hw : Live False c) (h : c.Roomy)
    (hlive : c.status < .timedOut) (hshort : c.status = .pipeRead → c.ShortRead) :
    StaysRoomy (c.handle env) := by
  have hparse : c.status.inHeader → StaysRoomy (c.readHeader env) := fun hh =>
    readHeader_roomy env ⟨hw.toFlow.sound (Calm.window fun hp => absurd hp hh.not_piped), hh,
      hw.early (Nat.lt_of_lt_of_le (Status.inHeader_iff.mp hh) (by omega))⟩
  unfold handle
  cases hs : c.status with
  | readHeader => exact hparse (by rw [hs]; decide)
  | oneCr => exact hparse (by rw [hs]; decide)
  | oneLf => exact hparse (by rw [hs]; decide)
  | twoCr => exact hparse (by rw [hs]; decide)
  | bodyRead => exact readBody_roomy env hs
  | bodyWrite => exact writeBody_roomy env hs
  | write => exact (processGet_effect env c fun _ => False.elim).staysRoomy (by rw [hs]; decide)
  | pipeRead => exact readFromPipe_roomy env (h (.inl hs)) (hshort hs)
  | pipeWrite => exact writeFromPipe_roomy (h (.inr hs))
  | ioShuffle =>
    have hp : ¬ c.status.piped := by
      rw [hs]
      decide
    dsimp only
    split_ifs
    · exact (ioShuffleSendfile_effect env c fun _ => False.elim).staysRoomy hp
    · exact (ioShuffle_effect env c).staysRoomy hp
  | done => exact processDone_roomy hs
  | timedOut => exact absurd hlive (by rw [hs]; decide)
  | dead => exact absurd hlive (by rw [hs]; decide)

/-! ### Rounds -/

/-- The flush at the top of a round has nothing to do with the pipe. -/
lemma flushFirst_toOut (c : Request) : ∃ o, c.flushFirst.1 = { c with toOut := o } := by
  unfold flushFirst
  split_ifs
  · generalize c.toOut.reqFlush = r
    obtain ⟨o, fl⟩ := r
    cases fl <;> exact ⟨_, rfl⟩
  · exact ⟨c.toOut, rfl⟩

lemma flushFirst_roomy {c : Request} (h : c.Roomy) : StaysRoomy c.flushFirst := by
  have hrep : Out.Replies (fun _ => True) (fun _ => True) c.toOut c.toOut.reqFlush.1 :=
    Out.reqFlush_replies c.toOut
  have hflush : Roomy { c with toOut := c.toOut.reqFlush.1 } := by
    intro hp
    obtain he | he := hrep.status
    · exact h (show c.status.piped from he ▸ hp)
    · exact absurd (show Status.piped .dead from he ▸ hp) (by decide)
  unfold flushFirst
  split_ifs
  · generalize c.toOut.reqFlush = r at hflush
    obtain ⟨o, fl⟩ := r
    cases fl with
    | error => exact staysRoomy_done _
    | blocked => exact fun _ => hflush
    | left n => exact fun _ => hflush
  · exact fun _ => h

lemma serveOnce_roomy (env : Env) {c : Request} (hw : Whole False c) (h : c.Roomy)
    (hshort : ShortReads (.pass env) c) : StaysRoomy (c.serveOnce env) := by
  by_cases hlive : c.status < .timedOut
  · obtain ⟨hend, hmore⟩ := flushFirst_ended (hw.live hlive env False.elim) hlive
    have hflush : StaysRoomy (c.arm env).flushFirst := flushFirst_roomy h
    obtain ⟨o, ho⟩ := flushFirst_toOut (c.arm env)
    unfold serveOnce
    generalize (c.arm env).flushFirst = r at hend hmore hflush ho
    obtain ⟨d, ret⟩ := r
    cases ret with
    | blocked => exact hflush
    | done => exact hflush
    | more =>
      have hst : d.status = c.status := (hmore rfl).1
      refine handle_roomy env (hend.1 (by simp)) (hflush (by simp)) (hst ▸ hlive) fun hs => ?_
      obtain rfl : d = { c.arm env with toOut := o } := ho
      exact hshort (hst ▸ hs)
  · rw [serveOnce_dead hlive]
    exact staysRoomy_done _

lemma heedSigterm_roomy (env : Env) {c : Request} (h : c.Roomy) : (c.heedSigterm env).Roomy := by
  unfold heedSigterm
  split_ifs
  · exact h
  · exact h

lemma processRequest_roomy (env : Env) {c : Request} (hw : Whole False c) (h : c.Roomy)
    (hshort : ShortReads (.pass env) c) (hp : (c.processRequest env).2 ≠ .free) :
    (c.processRequest env).1.Roomy := by
  have hend : Ended False (c.serveOnce env) := serveOnce_ended hw False.elim False.elim
  have hroomy := serveOnce_roomy env hw h hshort
  unfold processRequest at hp ⊢
  dsimp only at hp ⊢
  generalize c.serveOnce env = r at hend hroomy hp ⊢
  obtain ⟨d, ret⟩ := r
  cases ret with
  | blocked => exact heedSigterm_roomy env (hroomy (by simp))
  | more => exact heedSigterm_roomy env (hroomy (by simp))
  | done =>
    obtain hs | hs := freeRequest_status ((hend.2 rfl).heedSigterm env) hp
    · exact .of_not (by rw [hs]; decide)
    · exact .of_not (by rw [hs]; decide)

lemma getRequest_roomy (env : Env) (peer : Peer) (old : Request) : (old.getRequest env peer).Roomy := by
  unfold getRequest
  dsimp only
  split_ifs
  · exact .of_not (show ¬ Status.done.piped by decide)
  · exact .of_not (show ¬ Status.readHeader.piped by decide)

end Request

/-- The run: while every read on a pipe is short, there is room behind every window. -/
lemma reach_roomy {p : Place} (h : Reach ShortReads c p) : p ≠ .free → c.Roomy := by
  induction h with
  | accept env peer old hp => exact fun _ => Request.getRequest_roomy env peer old
  | pass env h hp ih =>
    have hwhole := (reach_whole (S := False) False.elim h).1 (by simp)
    exact Request.processRequest_roomy env hwhole (ih (by simp)) hp
  | wake w h hp ih =>
    intro _
    cases w
    · exact ih (by simp)
    · exact .of_not (show ¬ Status.timedOut.piped by decide)
    · exact .of_not (show ¬ Status.dead.piped by decide)

/-- In a run in which every read on a pipe is short, `read_from_pipe` stays inside the buffer
in every state that waits for a pipe, as long as the next read is short as well. -/
theorem readFromPipe_inside_iff {p : Place} (h : Reach ShortReads c p) (hp : p ≠ .free)
    (hs : c.status = .pipeRead) (env : Env) (hd : (c.arm env).flushFirst = (d, .more)) :
    d.WritesInside env ↔ (c.arm env).ShortRead := by
  obtain ⟨o, ho⟩ := Request.flushFirst_toOut (c.arm env)
  obtain rfl : d = { c.arm env with toOut := o } := by
    rw [hd] at ho
    exact ho
  have hroom : c.headerEnd.off ≤ bufferSize := reach_roomy h hp (.inl hs)
  exact Request.writesInside_iff_short env hroom

/-- A server that runs a program for a directory without an index file. -/
def makerEnv : Env :=
  { guardedEnv with
    cfg := { tinyConfig with dirmaker := some (confText "/m" (by decide +kernel)) }
    pipeFd := 9 }

/-- The request for a directory when its header was received, and when its program runs. -/
def askedDirectory : Request := ((Request.getRequest makerEnv tinyPeer {}).processRequest
  { makerEnv with client := [.data (text "GET / HTTP/1.0\n\n")] }).1

def madeDirectory : Request := (askedDirectory.processRequest makerEnv).1

/-- The program writes `output`, and the client takes the header. -/
def makerOutput (output : Bytes) : Env := { makerEnv with sock := [.wrote 1000], file := [.data output] }

lemma madeDirectory_reach : Reach ShortReads madeDirectory .ready := by
  have h0 : Reach ShortReads (Request.getRequest makerEnv tinyPeer {}) .ready := .accept _ _ _ trivial
  have h1 := Reach.pass { makerEnv with client := [.data (text "GET / HTTP/1.0\n\n")] } h0
    fun hs => absurd hs (by decide +kernel)
  have hready : ((Request.getRequest makerEnv tinyPeer {}).processRequest
    { makerEnv with client := [.data (text "GET / HTTP/1.0\n\n")] }).2 = .ready := by decide +kernel
  rw [hready] at h1
  have h2 := Reach.pass makerEnv h1 fun hs => absurd hs (by decide +kernel)
  have hmade : (askedDirectory.processRequest makerEnv).2 = .ready := by decide +kernel
  have h : Reach ShortReads madeDirectory (askedDirectory.processRequest makerEnv).2 := h2
  rw [hmade] at h
  exact h

theorem readFromPipe_inside_iff_maker :
    madeDirectory.status = .pipeRead ∧
      (((madeDirectory.arm (makerOutput [lf])).flushFirst.1.WritesInside (makerOutput [lf])) ↔
        (madeDirectory.arm (makerOutput [lf])).ShortRead) := by
  have hs : madeDirectory.status = .pipeRead := by decide +kernel
  have hflush : (madeDirectory.arm (makerOutput [lf])).flushFirst.2 = .more := by decide +kernel
  exact ⟨hs, readFromPipe_inside_iff madeDirectory_reach (by decide) hs _ (Prod.ext rfl hflush)⟩

/-- A program that fills the buffer at once: the NUL is stored behind the array. -/
theorem full_read_escapes :
    Reachable madeDirectory .ready ∧ madeDirectory.status = .pipeRead ∧
      (madeDirectory.arm (makerOutput (List.replicate 4097 lf))).flushFirst.2 = .more ∧
      bufferSize + 1 ∈ (madeDirectory.arm (makerOutput (List.replicate 4097 lf))).flushFirst.1.pipeWrites ∧
      ¬ (madeDirectory.arm (makerOutput (List.replicate 4097 lf))).flushFirst.1.WritesInside
        (makerOutput (List.replicate 4097 lf)) := by
  have hwrites : bufferSize + 1 ∈
      (madeDirectory.arm (makerOutput (List.replicate 4097 lf))).flushFirst.1.pipeWrites := by
    decide +kernel
  refine ⟨madeDirectory_reach.mono fun _ _ _ => trivial, by decide +kernel, by decide +kernel,
    hwrites, fun hinside => ?_⟩
  exact absurd (hinside.index _ hwrites) (by decide)

end Boa
