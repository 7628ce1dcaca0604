import Boa.Output

/-! What answering a request can change: every routine behind the header parser
keeps the output in order, adds only events of the response, and leaves alone what
the parser and the connection own. -/
namespace Boa
open Memory History

/-- An event that neither the header parser nor an owned field causes. -/
def Event.later : Event → Prop
  | .logline _ | .optionLine _ | .headerEnd | .reject _ | .received _ | .clientEof
  | .overwrite _ => False
  | _ => True

/-- An event that belongs to the answer of a request. -/
def Event.answers : Event → Prop
  | .posted _ => False
  | e => e.later

/-- An event that only records what happened to a file. -/
def Event.isNote : Event → Bool
  | .opened _ | .closed _ | .serve _ | .gunzip | .wild | .fileEof | .fileError
  | .logged _ _ => true
  | _ => false

lemma Event.quiet_of_isNote {e : Event} (h : e.isNote) : e.quiet := by
  cases e <;> first | exact ⟨fun _ => rfl, rfl⟩ | simp [Event.isNote] at h

lemma Event.later_of_answers {e : Event} (h : e.answers) : e.later := by
  cases e <;> trivial

lemma Event.answers_of_isNote {e : Event} (h : e.isNote) : e.answers := by
  cases e <;> trivial

def Request.addresses (c : Request) := (c.localIpAddr, c.remoteIpAddr)

/-- What `log_access` prints of the connection and of the header lines. -/
def Request.noted (c : Request) := (c.addresses, c.headerReferer, c.headerUserAgent, c.headerForwardedFor)

/-- What no routine behind the header parser changes. -/
def Request.kept (c : Request) :=
  (c.kacount, c.clientStream, c.past, c.method, c.httpVersion, c.numranges, c.logline, c.parsePos, c.noted)

lemma Request.of_kept {c c' : Request} (h : c'.kept = c.kept) :
    c'.kacount = c.kacount ∧ c'.clientStream = c.clientStream ∧ c'.past = c.past ∧
      c'.method = c.method ∧ c'.httpVersion = c.httpVersion ∧ c'.numranges = c.numranges ∧
      c'.logline = c.logline ∧ c'.parsePos = c.parsePos := by
  simp only [Request.kept, Prod.mk.injEq] at h
  tauto

lemma Request.noted_of_kept {c c' : Request} (h : c'.kept = c.kept) : c'.noted = c.noted := by
  simp only [Request.kept, Prod.mk.injEq] at h
  tauto

/-- What answering leaves alone besides: nothing more is read from the client. -/
def Request.fixed (c : Request) := (c.kept, c.client)

lemma Request.of_fixed {c c' : Request} (h : c'.fixed = c.fixed) :
    c'.kept = c.kept ∧ c'.client = c.client := by
  simpa only [Request.fixed, Prod.mk.injEq] using h

/-- Nor does the name of the virtual host change once `process_header_end` has set it. -/
def Request.lasting (c : Request) := (c.fixed, c.host)

/-- The request is served through a pipe. -/
def Status.piped (s : Status) : Prop := s = .pipeRead ∨ s = .pipeWrite

instance (s : Status) : Decidable s.piped := inferInstanceAs (Decidable (_ ∨ _))

/-- The window for the output of a child, if there is one, is empty. -/
def Request.Calm (c : Request) : Prop :=
  c.status.piped → c.headerLine = c.headerEnd ∧ c.headerEnd.area = .buffer ∧
    c.headerEnd.off ≤ bufferSize ∧ (c.status = .pipeWrite → c.cgiStatus ≠ .parse)

/-- What the window and its use depend on besides the output. -/
def Request.piping (c : Request) := (c.headerLine, c.headerEnd, c.cgiStatus)

/-- The effect of a routine behind the header parser; `S` as in `Out.Sound`. -/
structure Effect (S : Prop) (c c' : Request) : Prop where
  sound : c.toOut.Sound S → c'.toOut.Sound S
  adds : Adds Event.answers c.trace c'.trace
  lasting : c'.lasting = c.lasting
  late : 6 ≤ c.status.rank → 6 ≤ c'.status.rank
  calm : c.Calm → c'.Calm
  idle : c'.keepalive = c.keepalive ∨ c'.keepalive = .stopped

lemma Event.answers_of_reply {ka : Bool → Prop} {len : ℕ → Prop} {e : Event}
    (h : Out.Reply ka len e) : e.answers := by
  cases e <;> trivial

variable {S : Prop}

namespace Effect

lemma fixed {c c' : Request} (h : Effect S c c') : c'.fixed = c.fixed := congrArg Prod.fst h.lasting

lemma refl (c : Request) : Effect S c c := ⟨fun h => h, .refl _, rfl, id, id, .inl rfl⟩

/-- Keep-alive is stopped at most. -/
lemma idle_trans {k k' k'' : KaStatus} (h : k' = k ∨ k' = .stopped) (h' : k'' = k' ∨ k'' = .stopped) :
    k'' = k ∨ k'' = .stopped := by
  obtain rfl | h' := h'
  · exact h
  · exact .inr h'

lemma trans {c c' c'' : Request} (h : Effect S c c') (h' : Effect S c' c'') : Effect S c c'' :=
  ⟨fun hS => h'.sound (h.sound hS), h.adds.trans h'.adds, h'.lasting.trans h.lasting,
    fun hl => h'.late (h.late hl), fun hc => h'.calm (h.calm hc), idle_trans h.idle h'.idle⟩

/-- A routine that changes fields of its own only. -/
lemma of_out_eq {c c' : Request} (ho : c'.toOut = c.toOut) (hf : c'.lasting = c.lasting)
    (hw : (c'.piping, c'.keepalive) = (c.piping, c.keepalive)) : Effect S c c' := by
  obtain ⟨hw, hk⟩ := Prod.mk.injEq .. ▸ hw
  refine ⟨fun h => ho ▸ h, ?_, hf, ?_, fun hc => ?_, .inl hk⟩
  · rw [ho]
    exact .refl _
  · rw [ho]
    exact id
  · simp only [Request.piping, Prod.mk.injEq] at hw
    rw [Request.Calm, ho, hw.1, hw.2.1, hw.2.2]
    exact hc

/-- A routine that writes or flushes. -/
lemma of_replies {ka : Bool → Prop} {len : ℕ → Prop} {c c' : Request}
    (h : Out.Replies ka len c.toOut c'.toOut) (hf : c'.lasting = c.lasting)
    (hw : (c'.piping, c'.keepalive) = (c.piping, c.keepalive)) : Effect S c c' := by
  obtain ⟨hw, hk⟩ := Prod.mk.injEq .. ▸ hw
  refine ⟨h.sound S, h.adds.mono fun e he => Event.answers_of_reply he, hf, fun hr => ?_, fun hc => ?_,
    .inl hk⟩
  · rcases h.status with hs | hs
    · rw [hs]
      exact hr
    · rw [hs]
      decide
  · simp only [Request.piping, Prod.mk.injEq] at hw
    rw [Request.Calm, hw.1, hw.2.1, hw.2.2]
    rcases h.status with hs | hs
    · rw [hs]
      exact hc
    · rw [hs]
      exact fun hp => absurd hp (by decide)

lemma log (c : Request) (e : Event) (he : e.isNote = true) : Effect S c (c.log e) :=
  ⟨fun h => Out.log_sound h (Event.quiet_of_isNote he), .snoc (Event.answers_of_isNote he), rfl, id, id,
    .inl rfl⟩

lemma setStatus {c : Request} {s : Status} (hs : 6 ≤ s.rank ∧ ¬ s.piped) :
    Effect S c { c with status := s } :=
  ⟨fun h => Out.setStatus_sound h s, .refl _, rfl, fun _ => hs.1, fun _ hp => absurd hp hs.2, .inl rfl⟩

lemma squashKa (c : Request) : Effect S c c.squashKa := ⟨id, .refl _, rfl, id, id, .inr rfl⟩

end Effect

/-- A file was looked for, with nothing sent: only notes were made, and only the
names and the size of the file changed. -/
def Noted (c c' : Request) : Prop :=
  ∃ es uri size path, c' = { c with
      trace := c.trace ++ es, requestUri := uri, filesize := size, pathname := path } ∧
    ∀ e ∈ es, e.isNote

namespace Noted

lemma refl (c : Request) : Noted c c := ⟨[], c.requestUri, c.filesize, c.pathname, by simp, by simp⟩

lemma log (c : Request) (e : Event) (he : e.isNote = true) : Noted c (c.log e) :=
  ⟨[e], c.requestUri, c.filesize, c.pathname, rfl, by simpa using he⟩

lemma trans {c c' c'' : Request} (h : Noted c c') (h' : Noted c' c'') : Noted c c'' := by
  obtain ⟨es, uri, size, path, rfl, hes⟩ := h
  obtain ⟨es', uri', size', path', rfl, hes'⟩ := h'
  refine ⟨es ++ es', uri', size', path', by simp, fun e he => ?_⟩
  exact (List.mem_append.mp he).elim (hes e) (hes' e)

lemma effect {c c' : Request} (h : Noted c c') : Effect S c c' := by
  obtain ⟨es, uri, size, path, rfl, hes⟩ := h
  exact ⟨fun hs => Out.logs_sound hs fun e he => Event.quiet_of_isNote (hes e he),
    ⟨es, rfl, fun e he => Event.answers_of_isNote (hes e he)⟩, rfl, id, id, .inl rfl⟩

lemma bufferStart {c c' : Request} (h : Noted c c') : c'.bufferStart = c.bufferStart := by
  obtain ⟨es, uri, size, path, rfl, -⟩ := h
  rfl

end Noted

lemma Refused.wilds {c c' : Request} (h : Refused c c') : c'.trace.count .wild = c.trace.count .wild := by
  obtain ⟨o, code, rfl, -, hr⟩ := h
  exact hr.adds.count_eq id

lemma Refused.effect {c c' : Request} (h : Refused c c') : Effect S c c' := by
  obtain ⟨o, code, rfl, -, hr⟩ := h
  have hstop : Effect S c c.squashKa := .squashKa c
  exact hstop.trans (.of_replies hr rfl rfl)

namespace Request

lemma writes_effect (c : Request) (ms : List Msg) : Effect S c (c.writes ms) :=
  have h : Out.Replies (fun _ => True) (fun _ => True) c.toOut (c.toOut.writes ms) :=
    Out.writes_replies c.toOut ms (fun _ _ => trivial) (fun _ _ => trivial)
  .of_replies h rfl rfl

lemma reqFlush_effect (c : Request) : Effect S c c.reqFlush :=
  have h : Out.Replies (fun _ => True) (fun _ => True) c.toOut c.toOut.reqFlush.1 :=
    Out.reqFlush_replies c.toOut
  .of_replies h rfl rfl

lemma completeResponse_effect (env : Env) (c : Request) : Effect S c (c.completeResponse env).1 := by
  unfold completeResponse
  split
  · exact .log _ _ rfl
  · next rest _ =>
    have h : Effect S c { c with ranges := rest } := .of_out_eq rfl rfl rfl
    dsimp only
    split_ifs
    · cases rest with
      | nil =>
        exact (h.trans (writes_effect _ _)).trans ((Effect.setStatus (by decide)).trans
          (reqFlush_effect _))
      | cons r rest => exact h.trans (writes_effect _ _)
    · exact h.trans (Effect.setStatus (by decide))

lemma sendRRequestOk_effect (env : Env) (c : Request) : Effect S c (c.sendRRequestOk env) := by
  have h : Effect S c { c with responseStatus := 200 } := .of_out_eq rfl rfl rfl
  unfold sendRRequestOk
  dsimp only
  split_ifs
  · exact h
  all_goals exact h.trans (writes_effect _ _)

lemma sendRNoContent_effect (env : Env) (c : Request) : Effect S c (c.sendRNoContent env) := by
  have h : Effect S c { c with responseStatus := 204 } := .of_out_eq rfl rfl rfl
  unfold sendRNoContent
  dsimp only
  split_ifs
  · exact h
  all_goals exact h.trans (writes_effect _ _)

lemma sendRPartialContent_effect (env : Env) (c : Request) (r : Range) :
    Effect S c (c.sendRPartialContent env r) := by
  have h : Effect S c { c with responseStatus := 206 } := .of_out_eq rfl rfl rfl
  unfold sendRPartialContent
  exact h.trans (writes_effect _ _)

/-- `ranges_fixup` succeeds exactly when a range survives, and then answers nothing. -/
lemma rangesFixup_ok {env : Env} {c c' : Request} (h : c.rangesFixup env = (c', true)) :
    c' = { c with ranges := fixupRanges c.filesize c.ranges } ∧
      fixupRanges c.filesize c.ranges ≠ [] := by
  unfold rangesFixup at h
  dsimp only at h
  split_ifs at h with hr
  · exact absurd (congrArg Prod.snd h) (by simp)
  · exact ⟨(congrArg Prod.fst h).symm, hr⟩

lemma rangesFixup_effect (env : Env) (c : Request) : Effect S c (c.rangesFixup env).1 := by
  have h : Effect S c { c with ranges := fixupRanges c.filesize c.ranges } := .of_out_eq rfl rfl rfl
  unfold rangesFixup
  dsimp only
  split_ifs
  · exact h.trans (sendRInvalidRange_refused env _).effect
  · exact h

/-! ### Children -/

lemma addCgiEnv_effect (c : Request) (key value : Bytes) (b : Bool) :
    Effect S c (c.addCgiEnv key value b).1 := by
  unfold addCgiEnv
  split_ifs
  · exact .of_out_eq rfl rfl rfl
  · exact .refl c

lemma addCgiEnvs_effect (c : Request) (kvs : List (Bytes × Bytes)) :
    Effect S c (c.addCgiEnvs kvs).1 := by
  induction kvs generalizing c with
  | nil => exact .refl c
  | cons kv kvs ih =>
    have h := addCgiEnv_effect (S := S) c kv.1 kv.2 false
    unfold addCgiEnvs
    split
    · next c' he =>
      rw [he] at h
      exact h.trans (ih c')
    · next c' he =>
      rw [he] at h
      exact h

lemma completeEnv_effect (cfg : Config) (c : Request) : Effect S c (c.completeEnv cfg).1 := by
  have h : Effect S c { c with cgiEnv := store c.cgiEnv 0 (cfg.commonCgiEnv.map some) } :=
    .of_out_eq rfl rfl rfl
  unfold completeEnv
  dsimp only
  have h2 := h.trans (addCgiEnvs_effect _ (serverVariables cfg
    { c with cgiEnv := store c.cgiEnv 0 (cfg.commonCgiEnv.map some) }))
  split
  · next c' he => rw [he] at h2; exact h2
  · next c' he =>
    rw [he] at h2
    split_ifs
    · exact h2.trans (.of_out_eq rfl rfl rfl)
    · exact h2

lemma closePostData_effect (c : Request) : Effect S c c.closePostData := by
  unfold closePostData
  split_ifs
  · exact (Effect.log _ _ rfl).trans (.of_out_eq rfl rfl rfl)
  · exact .refl c

lemma startPipe_effect (env : Env) (c : Request) : Effect S c (c.startPipe env) := by
  have hrank : 6 ≤ Status.rank .pipeRead := by decide
  refine ⟨fun h => Out.setStatus_sound h .pipeRead, .refl _, rfl, fun _ => hrank, fun _ _ => ?_,
    .inl rfl⟩
  unfold startPipe
  dsimp only
  refine ⟨rfl, ?_⟩
  split_ifs <;> exact ⟨rfl, by decide, by simp⟩

lemma spawn_effect (env : Env) (c : Request) : Effect S c (c.spawn env).1 := by
  have hlog : Effect S c (if c.usesPipes then c.log (.opened env.pipeFd) else c) := by
    split_ifs
    · exact .log _ _ rfl
    · exact .refl c
  unfold spawn
  generalize (if c.usesPipes then c.log (.opened env.pipeFd) else c) = d at hlog ⊢
  have hperr : Effect S d (d.boaPerror env) := (sendRError_refused env d).effect
  dsimp only
  split_ifs
  · exact .refl c
  · exact hlog.trans (.log _ _ rfl)
  · exact (hlog.trans hperr).trans (.log _ _ rfl)
  · exact hlog.trans hperr
  · exact (hlog.trans (closePostData_effect d)).trans (startPipe_effect env _)
  · exact hlog.trans (closePostData_effect d)

lemma initCgi_effect (env : Env) (c : Request) : Effect S c (c.initCgi env).1 := by
  have h : Effect S c c.squashKa := .squashKa c
  unfold initCgi
  dsimp only
  split_ifs
  · exact h.trans (spawn_effect env _)
  · have h2 := h.trans (completeEnv_effect env.cfg c.squashKa)
    split
    · next c' he => rw [he] at h2; exact h2
    · next c' he => rw [he] at h2; exact h2.trans (spawn_effect env _)

lemma handToGunzip_effect (env : Env) (c : Request) (gz : Bytes) :
    Effect S c (((c.log .gunzip).log (.serve gz)).initCgi env).1 :=
  ((Effect.log _ _ rfl).trans (.log _ _ rfl)).trans (initCgi_effect env _)

lemma streamHeader_effect (env : Env) (c : Request) (line : String) (tail : List Msg) :
    Effect S c (c.streamHeader env line tail) := by
  unfold streamHeader
  split_ifs
  · exact .refl c
  · exact (writes_effect _ _).trans (reqFlush_effect _)

/-! ### Directories -/

lemma indexDirectory_effect (env : Env) (c : Request) : Effect S c (c.indexDirectory env).1 := by
  unfold indexDirectory
  split
  · exact (sendRForbidden_refused env c).effect
  · exact (sendRBadRequest_refused env c).effect
  · split_ifs
    · exact (sendRError_refused env c).effect
    · exact (sendRError_refused env c).effect
    · exact .of_out_eq rfl rfl rfl

lemma useIndexName_effect (env : Env) (c : Request) : Effect S c (c.useIndexName env) := by
  unfold useIndexName
  split
  · exact .of_out_eq rfl rfl rfl
  · exact .log _ _ rfl

lemma rebuildCache_effect (env : Env) (c : Request) (dir : File) (name : Bytes) :
    Effect S c (c.rebuildCache env dir name).1 := by
  have h := indexDirectory_effect (S := S) env c
  unfold rebuildCache
  split
  · next c' he => rw [he] at h; exact h
  · next c' he =>
    rw [he] at h
    split
    · exact (h.trans (.log _ _ rfl)).trans (useIndexName_effect env _)
    · exact h.trans (sendRError_refused env c').effect

lemma getCachedirFile_effect (env : Env) (c : Request) (cachedir : Bytes) (dir : File) :
    Effect S c (c.getCachedirFile env cachedir dir).1 := by
  unfold getCachedirFile
  dsimp only
  split
  · exact rebuildCache_effect env c dir _
  · next f _ =>
    have h : Effect S c (c.log (.opened f.fd)) := .log _ _ rfl
    split_ifs
    · exact h.trans (useIndexName_effect env _)
    · exact (h.trans (.log _ _ rfl)).trans (rebuildCache_effect env _ dir _)

lemma makeDir_effect (env : Env) (c : Request) (dir : File) : Effect S c (c.makeDir env dir).1 := by
  have h : Effect S c { c.squashKa with responseStatus := 200 } :=
    (Effect.squashKa c).trans (.of_out_eq rfl rfl rfl)
  unfold makeDir
  dsimp only
  split_ifs
  · exact h.trans (streamHeader_effect env _ _ _)
  · exact (h.trans (streamHeader_effect env _ _ _)).trans (initCgi_effect env _)
  · split
    · exact getCachedirFile_effect env c _ dir
    · exact (sendRForbidden_refused env c).effect

lemma gunzipIndex_effect (env : Env) (c : Request) (f : File) (index gz : Bytes) :
    Effect S c (c.gunzipIndex env f index gz).1 := by
  have h1 : Effect S c ((c.log (.opened f.fd)).log (.closed f.fd)) :=
    (Effect.log _ _ rfl).trans (.log _ _ rfl)
  unfold gunzipIndex
  generalize (c.log (.opened f.fd)).log (.closed f.fd) = d at h1 ⊢
  have h2 : Effect S d { d.squashKa with responseStatus := 200, pathname := some gz } :=
    (Effect.squashKa d).trans (.of_out_eq rfl rfl rfl)
  dsimp only
  split_ifs
  · exact (h1.trans h2).trans (streamHeader_effect env _ _ _)
  · exact ((h1.trans h2).trans (streamHeader_effect env _ _ _)).trans (handToGunzip_effect env _ gz)

lemma getDir_effect (env : Env) (c : Request) (dir : File) : Effect S c (c.getDir env dir).1 := by
  unfold getDir
  split
  · exact makeDir_effect env c dir
  · next index _ =>
    dsimp only
    generalize (if env.cfg.gunzip then 3 else 0) = k
    split
    · exact (sendRError_refused env c).effect
    · split
      · exact (Effect.log _ _ rfl).trans (.of_out_eq rfl rfl rfl)
      · exact (sendRForbidden_refused env c).effect
      · exact (sendRNotFound_refused env c).effect
      · split_ifs
        · split
          · exact gunzipIndex_effect env c _ _ _
          · exact makeDir_effect env c dir
        · exact makeDir_effect env c dir

/-! ### Files -/

@[simp] lemma writes_bufferStart (c : Request) (ms : List Msg) :
    (c.writes ms).bufferStart = c.bufferStart := by
  show (c.toOut.writes ms).bufferStart = c.toOut.bufferStart
  induction ms generalizing c with
  | nil => rfl
  | cons m ms ih =>
    have hm : (c.toOut.writeMsg m).bufferStart = c.toOut.bufferStart := by
      cases m <;> simp only [Out.writeMsg, Out.reqWrite, Out.reqWriteEscapeHttp,
        Out.reqWriteEscapeHtml, Out.finishEscape] <;> split_ifs <;> rfl
    exact (ih { c with toOut := c.toOut.writeMsg m }).trans hm

lemma withdraw_effect (c : Request) (h0 : c.bufferStart = 0) : Effect S c c.withdraw := by
  refine ⟨fun h => ?_, .snoc trivial, rfl, id, id, .inl rfl⟩
  refine ⟨⟨h0.le, Nat.zero_le _, h.size⟩, h.steady, fun hS => ?_⟩
  have hf := h.flow hS
  have hr := Channel.stream_retract c.toOut.channel
  simp only [Out.channel, Channel.stream, Channel.retract] at hf hr
  simp only [withdraw, Request.log, Out.resetOutputBuffer, Out.channel, Channel.stream,
    produced_snoc, sentBytes_snoc, produce, Event.sentBytes, List.append_nil]
  rw [hf, ← hr, Out.pending_eq_nil (Nat.zero_le _)]

lemma bufferData_effect (c : Request) {bs : Bytes} (hbs : bs.length ≤ bufferSize - c.bufferEnd) :
    Effect S c (c.bufferData bs) :=
  ⟨fun h => Out.append_sound h (.inr rfl) hbs, .snoc trivial, rfl, id, id, .inl rfl⟩

lemma moveRange_effect (c : Request) (r : Range) (rest : List Range) (n : ℕ) :
    Effect S c (c.moveRange r rest n) := .of_out_eq rfl rfl rfl

lemma firstChunk_effect (env : Env) (c : Request) (h0 : c.bufferStart = 0) :
    Effect S c (c.firstChunk env).1 := by
  unfold firstChunk
  split
  · next mem r rest _ _ =>
    dsimp only
    have hd := fun n (hn : n ≤ bufferSize - c.bufferEnd) =>
      (bufferData_effect (S := S) c ((length_slice_le mem r.start n).trans hn)).trans
        (moveRange_effect _ r rest n)
    split_ifs
    · exact (withdraw_effect c h0).trans (sendRError_refused env _).effect
    · exact (hd _ (min_le_left _ _)).trans (completeResponse_effect env _)
    · exact hd _ (min_le_left _ _)
    · exact .refl c
  · exact .refl c

lemma attachData_effect (env : Env) (c : Request) (f : File) : Effect S c (c.attachData env f) := by
  unfold attachData
  split_ifs
  · exact (Effect.setStatus (s := .ioShuffle) (by decide)).trans (.of_out_eq rfl rfl rfl)
  · have h : Effect S c { c with dataMem := some f.data } := .of_out_eq rfl rfl rfl
    exact h.trans (.log _ (.closed f.fd) rfl)

lemma startTransfer_effect (env : Env) (c : Request) (h0 : c.bufferStart = 0) :
    Effect S c (c.startTransfer env).1 := by
  unfold startTransfer
  split_ifs
  · exact completeResponse_effect env c
  · exact firstChunk_effect env c h0

lemma respond_effect (env : Env) (c : Request) (h0 : c.bufferStart = 0) :
    Effect S c (c.respond env).1 := by
  unfold respond
  split
  · next r _ _ =>
    refine (sendRPartialContent_effect env c r).trans (startTransfer_effect env _ ?_)
    simpa [sendRPartialContent] using h0
  · have h1 : Effect S c { c with ranges := [⟨0, ulongMax⟩] } := .of_out_eq rfl rfl rfl
    have h2 := h1.trans (rangesFixup_effect env { c with ranges := [⟨0, ulongMax⟩] })
    split
    · next c' he =>
      rw [he] at h2
      exact h2
    · next c' he =>
      rw [he] at h2
      refine (h2.trans (sendRRequestOk_effect env c')).trans (startTransfer_effect env _ ?_)
      rw [(rangesFixup_ok he).1]
      unfold sendRRequestOk
      dsimp only
      split_ifs <;> simpa using h0

lemma serveRegular_effect (env : Env) (c : Request) (f : File) (h0 : c.bufferStart = 0) :
    Effect S c (c.serveRegular env f).1 := by
  have h1 : Effect S c { c with filesize := f.size, lastModified := f.mtime } := .of_out_eq rfl rfl rfl
  have hstart : ∀ d : Request, d.bufferStart = 0 → Effect S d ((d.attachData env f).respond env).1 := by
    intro d hd
    refine (attachData_effect env d f).trans (respond_effect env _ ?_)
    unfold attachData
    split_ifs <;> exact hd
  unfold serveRegular
  split_ifs with hm
  · exact (sendRNotModified_refused env c).effect.trans (.log _ _ rfl)
  dsimp only
  split_ifs
  · exact (h1.trans (sendRNoContent_effect env _)).trans (.log _ _ rfl)
  · exact (h1.trans (sendRRequestOk_effect env _)).trans (.log _ _ rfl)
  · have h2 := h1.trans (rangesFixup_effect env { c with filesize := f.size, lastModified := f.mtime })
    split
    · next c' he =>
      rw [he] at h2
      exact h2.trans (.log _ _ rfl)
    · next c' he =>
      rw [he] at h2
      refine h2.trans (hstart c' ?_)
      rw [(rangesFixup_ok he).1]
      exact h0
  · exact h1.trans (hstart _ h0)

lemma serveFile_effect (env : Env) (c : Request) (f : File) (path : Bytes) (h0 : c.bufferStart = 0) :
    Effect S c (c.serveFile env f path).1 := by
  unfold serveFile
  split_ifs
  · exact (sendRBadRequest_refused env c).effect.trans (.log _ _ rfl)
  · exact (Effect.log c (.serve path) rfl).trans (serveRegular_effect env _ f h0)

lemma useIndexName_noted (env : Env) (c : Request) : Noted c (c.useIndexName env) := by
  unfold useIndexName
  split
  · next index _ => exact ⟨[], index, c.filesize, c.pathname, by simp, by simp⟩
  · exact .log c .wild rfl

lemma rebuildCache_file {env : Env} {c c' : Request} {dir f : File} {name path : Bytes}
    (h : c.rebuildCache env dir name = (c', .file f path)) : Noted c c' := by
  unfold rebuildCache at h
  split at h
  · cases h
  · next d hd =>
    have hn : Noted c d := by
      unfold indexDirectory at hd
      split at hd
      · cases hd
      · cases hd
      · split_ifs at hd <;> cases hd
        exact ⟨[], c.requestUri, (indexText c.requestUri env.dirEntries).length, c.pathname,
          by simp, by simp⟩
    split at h
    · next g _ =>
      cases h
      exact (hn.trans (.log d (.opened g.fd) rfl)).trans (useIndexName_noted env _)
    · cases h

lemma getCachedirFile_file {env : Env} {c c' : Request} {cachedir : Bytes} {dir f : File}
    {path : Bytes} (h : c.getCachedirFile env cachedir dir = (c', .file f path)) : Noted c c' := by
  unfold getCachedirFile at h
  dsimp only at h
  split at h
  · exact rebuildCache_file h
  · next g _ =>
    have hn : Noted c (c.log (.opened g.fd)) := .log c _ rfl
    split_ifs at h
    · cases h
      exact hn.trans (useIndexName_noted env _)
    · exact (hn.trans (.log _ (.closed g.fd) rfl)).trans (rebuildCache_file h)

lemma makeDir_file {env : Env} {c c' : Request} {dir f : File} {path : Bytes}
    (h : c.makeDir env dir = (c', .file f path)) : Noted c c' := by
  unfold makeDir at h
  dsimp only at h
  split_ifs at h
  · cases h
  · cases h
  · split at h
    · exact getCachedirFile_file h
    · cases h

/-- A file that `get_dir` hands back was found without any output. -/
lemma getDir_file {env : Env} {c c' : Request} {dir f : File} {path : Bytes}
    (h : c.getDir env dir = (c', .file f path)) : Noted c c' := by
  unfold getDir at h
  split at h
  · exact makeDir_file h
  · next index _ =>
    dsimp only at h
    generalize (if env.cfg.gunzip then 3 else 0) = k at h
    split at h
    · cases h
    · split at h
      · cases h
        exact ⟨[.opened f.fd], index, c.filesize, c.pathname, rfl, by simp [Event.isNote]⟩
      · cases h
      · cases h
      · split_ifs at h
        · split at h
          · unfold gunzipIndex at h
            dsimp only at h
            split_ifs at h <;> cases h
          · exact makeDir_file h
        · exact makeDir_file h

lemma serveDirectory_effect (env : Env) (c : Request) (dir : File) (h0 : c.bufferStart = 0) :
    Effect S c (c.serveDirectory env dir).1 := by
  have h1 : Effect S c (c.log (.closed dir.fd)) := .log _ _ rfl
  unfold serveDirectory
  dsimp only
  split_ifs
  · refine h1.trans ?_
    unfold redirectDirectory
    dsimp only
    split_ifs
    · exact (sendRError_refused env _).effect
    · exact (sendRMovedPerm_refused env _ _).effect
  · have h2 := h1.trans (getDir_effect env (c.log (.closed dir.fd)) dir)
    split
    · next c' he => rw [he] at h2; exact h2
    · next c' r he => rw [he] at h2; exact h2
    · next c' f path he =>
      rw [he] at h2
      exact h2.trans (serveFile_effect env c' f path ((getDir_file he).bufferStart.trans h0))

lemma serveOpened_effect (env : Env) (c : Request) (f : File) (h0 : c.bufferStart = 0) :
    Effect S c (c.serveOpened env f).1 := by
  unfold serveOpened
  split_ifs
  · exact (sendRForbidden_refused env c).effect
  · exact serveDirectory_effect env c f h0
  · exact serveFile_effect env c f _ h0

lemma openFailed_refused (env : Env) (c : Request) (e : Errno) : Refused c (c.openFailed env e) := by
  cases e
  · exact sendRNotFound_refused env c
  · exact sendRForbidden_refused env c
  · exact sendRBadRequest_refused env c

lemma gunzipDocument_effect {env : Env} {c : Request} {r : Request × Ret}
    (h : c.gunzipDocument env = some r) : Effect S c r.1 := by
  unfold gunzipDocument at h
  split_ifs at h
  · cases h
    exact (sendRBadRequest_refused env c).effect
  dsimp only at h
  split at h
  · cases h
  · next f _ =>
    have h1 : Effect S c ((c.log (.opened f.fd)).log (.closed f.fd)) := (Effect.log _ _ rfl).trans (.log _ _ rfl)
    generalize (c.log (.opened f.fd)).log (.closed f.fd) = d at h h1
    have h2 : Effect S d { d with responseStatus := 200, pathname := some (c.path ++ text ".gz") } :=
      .of_out_eq rfl rfl rfl
    split_ifs at h <;> cases h
    · exact (h1.trans h2).trans (streamHeader_effect env _ _ _)
    · exact ((h1.trans h2).trans (streamHeader_effect env _ _ _)).trans (handToGunzip_effect env _ _)

/-- The second `open` only changes the path. -/
lemma openRewritten_noted (env : Env) (c : Request) (e : Errno) :
    Noted c (c.openRewritten env e).1 := by
  unfold openRewritten
  split_ifs
  · split
    · exact .refl c
    · split
      · next name _ _ f _ =>
        exact ⟨[.opened f.fd], c.requestUri, c.filesize, some name, rfl, by simp [Event.isNote]⟩
      · exact .refl c
  · exact .refl c

/-- The effect of `init_get` on a request that has answered nothing yet. -/
lemma initGet_effect (env : Env) (c : Request) (h0 : c.bufferStart = 0) :
    Effect S c (c.initGet env).1 := by
  unfold initGet
  split
  · exact (Effect.log _ _ rfl).trans (serveOpened_effect env _ _ h0)
  · next e _ =>
    have hn := openRewritten_noted env c e
    split
    · next c' f he =>
      rw [he] at hn
      exact hn.effect.trans (serveOpened_effect env c' f (hn.bufferStart.trans h0))
    · next c' e' he =>
      rw [he] at hn
      split_ifs
      · split
        · next r hr => exact hn.effect.trans (gunzipDocument_effect hr)
        · exact hn.effect.trans (openFailed_refused env c' e).effect
      · exact hn.effect.trans (openFailed_refused env c' e).effect

end Request
end Boa
