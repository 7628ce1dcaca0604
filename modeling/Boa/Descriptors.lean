import Boa.Runs

/-! The descriptors that a request holds: where they come from, and that a request which
waits for one has one. -/
namespace Boa
open Memory

/-- A descriptor that the system hands out in a round. -/
def Env.Gives (env : Env) (x : ℕ) : Prop :=
  x = env.tempFd ∨ x = env.pipeFd ∨ (∃ path f, env.fs.openFile path = .ok f ∧ x = f.fd) ∨
    ∃ f, env.reopen = .ok f ∧ x = f.fd

/-- A pipe that is to be read is open. -/
def Request.Piped (c : Request) : Prop := c.status.piped → c.dataFd ≠ 0

/-- A routine keeps the descriptors, gives them up or takes new ones. -/
structure Keeps (env : Env) (c d : Request) : Prop where
  data : d.dataFd = c.dataFd ∨ d.dataFd = 0 ∨ env.Gives d.dataFd
  post : d.postDataFd = c.postDataFd ∨ d.postDataFd = 0 ∨ env.Gives d.postDataFd
  pipe : c.Piped → d.Piped

variable {env : Env} {c d : Request}

namespace Keeps

lemma trans {e : Request} (h : Keeps env c d) (h' : Keeps env d e) : Keeps env c e := by
  refine ⟨?_, ?_, fun hc => h'.pipe (h.pipe hc)⟩
  · obtain he | he := h'.data
    · rw [he]
      exact h.data
    · exact .inr he
  · obtain he | he := h'.post
    · rw [he]
      exact h.post
    · exact .inr he

/-- The descriptors are the same, and no pipe is started. -/
lemma of_eq (hd : d.dataFd = c.dataFd) (hp : d.postDataFd = c.postDataFd)
    (hs : d.status.piped → c.status.piped) : Keeps env c d := by
  refine ⟨.inl hd, .inl hp, fun hc hpiped => ?_⟩
  rw [hd]
  exact hc (hs hpiped)

lemma behind {e : Request} (h : Keeps env d e) (hd : d.dataFd = c.dataFd)
    (hp : d.postDataFd = c.postDataFd) (hs : d.status.piped → c.status.piped) : Keeps env c e :=
  (Keeps.of_eq hd hp hs).trans h

lemma refl (c : Request) : Keeps env c c := .of_eq rfl rfl id

lemma log (c : Request) (e : Event) : Keeps env c (c.log e) := .of_eq rfl rfl id

lemma setStatus (c : Request) {s : Status} (hs : ¬ s.piped) : Keeps env c { c with status := s } :=
  .of_eq rfl rfl fun h => absurd h hs

/-- A routine that writes or flushes. -/
lemma of_replies {ka : Bool → Prop} {len : ℕ → Prop} (h : Out.Replies ka len c.toOut d.toOut)
    (hd : d.dataFd = c.dataFd) (hp : d.postDataFd = c.postDataFd) : Keeps env c d := by
  refine .of_eq hd hp fun hs => ?_
  obtain he | he := h.status
  · rw [he] at hs
    exact hs
  · rw [he] at hs
    exact absurd hs (by decide)

end Keeps

lemma Refused.keeps (h : Refused c d) : Keeps env c d := by
  obtain ⟨o, code, rfl, -, hr⟩ := h
  exact .of_replies hr rfl rfl

lemma Noted.keeps (h : Noted c d) : Keeps env c d := by
  obtain ⟨es, uri, size, path, rfl, -⟩ := h
  exact .of_eq rfl rfl id

lemma Located.keeps (h : Located c d) : Keeps env c d := by
  obtain ⟨es, ct, pn, sn, pi, pt, rfl, -⟩ := h
  exact .of_eq rfl rfl id

lemma LoglineOf.keeps (h : LoglineOf c d) : Keeps env c d := by
  obtain ⟨m, v, uri, hh, ka, idx, rfl, -⟩ := h
  exact .of_eq rfl rfl id

lemma OptionOf.keeps (h : OptionOf c d) : Keeps env c d := by
  obtain ⟨_, _, _, _, _, _, _, _, _, _, _, _, rfl⟩ := h
  exact .of_eq rfl rfl id

lemma OptionEnd.keeps {ok : Bool} (h : OptionEnd c d ok) : Keeps env c d := by
  obtain ⟨e, he, ⟨rfl, -⟩ | ⟨-, hr⟩⟩ := h
  · exact he.keeps
  · exact he.keeps.trans hr.keeps

namespace Request

/-! ### Answers -/

lemma writes_keeps (c : Request) (ms : List Msg) : Keeps env c (c.writes ms) :=
  have h : Out.Replies (fun _ => True) (fun _ => True) c.toOut (c.toOut.writes ms) :=
    Out.writes_replies c.toOut ms (fun _ _ => trivial) (fun _ _ => trivial)
  .of_replies h rfl rfl

lemma flush_keeps (c : Request) : Keeps env c { c with toOut := c.toOut.reqFlush.1 } :=
  have h : Out.Replies (fun _ => True) (fun _ => True) c.toOut c.toOut.reqFlush.1 :=
    Out.reqFlush_replies c.toOut
  .of_replies h rfl rfl

lemma completeResponse_keeps (env : Env) (c : Request) : Keeps env c (c.completeResponse env).1 := by
  unfold completeResponse
  split
  · exact .log c _
  · next rest _ =>
    have h : Keeps env c { c with ranges := rest } := .of_eq rfl rfl id
    dsimp only
    split_ifs
    · cases rest with
      | nil =>
        exact (h.trans (writes_keeps _ _)).trans ((Keeps.setStatus _ (s := .done) (by decide)).trans
          (flush_keeps _))
      | cons r rest => exact h.trans (writes_keeps _ _)
    · exact h.trans (.setStatus _ (by decide))

lemma sendRRequestOk_keeps (env : Env) (c : Request) : Keeps env c (c.sendRRequestOk env) := by
  have h : Keeps env c { c with responseStatus := 200 } := .of_eq rfl rfl id
  unfold sendRRequestOk
  dsimp only
  split_ifs
  · exact h
  all_goals exact h.trans (writes_keeps _ _)

lemma sendRNoContent_keeps (env : Env) (c : Request) : Keeps env c (c.sendRNoContent env) := by
  have h : Keeps env c { c with responseStatus := 204 } := .of_eq rfl rfl id
  unfold sendRNoContent
  dsimp only
  split_ifs
  · exact h
  all_goals exact h.trans (writes_keeps _ _)

lemma rangesFixup_keeps (env : Env) (c : Request) : Keeps env c (c.rangesFixup env).1 := by
  have h : Keeps env c { c with ranges := fixupRanges c.filesize c.ranges } := .of_eq rfl rfl id
  unfold rangesFixup
  dsimp only
  split_ifs
  · exact h.trans (sendRInvalidRange_refused env _).keeps
  · exact h

/-! ### Children -/

lemma addCgiEnvs_keeps (c : Request) (kvs : List (Bytes × Bytes)) :
    Keeps env c (c.addCgiEnvs kvs).1 := by
  induction kvs generalizing c with
  | nil => exact .refl c
  | cons kv kvs ih =>
    have h : Keeps env c (c.addCgiEnv kv.1 kv.2 false).1 := by
      unfold addCgiEnv
      split_ifs
      · exact .of_eq rfl rfl id
      · exact .refl c
    unfold addCgiEnvs
    split
    · next c' he =>
      rw [he] at h
      exact h.trans (ih c')
    · next c' he =>
      rw [he] at h
      exact h

lemma completeEnv_keeps (cfg : Config) (c : Request) : Keeps env c (c.completeEnv cfg).1 := by
  have h : Keeps env c { c with cgiEnv := store c.cgiEnv 0 (cfg.commonCgiEnv.map some) } :=
    .of_eq rfl rfl id
  unfold completeEnv
  dsimp only
  have h2 := h.trans (addCgiEnvs_keeps _ (serverVariables cfg
    { c with cgiEnv := store c.cgiEnv 0 (cfg.commonCgiEnv.map some) }))
  split
  · next c' he =>
    rw [he] at h2
    exact h2
  · next c' he =>
    rw [he] at h2
    split_ifs
    · exact h2.trans (.of_eq rfl rfl id)
    · exact h2

lemma closePostData_keeps (env : Env) (c : Request) : Keeps env c c.closePostData := by
  unfold closePostData
  split_ifs
  · exact ⟨.inl rfl, .inr (.inl rfl), id⟩
  · exact .refl c

lemma spawn_keeps (env : Env) (c : Request) : Keeps env c (c.spawn env).1 := by
  have hlog : Keeps env c (if c.usesPipes then c.log (.opened env.pipeFd) else c) := by
    split_ifs
    · exact .log c _
    · exact .refl c
  have huses : (if c.usesPipes then c.log (.opened env.pipeFd) else c).usesPipes = c.usesPipes := by
    split_ifs <;> rfl
  unfold spawn
  generalize (if c.usesPipes then c.log (.opened env.pipeFd) else c) = d at hlog huses ⊢
  have hperr : Keeps env d (d.boaPerror env) := (sendRError_refused env d).keeps
  dsimp only
  split_ifs with hnone _ _ _ hpipe
  · exact .refl c
  · exact hlog.trans (.log _ _)
  · exact (hlog.trans hperr).trans (.log _ _)
  · exact hlog.trans hperr
  · have hopen : env.pipeFd ≠ 0 := by
      have hp : c.usesPipes = true := by
        rw [← huses, ← hpipe]
        unfold closePostData
        split_ifs <;> rfl
      simpa [hp] using hnone
    have hstart : Keeps env d.closePostData (d.closePostData.startPipe env) :=
      ⟨.inr (.inr (.inr (.inl rfl))), .inl rfl, fun _ _ => hopen⟩
    exact (hlog.trans (closePostData_keeps env d)).trans hstart
  · exact hlog.trans (closePostData_keeps env d)

lemma initCgi_keeps (env : Env) (c : Request) : Keeps env c (c.initCgi env).1 := by
  have h : Keeps env c c.squashKa := .of_eq rfl rfl id
  unfold initCgi
  dsimp only
  split_ifs
  · exact h.trans (spawn_keeps env _)
  · have h2 := h.trans (completeEnv_keeps env.cfg c.squashKa)
    split
    · next c' he =>
      rw [he] at h2
      exact h2
    · next c' he =>
      rw [he] at h2
      exact h2.trans (spawn_keeps env _)

lemma streamHeader_keeps (env : Env) (c : Request) (line : String) (tail : List Msg) :
    Keeps env c (c.streamHeader env line tail) := by
  unfold streamHeader
  split_ifs
  · exact .refl c
  · exact (writes_keeps _ _).trans (flush_keeps _)

/-- A header without a length, and the child that writes the body. -/
lemma stream_keeps {e : Request} (h : Keeps env c d) (line : String) (tail : List Msg)
    (he : Keeps env (d.streamHeader env line tail) e) : Keeps env c (e.initCgi env).1 :=
  (h.trans ((streamHeader_keeps env d line tail).trans he)).trans (initCgi_keeps env e)

/-! ### Directories -/

lemma rebuildCache_keeps (env : Env) (c : Request) (dir : File) (name : Bytes) :
    Keeps env c (c.rebuildCache env dir name).1 := by
  have h : Keeps env c (c.indexDirectory env).1 := by
    unfold indexDirectory
    split
    · exact (sendRForbidden_refused env c).keeps
    · exact (sendRBadRequest_refused env c).keeps
    · split_ifs
      · exact (sendRError_refused env c).keeps
      · exact (sendRError_refused env c).keeps
      · exact .of_eq rfl rfl id
  unfold rebuildCache
  split
  · next c' he =>
    rw [he] at h
    exact h
  · next c' he =>
    rw [he] at h
    split
    · exact (h.trans (.log _ _)).trans (useIndexName_noted env _).keeps
    · exact h.trans (sendRError_refused env c').keeps

lemma getCachedirFile_keeps (env : Env) (c : Request) (cachedir : Bytes) (dir : File) :
    Keeps env c (c.getCachedirFile env cachedir dir).1 := by
  unfold getCachedirFile
  dsimp only
  split
  · exact rebuildCache_keeps env c dir _
  · next f _ =>
    have h : Keeps env c (c.log (.opened f.fd)) := .log _ _
    split_ifs
    · exact h.trans (useIndexName_noted env _).keeps
    · exact (h.trans (.log _ _)).trans (rebuildCache_keeps env _ dir _)

lemma makeDir_keeps (env : Env) (c : Request) (dir : File) : Keeps env c (c.makeDir env dir).1 := by
  have h : Keeps env c { c.squashKa with responseStatus := 200 } := .of_eq rfl rfl id
  unfold makeDir
  dsimp only
  split_ifs
  · exact h.trans (streamHeader_keeps env _ _ _)
  · exact stream_keeps h _ _ (.refl _)
  · split
    · exact getCachedirFile_keeps env c _ dir
    · exact (sendRForbidden_refused env c).keeps

lemma gunzipIndex_keeps (env : Env) (c : Request) (f : File) (index gz : Bytes) :
    Keeps env c (c.gunzipIndex env f index gz).1 := by
  have h1 : Keeps env c ((c.log (.opened f.fd)).log (.closed f.fd)) :=
    (Keeps.log _ _).trans (.log _ _)
  unfold gunzipIndex
  generalize (c.log (.opened f.fd)).log (.closed f.fd) = d at h1 ⊢
  have h2 : Keeps env d { d.squashKa with responseStatus := 200, pathname := some gz } :=
    .of_eq rfl rfl id
  dsimp only
  split_ifs
  · exact (h1.trans h2).trans (streamHeader_keeps env _ _ _)
  · exact stream_keeps (h1.trans h2) _ _ ((Keeps.log _ _).trans (.log _ _))

lemma getDir_keeps (env : Env) (c : Request) (dir : File) : Keeps env c (c.getDir env dir).1 := by
  unfold getDir
  split
  · exact makeDir_keeps env c dir
  · dsimp only
    generalize (if env.cfg.gunzip then 3 else 0) = k
    split
    · exact (sendRError_refused env c).keeps
    · split
      · exact .of_eq rfl rfl id
      · exact (sendRForbidden_refused env c).keeps
      · exact (sendRNotFound_refused env c).keeps
      · split_ifs
        · split
          · exact gunzipIndex_keeps env c _ _ _
          · exact makeDir_keeps env c dir
        · exact makeDir_keeps env c dir

lemma rebuildCache_gives {dir f : File} {name path : Bytes}
    (h : c.rebuildCache env dir name = (d, .file f path)) : env.Gives f.fd := by
  unfold rebuildCache at h
  split at h
  · cases h
  · split at h
    · next g hg =>
      cases h
      exact .inr (.inr (.inr ⟨g, hg, rfl⟩))
    · cases h

lemma makeDir_gives {dir f : File} {path : Bytes}
    (h : c.makeDir env dir = (d, .file f path)) : env.Gives f.fd := by
  unfold makeDir at h
  dsimp only at h
  split_ifs at h
  · cases h
  · cases h
  · split at h
    · unfold getCachedirFile at h
      dsimp only at h
      split at h
      · exact rebuildCache_gives h
      · next g hg =>
        split_ifs at h
        · cases h
          exact .inr (.inr (.inl ⟨_, g, hg, rfl⟩))
        · exact rebuildCache_gives h
    · cases h

/-- A file that `get_dir` hands back was opened there. -/
lemma getDir_gives {dir f : File} {path : Bytes}
    (h : c.getDir env dir = (d, .file f path)) : env.Gives f.fd := by
  unfold getDir at h
  split at h
  · exact makeDir_gives h
  · dsimp only at h
    generalize (if env.cfg.gunzip then 3 else 0) = k at h
    split at h
    · cases h
    · split at h
      · next g hg =>
        cases h
        exact .inr (.inr (.inl ⟨_, f, hg, rfl⟩))
      · cases h
      · cases h
      · split_ifs at h
        · split at h
          · unfold gunzipIndex at h
            dsimp only at h
            split_ifs at h <;> cases h
          · exact makeDir_gives h
        · exact makeDir_gives h

/-! ### Files -/

lemma firstChunk_keeps (env : Env) (c : Request) : Keeps env c (c.firstChunk env).1 := by
  have hdata : ∀ bs r rest n, Keeps env c ((c.bufferData bs).moveRange r rest n) :=
    fun _ _ _ _ => .of_eq rfl rfl id
  unfold firstChunk
  split
  · dsimp only
    split_ifs
    · have h : Keeps env c c.withdraw := .of_eq rfl rfl id
      exact h.trans (sendRError_refused env _).keeps
    · exact (hdata _ _ _ _).trans (completeResponse_keeps env _)
    · exact hdata _ _ _ _
    · exact .refl c
  · exact .refl c

lemma startTransfer_keeps (env : Env) (c : Request) : Keeps env c (c.startTransfer env).1 := by
  unfold startTransfer
  split_ifs
  · exact completeResponse_keeps env c
  · exact firstChunk_keeps env c

lemma respond_keeps (env : Env) (c : Request) : Keeps env c (c.respond env).1 := by
  unfold respond
  split
  · have h : Keeps env c { c with responseStatus := 206 } := .of_eq rfl rfl id
    exact (h.trans (writes_keeps _ _)).trans (startTransfer_keeps env _)
  · have h1 : Keeps env c { c with ranges := [⟨0, ulongMax⟩] } := .of_eq rfl rfl id
    have h2 := h1.trans (rangesFixup_keeps env { c with ranges := [⟨0, ulongMax⟩] })
    split
    · next c' he =>
      rw [he] at h2
      exact h2
    · next c' he =>
      rw [he] at h2
      exact (h2.trans (sendRRequestOk_keeps env c')).trans (startTransfer_keeps env _)

lemma attachData_keeps (c : Request) {f : File} (hf : env.Gives f.fd) :
    Keeps env c (c.attachData env f) := by
  unfold attachData
  split_ifs
  · exact ⟨.inr (.inr hf), .inl rfl, fun _ hp => absurd hp (by decide : ¬ Status.ioShuffle.piped)⟩
  · exact .of_eq rfl rfl id

lemma serveFile_keeps (c : Request) {f : File} (hf : env.Gives f.fd) (path : Bytes) :
    Keeps env c (c.serveFile env f path).1 := by
  have h1 : Keeps env c { c.log (.serve path) with filesize := f.size, lastModified := f.mtime } :=
    .of_eq rfl rfl id
  have hstart : ∀ d : Request, Keeps env d ((d.attachData env f).respond env).1 :=
    fun d => (attachData_keeps d hf).trans (respond_keeps env _)
  unfold serveFile
  split_ifs
  · exact (sendRBadRequest_refused env c).keeps.trans (.log _ _)
  unfold serveRegular
  split_ifs with hm
  · exact ((Keeps.log c (.serve path)).trans (sendRNotModified_refused env _).keeps).trans (.log _ _)
  dsimp only
  split_ifs
  · exact (h1.trans (sendRNoContent_keeps env _)).trans (.log _ _)
  · exact (h1.trans (sendRRequestOk_keeps env _)).trans (.log _ _)
  · have h2 := h1.trans (rangesFixup_keeps env
      { c.log (.serve path) with filesize := f.size, lastModified := f.mtime })
    split
    · next c' he =>
      rw [he] at h2
      exact h2.trans (.log _ _)
    · next c' he =>
      rw [he] at h2
      exact h2.trans (hstart c')
  · exact h1.trans (hstart _)

lemma serveDirectory_keeps (env : Env) (c : Request) (dir : File) :
    Keeps env c (c.serveDirectory env dir).1 := by
  have h1 : Keeps env c (c.log (.closed dir.fd)) := .log _ _
  unfold serveDirectory
  dsimp only
  split_ifs
  · refine h1.trans ?_
    unfold redirectDirectory
    dsimp only
    split_ifs
    · exact (sendRError_refused env _).keeps
    · exact (sendRMovedPerm_refused env _ _).keeps
  · have h2 := h1.trans (getDir_keeps env (c.log (.closed dir.fd)) dir)
    split
    · next c' he =>
      rw [he] at h2
      exact h2
    · next c' r he =>
      rw [he] at h2
      exact h2
    · next c' f path he =>
      rw [he] at h2
      exact h2.trans (serveFile_keeps c' (getDir_gives he) path)

lemma serveOpened_keeps (c : Request) {f : File} (hf : env.Gives f.fd) :
    Keeps env c (c.serveOpened env f).1 := by
  unfold serveOpened
  split_ifs
  · exact (sendRForbidden_refused env c).keeps
  · exact serveDirectory_keeps env c f
  · exact serveFile_keeps c hf _

lemma gunzipDocument_keeps {r : Request × Ret} (h : c.gunzipDocument env = some r) :
    Keeps env c r.1 := by
  unfold gunzipDocument at h
  split_ifs at h
  · cases h
    exact (sendRBadRequest_refused env c).keeps
  dsimp only at h
  split at h
  · cases h
  · next f _ =>
    have h1 : Keeps env c ((c.log (.opened f.fd)).log (.closed f.fd)) :=
      (Keeps.log _ _).trans (.log _ _)
    generalize (c.log (.opened f.fd)).log (.closed f.fd) = d at h h1
    have h2 : Keeps env d { d with responseStatus := 200, pathname := some (c.path ++ text ".gz") } :=
      .of_eq rfl rfl id
    split_ifs at h
    · cases h
      exact (h1.trans h2).trans (streamHeader_keeps env _ _ _)
    · cases h
      exact stream_keeps (h1.trans h2) _ _ ((Keeps.log _ _).trans (.log _ _))

lemma initGet_keeps (env : Env) (c : Request) : Keeps env c (c.initGet env).1 := by
  have hgives : ∀ {path f}, env.fs.openFile path = .ok f → env.Gives f.fd :=
    fun {path f} h => .inr (.inr (.inl ⟨path, f, h, rfl⟩))
  unfold initGet
  split
  · next f hf => exact (Keeps.log _ _).trans (serveOpened_keeps _ (hgives hf))
  · next e _ =>
    have hn := openRewritten_noted env c e
    split
    · next c' f he =>
      rw [he] at hn
      refine hn.keeps.trans (serveOpened_keeps c' ?_)
      unfold openRewritten at he
      split_ifs at he
      · split at he
        · cases he
        · split at he
          · next g hg =>
            cases he
            exact hgives hg
          · cases he
      · cases he
    · next c' e' he =>
      rw [he] at hn
      have hfail : Keeps env c (c'.openFailed env e) := hn.keeps.trans (openFailed_refused env c' e).keeps
      split_ifs
      · split
        · next r hr => exact hn.keeps.trans (gunzipDocument_keeps hr)
        · exact hfail
      · exact hfail

/-! ### Headers and bodies -/

lemma openPostFile_keeps (env : Env) (c : Request) :
    Keeps env c (c.openPostFile env).1 ∧
      ((c.openPostFile env).2 ≠ .done → (c.openPostFile env).1.postDataFd ≠ 0) := by
  have hset : Keeps env c (c.setPostDataFd env.tempFd) := by
    unfold setPostDataFd
    split_ifs <;> exact ⟨.inl rfl, .inr (.inr (.inl rfl)), id⟩
  have hfd : (c.setPostDataFd env.tempFd).postDataFd = env.tempFd := rfl
  unfold openPostFile
  generalize c.setPostDataFd env.tempFd = d at hset hfd
  dsimp only
  split_ifs with h0
  · exact ⟨hset.trans (sendRError_refused env d).keeps, fun hn => absurd rfl hn⟩
  · have hclose : Keeps env (d.log (.opened env.tempFd))
        { ((d.log (.opened env.tempFd)).boaPerror env).log (.closed env.tempFd) with postDataFd := 0 } :=
      (sendRError_refused env _).keeps.trans ⟨.inl rfl, .inr (.inl rfl), id⟩
    exact ⟨(hset.trans (.log d _)).trans hclose, fun hn => absurd rfl hn⟩
  · refine ⟨hset.trans (.log d _), fun _ => ?_⟩
    show d.postDataFd ≠ 0
    rw [hfd]
    exact h0

/-- `process_header_end`; the body of a POST goes to a file that is open. -/
lemma dispatchUri_keeps (env : Env) (c : Request) (h0 : c.bufferStart = 0) :
    Keeps env c (c.dispatchUri env).1 ∧
      ((c.dispatchUri env).2 ≠ .done → (c.dispatchUri env).1.method = .post →
        (c.dispatchUri env).1.postDataFd ≠ 0) := by
  unfold dispatchUri
  obtain ⟨hr, hl⟩ | ⟨hr, d, hl, href⟩ := translateUri_translated env c
  · generalize c.translateUri env = r at hr hl
    obtain ⟨d, ok⟩ := r
    cases hr
    have hkeep : Keeps env c d := hl.keeps
    have hstart : d.bufferStart = 0 := hl.bufferStart.trans h0
    dsimp only
    split_ifs with hm hc
    · obtain ⟨h1, h2⟩ := openPostFile_keeps env d
      exact ⟨hkeep.trans h1, fun hn _ => h2 hn⟩
    · have hf := (initCgi_effect (S := False) env d).fixed
      refine ⟨hkeep.trans (initCgi_keeps env d), fun _ hpost => absurd ?_ hm⟩
      exact (of_kept (of_fixed hf).1).2.2.2.1.symm.trans hpost
    · have hf := (initGet_effect (S := False) env { d with status := .write } hstart).fixed
      have hwrite : Keeps env d { d with status := .write } := .setStatus d (by decide)
      refine ⟨(hkeep.trans hwrite).trans (initGet_keeps env _), fun _ hpost => absurd ?_ hm⟩
      exact (of_kept (of_fixed hf).1).2.2.2.1.symm.trans hpost
  · generalize c.translateUri env = r at hr href
    obtain ⟨e, ok⟩ := r
    cases hr
    exact ⟨(hl.keeps.trans href.keeps).trans (.of_eq rfl rfl id), fun hn => absurd rfl hn⟩

lemma processHeaderEnd_keeps (env : Env) (c : Request) (h0 : c.bufferStart = 0) :
    Keeps env c (c.processHeaderEnd env).1 ∧
      ((c.processHeaderEnd env).2 ≠ .done → (c.processHeaderEnd env).1.method = .post →
        (c.processHeaderEnd env).1.postDataFd ≠ 0) := by
  unfold processHeaderEnd
  obtain ⟨uri, query, host, he | ⟨d, he, hr⟩⟩ := acceptUri_cases env (c.log .headerEnd)
  · rw [he]
    obtain ⟨h1, h2⟩ := dispatchUri_keeps env
      { c.log .headerEnd with requestUri := uri, queryString := query, host := host } h0
    exact ⟨h1.behind rfl rfl id, h2⟩
  · rw [he]
    exact ⟨hr.keeps.behind rfl rfl id, fun hn => absurd rfl hn⟩

end Request

/-- A request that waits for a descriptor of its own has one. -/
structure Waits (c : Request) : Prop where
  pipe : c.Piped
  body : c.status = .bodyRead ∨ c.status = .bodyWrite → c.postDataFd ≠ 0

/-- A status behind the body of a request. -/
lemma Waits.of_late (hp : c.Piped) (hs : 6 ≤ c.status.rank) : Waits c := by
  refine ⟨hp, fun hb => ?_⟩
  obtain hb | hb := hb
  · rw [hb] at hs
    exact absurd hs (by decide)
  · rw [hb] at hs
    exact absurd hs (by decide)

lemma Waits.of_done (hs : c.status = .done) : Waits c := by
  refine .of_late (fun hp => absurd hp ?_) ?_
  · rw [hs]
    decide
  · rw [hs]
    decide

lemma Waits.of_header (hs : c.status.inHeader) : Waits c := by
  refine ⟨fun hp => absurd hp hs.not_piped, fun hb => ?_⟩
  obtain hb | hb := hb
  · rw [hb] at hs
    exact absurd hs (by decide)
  · rw [hb] at hs
    exact absurd hs (by decide)

namespace Request

/-- The end of the header block. -/
lemma endHeader_keeps (env : Env) (c : Request) (h0 : c.bufferStart = 0) (hc : c.Piped) :
    Keeps env c (c.endHeader env).1 ∧ ((c.endHeader env).2 ≠ .done → Waits (c.endHeader env).1) := by
  obtain ⟨h1, h2⟩ := processHeaderEnd_keeps env c h0
  have hcon := processHeaderEnd_concluded (S := False) env c h0
  obtain ⟨hm, he⟩ | ⟨hd, he⟩ | ⟨hn, hm, he⟩ := endHeader_cases env c
  · rw [he]
    refine ⟨h1, fun hn => ?_⟩
    obtain ⟨hlate, -⟩ | ⟨-, hpost, -⟩ := hcon.next hn
    · exact .of_late (h1.pipe hc) hlate
    · exact absurd hpost hm
  · rw [he]
    exact ⟨h1, fun hn => absurd hd hn⟩
  · rw [he]
    have hfd := h2 hn hm
    have hbody : ¬ Status.bodyWrite.piped := by decide
    obtain ⟨hl, hend, size, pos, hb | ⟨e, hb, hr⟩⟩ := startBody_cases env (c.processHeaderEnd env).1
    · rw [hb]
      exact ⟨h1.trans (.of_eq rfl rfl fun hp => absurd hp hbody), fun _ =>
        ⟨fun hp => absurd hp hbody, fun _ => hfd⟩⟩
    · rw [hb]
      refine ⟨h1.trans (hr.keeps.behind rfl rfl fun hp => absurd hp hbody), fun hn => absurd rfl hn⟩

lemma nextStatus_not_piped {s : Status} {uc : UInt8} (h : s.inHeader) : ¬ (nextStatus s uc).piped := by
  by_cases hb : nextStatus s uc = .bodyRead
  · rw [hb]
    decide
  · exact (nextStatus_inHeader h hb).not_piped

end Request

open Request in
/-- One byte of the header. -/
lemma ByteStep.keeps {uc : UInt8} {r : Option Ret} (h : ByteStep env c uc d r)
    (hc : Parsing False c) :
    Keeps env c d ∧ ∀ ret, r = some ret → ret ≠ .done → Waits d := by
  have hquiet : ¬ (c.advance uc).status.piped := nextStatus_not_piped hc.header
  have hadv : Keeps env c (c.advance uc) := .of_eq rfl rfl fun hp => absurd hp hquiet
  have hterm : Keeps env c (c.advance uc).terminateLine :=
    .of_eq rfl rfl fun hp => absurd hp hquiet
  have hline : ∀ e, Keeps env c ((c.advance uc).terminateLine.log e) :=
    fun e => hterm.trans (.log _ e)
  have hdone : ∀ ret, some Ret.done = some ret → ret ≠ .done → Waits d := by
    intro ret he hn
    cases he
    exact absurd rfl hn
  have hnone : ∀ ret, (none : Option Ret) = some ret → ret ≠ .done → Waits d := nofun
  cases h with
  | illegal hi hd => exact ⟨(Keeps.log c _).trans hd.keeps, hdone⟩
  | skip hi h1 h2 => exact ⟨hadv, hnone⟩
  | tooLong hi hs hl hd => exact ⟨(hline _).trans hd.keeps, hdone⟩
  | option hi hs hl hd hcount =>
    exact ⟨((hline _).trans hd.keeps).trans (.of_eq rfl rfl id), nofun⟩
  | optionStop hi hs hl hd => exact ⟨(hline _).trans hd.keeps, hdone⟩
  | logline hi hs hl hd hv =>
    exact ⟨(hterm.trans hd.keeps).trans (.of_eq rfl rfl id), nofun⟩
  | loglineStop hi hs hl hd he => exact ⟨(hterm.trans hd.keeps).trans he.keeps, hdone⟩
  | @short d hi hs hl hd hv =>
    have hkeep : Keeps env c d := hterm.trans hd.keeps
    have heq : d.bufferStart = 0 ∧ d.status = .oneLf := by
      obtain ⟨_, _, _, _, _, _, rfl, -⟩ := hd
      exact ⟨hc.start, hs⟩
    obtain ⟨h1, -⟩ := processHeaderEnd_keeps env d heq.1
    refine ⟨hkeep.trans h1, fun ret he hn => ?_⟩
    cases he
    obtain ⟨hlate, -⟩ | ⟨-, -, hstatus, -⟩ :=
      (processHeaderEnd_concluded (S := False) env d heq.1).next hn
    · exact .of_late ((hkeep.trans h1).pipe fun hp => absurd hp hc.header.not_piped) hlate
    · refine .of_header ?_
      rw [hstatus, show (d.log .headerEnd).status = .oneLf from heq.2]
      decide
  | finish hi hs =>
    obtain ⟨h1, h2⟩ := endHeader_keeps env (c.advance uc) hc.start fun hp => absurd hp hquiet
    refine ⟨hadv.trans h1, fun ret he hn => ?_⟩
    cases he
    exact h2 hn

namespace Request

lemma scanHeader_keeps (env : Env) {c : Request} (h : Parsing False c) (bs : Bytes) :
    Keeps env c (scanHeader env c bs).1 ∧
      ((scanHeader env c bs).2 = none → (scanHeader env c bs).1.status.inHeader) ∧
      ∀ ret, (scanHeader env c bs).2 = some ret → ret ≠ .done → Waits (scanHeader env c bs).1 := by
  induction bs generalizing c with
  | nil => exact ⟨.refl c, fun _ => h.header, by simp [scanHeader]⟩
  | cons uc bs ih =>
    have hstep := (headerByte_step env c uc).ended h
    have hkeeps := (headerByte_step env c uc).keeps h
    unfold scanHeader
    generalize c.headerByte env uc = r at hstep hkeeps
    obtain ⟨d, _ | ret⟩ := r
    · obtain ⟨h1, h2⟩ := ih (hstep.1 rfl)
      exact ⟨hkeeps.1.trans h1, h2⟩
    · exact ⟨hkeeps.1, by simp, hkeeps.2⟩

/-- What a handler does to the descriptors of a request. -/
def Handled (env : Env) (c : Request) (r : Request × Ret) : Prop :=
  Keeps env c r.1 ∧ (r.2 ≠ .done → Waits r.1)

lemma Handled.done (h : Keeps env c d) : Handled env c (d, .done) := ⟨h, fun hn => absurd rfl hn⟩

/-- The status is behind the body before and after. -/
lemma Handled.of_late {r : Request × Ret} (h : Keeps env c r.1) (hc : Waits c)
    (hs : 6 ≤ r.1.status.rank) : Handled env c r := ⟨h, fun _ => .of_late (h.pipe hc.pipe) hs⟩

lemma readHeader_handled (env : Env) {c : Request} (h : Parsing False c) :
    Handled env c (c.readHeader env) := by
  obtain ⟨h1, h2, h3⟩ := scanHeader_keeps env h (c.clientStream.drop c.parsePos)
  unfold readHeader
  generalize scanHeader env c (c.clientStream.drop c.parsePos) = r at h1 h2 h3
  obtain ⟨d, _ | ret⟩ := r
  · have hhead : d.status.inHeader := h2 rfl
    have hwaits : Waits d := .of_header hhead
    dsimp only
    split_ifs
    · unfold readMore
      dsimp only
      split_ifs
      · exact .done (h1.trans (.of_eq rfl rfl fun hp => absurd hp (by decide : ¬ Status.dead.piped)))
      · split
        · exact ⟨h1.trans (.of_eq rfl rfl id), fun _ => ⟨hwaits.pipe, hwaits.body⟩⟩
        · exact ⟨h1.trans (.of_eq rfl rfl id), fun _ => ⟨hwaits.pipe, hwaits.body⟩⟩
        · exact .done (h1.trans (.of_eq rfl rfl id))
        · exact .done (h1.trans (.of_eq rfl rfl id))
        · exact ⟨h1.trans (.of_eq rfl rfl id), fun _ => ⟨hwaits.pipe, hwaits.body⟩⟩
    · exact ⟨h1, fun _ => hwaits⟩
  · exact ⟨h1, h3 ret rfl⟩

lemma readBody_handled {env : Env} {c : Request} (hs : c.status = .bodyRead) (hc : Waits c) :
    Handled env c (c.readBody env) := by
  have hfd : c.postDataFd ≠ 0 := hc.body (.inl hs)
  have hbody : ¬ Status.bodyWrite.piped := by decide
  have hpop : Keeps env c c.popClient := .of_eq rfl rfl id
  unfold readBody
  dsimp only
  split_ifs
  · exact ⟨.of_eq rfl rfl fun hp => absurd hp hbody, fun _ => ⟨fun hp => absurd hp hbody, fun _ => hfd⟩⟩
  · split
    · exact ⟨hpop, fun _ => ⟨hc.pipe, hc.body⟩⟩
    · exact .done ((hpop.trans (sendRError_refused env _).keeps).trans (.of_eq rfl rfl id))
    · exact .done ((hpop.trans (sendRError_refused env _).keeps).trans (.of_eq rfl rfl id))
    · exact .done (hpop.trans (sendRBadRequest_refused env _).keeps)
    · next bs _ =>
      have hstore : (c.popClient.storeAtEnd bs).dataFd = c.dataFd ∧
          (c.popClient.storeAtEnd bs).postDataFd = c.postDataFd := by
        unfold storeAtEnd
        split <;> exact ⟨rfl, rfl⟩
      exact ⟨.of_eq hstore.1 hstore.2 fun hp => absurd hp hbody, fun _ =>
        ⟨fun hp => absurd hp hbody, fun _ => by rw [← hstore.2] at hfd; exact hfd⟩⟩

lemma writeBody_handled {env : Env} {c : Request} (hs : c.status = .bodyWrite) (hc : Waits c) :
    Handled env c (c.writeBody env) := by
  have hfd : c.postDataFd ≠ 0 := hc.body (.inr hs)
  have hbody : ¬ Status.bodyRead.piped := by decide
  unfold writeBody
  dsimp only
  split_ifs
  · have h1 := initCgi_keeps env { c with headerLine := ⟨.buffer, 0⟩, headerEnd := ⟨.buffer, 0⟩ }
    have h2 : Keeps env c _ := h1.behind rfl rfl id
    refine ⟨h2, fun hn => .of_late (h2.pipe hc.pipe) ?_⟩
    rw [initCgi_more hn]
    decide
  · exact ⟨.of_eq rfl rfl fun hp => absurd hp hbody, fun _ => ⟨fun hp => absurd hp hbody, fun _ => hfd⟩⟩
  · split
    · exact ⟨.of_eq rfl rfl id, fun _ => ⟨hc.pipe, hc.body⟩⟩
    · exact ⟨.of_eq rfl rfl id, fun _ => ⟨hc.pipe, hc.body⟩⟩
    · exact .done ((sendRError_refused env _).keeps.behind rfl rfl id)
    · exact ⟨.of_eq rfl rfl id, fun _ => ⟨hc.pipe, hc.body⟩⟩

/-! ### Transfers -/

lemma processGet_keeps (env : Env) (c : Request) : Keeps env c (c.processGet env).1 := by
  have hdead : ¬ Status.dead.piped := by decide
  unfold processGet
  split
  · exact completeResponse_keeps env c
  · split
    · exact .log c _
    · dsimp only
      split_ifs
      · exact .of_eq rfl rfl fun hp => absurd hp hdead
      · split
        · exact .of_eq rfl rfl id
        · exact .of_eq rfl rfl fun hp => absurd hp hdead
        · exact .of_eq rfl rfl fun hp => absurd hp hdead
        · split_ifs
          · exact (completeResponse_keeps env _).behind rfl rfl id
          · exact .of_eq rfl rfl id

lemma shuffleWrite_keeps (c : Request) : Keeps env c c.shuffleWrite.1 := by
  have hdead : ¬ Status.dead.piped := by decide
  unfold shuffleWrite
  dsimp only
  split_ifs
  · exact .refl c
  · exact .of_eq rfl rfl id
  · split
    · exact .of_eq rfl rfl id
    · exact .of_eq rfl rfl id
    · exact .of_eq rfl rfl fun hp => absurd hp hdead
    · split_ifs <;> exact .of_eq rfl rfl id

lemma ioShuffle_keeps (env : Env) (c : Request) (hs : ¬ c.status.piped) :
    Keeps env c (c.ioShuffle env).1 := by
  have hdead : ¬ Status.dead.piped := by decide
  unfold ioShuffle
  split_ifs
  · exact completeResponse_keeps env c
  · split
    · exact .log c _
    · dsimp only
      split_ifs
      · unfold shuffleRead
        split_ifs
        · exact .of_eq rfl rfl fun hp => absurd hp hdead
        · dsimp only
          split
          · split_ifs
            · exact .of_eq rfl rfl id
            · exact (shuffleWrite_keeps _).behind rfl rfl id
          · split_ifs
            · exact .of_eq rfl rfl id
            · exact (shuffleWrite_keeps _).behind rfl rfl id
          · exact .of_eq rfl rfl fun hp => absurd hp hdead
          · -- the file is closed at its end
            refine Keeps.trans ?_ (shuffleWrite_keeps _)
            exact ⟨.inr (.inl rfl), .inl rfl, fun _ hp => absurd hp hs⟩
          · split_ifs
            · exact (completeResponse_keeps env _).behind rfl rfl id
            · exact (shuffleWrite_keeps _).behind rfl rfl id
      · exact shuffleWrite_keeps c

lemma ioShuffleSendfile_keeps (env : Env) (c : Request) (hs : ¬ c.status.piped) :
    Keeps env c (c.ioShuffleSendfile env).1 := by
  have hdead : ¬ Status.dead.piped := by decide
  have hsent : ∀ d : Request, Keeps env d (d.sentRange env).1 := by
    intro d
    unfold sentRange
    split
    · exact .log d _
    · split_ifs
      · exact completeResponse_keeps env d
      · exact .refl d
  unfold ioShuffleSendfile
  split_ifs
  · exact completeResponse_keeps env c
  · split
    · exact .log c _
    · dsimp only
      split_ifs
      · exact hsent c
      · exact .setStatus c hdead
      · split
        · exact (ioShuffle_keeps env c.popSend hs).behind rfl rfl id
        · exact .of_eq rfl rfl id
        · exact .of_eq rfl rfl id
        · exact .of_eq rfl rfl id
        · exact .of_eq rfl rfl fun hp => absurd hp hdead
        · split_ifs
          · exact .of_eq rfl rfl fun hp => absurd hp hdead
          · exact (hsent _).behind rfl rfl id

/-! ### Pipes -/

/-- The descriptors, which no routine on a pipe changes. -/
def fds (c : Request) : ℕ × ℕ := (c.dataFd, c.postDataFd)

end Request

lemma Refused.fds (h : Refused c d) : d.fds = c.fds := by
  obtain ⟨o, code, rfl, -⟩ := h
  rfl

/-- A routine on a pipe. -/
lemma Keeps.of_fds (h : d.fds = c.fds) (hs : c.status.piped) : Keeps env c d := by
  simp only [Request.fds, Prod.mk.injEq] at h
  refine ⟨.inl h.1, .inl h.2, fun hc _ => ?_⟩
  rw [h.1]
  exact hc hs

lemma Waits.congr (h : Waits c) (hs : d.status = c.status) (hf : d.fds = c.fds) : Waits d := by
  obtain ⟨h1, h2⟩ := Prod.mk.inj hf
  constructor
  · intro hp
    rw [h1]
    exact h.pipe (hs ▸ hp)
  · intro hb
    rw [h2]
    exact h.body (hs ▸ hb)

namespace Request

lemma fds_of_beyond (h : d.beyond = c.beyond) : d.fds = c.fds := by
  simp only [beyond, Prod.mk.injEq] at h
  rw [fds, fds, h.1, h.2.1]

lemma writeFromPipe_fds (c : Request) : c.writeFromPipe.1.fds = c.fds :=
  fds_of_beyond (writeFromPipe_beyond c)

lemma readFromPipe_fds (env : Env) (c : Request) : (c.readFromPipe env).1.fds = c.fds := by
  obtain h | h := readFromPipe_beyond env c
  · exact fds_of_beyond h
  · exact fds_of_beyond (c := c.popFile) h

/-! ### Rounds -/

lemma processDone_keeps (c : Request) : Keeps env c c.processDone.1 := by
  have hflush : Keeps env c { c with toOut := c.toOut.reqFlush.1 } := flush_keeps c
  unfold processDone
  generalize c.toOut.reqFlush = r at hflush
  obtain ⟨o, fl⟩ := r
  cases fl with
  | error => exact hflush.trans (.setStatus { c with toOut := o } (s := .dead) (by decide))
  | blocked => exact hflush
  | left n => cases n <;> exact hflush

/-- The flush at the top of a round. -/
lemma flushFirst_handled (env : Env) {c : Request} (hc : Waits c) : Handled env c c.flushFirst := by
  have hflush : Keeps env c { c with toOut := c.toOut.reqFlush.1 } := flush_keeps c
  have hrep : Out.Replies (fun _ => True) (fun _ => True) c.toOut c.toOut.reqFlush.1 :=
    Out.reqFlush_replies c.toOut
  have hwaits : Waits { c with toOut := c.toOut.reqFlush.1 } := by
    refine ⟨hflush.pipe hc.pipe, fun hb => hc.body ?_⟩
    have hb : c.toOut.reqFlush.1.status = .bodyRead ∨ c.toOut.reqFlush.1.status = .bodyWrite := hb
    obtain he | he := hrep.status
    · rw [he] at hb
      exact hb
    · rw [he] at hb
      simp at hb
  unfold flushFirst
  split_ifs
  · generalize c.toOut.reqFlush = r at hflush hwaits
    obtain ⟨o, fl⟩ := r
    cases fl with
    | error => exact .done (hflush.trans (.setStatus { c with toOut := o } (s := .dead) (by decide)))
    | blocked => exact ⟨hflush, fun _ => hwaits⟩
    | left n => exact ⟨hflush, fun _ => hwaits⟩
  · exact ⟨.refl c, fun _ => hc⟩

/-- A round behind the header. -/
lemma handle_handled (env : Env) {c : Request} (hc : Waits c) (hs : ¬ c.status.inHeader) :
    Handled env c (c.handle env) := by
  have hlate : 6 ≤ c.status.rank → Keeps env c (c.handle env).1 → Handled env c (c.handle env) := by
    intro hrank hk
    have hlater : Later c (c.handle env).1 := handle_later hs fun hb => by
      rw [hb] at hrank
      exact absurd hrank (by decide)
    exact .of_late hk hc (hlater.late hrank)
  unfold handle at hlate ⊢
  cases hstatus : c.status with
  | readHeader => exact absurd (by rw [hstatus]; decide) hs
  | oneCr => exact absurd (by rw [hstatus]; decide) hs
  | oneLf => exact absurd (by rw [hstatus]; decide) hs
  | twoCr => exact absurd (by rw [hstatus]; decide) hs
  | bodyRead => exact readBody_handled hstatus hc
  | bodyWrite => exact writeBody_handled hstatus hc
  | write =>
    simp only [hstatus] at hlate ⊢
    exact hlate (by decide) (processGet_keeps env c)
  | pipeRead =>
    simp only [hstatus] at hlate ⊢
    exact hlate (by decide) (.of_fds (readFromPipe_fds env c) (.inl hstatus))
  | pipeWrite =>
    simp only [hstatus] at hlate ⊢
    exact hlate (by decide) (.of_fds (writeFromPipe_fds c) (.inr hstatus))
  | ioShuffle =>
    have hp : ¬ c.status.piped := by
      rw [hstatus]
      decide
    simp only [hstatus] at hlate ⊢
    refine hlate (by decide) ?_
    split_ifs
    · exact ioShuffleSendfile_keeps env c hp
    · exact ioShuffle_keeps env c hp
  | done =>
    simp only [hstatus] at hlate ⊢
    exact hlate (by decide) (processDone_keeps c)
  | timedOut => exact .done (.of_eq rfl rfl id)
  | dead => exact .done (.of_eq rfl rfl id)

end Request

/-- What holds of a request between two rounds. -/
structure Fit (c : Request) : Prop extends Waits c where
  whole : Whole False c

namespace Request

/-- One round of a request, up to the return value of its handler. -/
lemma serveOnce_handled (env : Env) {c : Request} (h : Fit c) : Handled env c (c.serveOnce env) := by
  have harm : Keeps env c (c.arm env) := .of_eq rfl rfl id
  have hwaits : Waits (c.arm env) := ⟨h.pipe, h.body⟩
  obtain ⟨hh, hp, he⟩ | ⟨hh, -⟩ := serveOnce_cases env h.whole
  · rw [he]
    obtain ⟨h1, h2⟩ := readHeader_handled env hp
    exact ⟨harm.trans h1, h2⟩
  · by_cases hlive : c.status < .timedOut
    · obtain ⟨-, hmore⟩ := flushFirst_ended (h.whole.live hlive env False.elim) hlive
      have hflush := flushFirst_handled env hwaits
      unfold serveOnce
      generalize (c.arm env).flushFirst = r at hmore hflush
      obtain ⟨d, ret⟩ := r
      cases ret with
      | blocked => exact ⟨harm.trans hflush.1, hflush.2⟩
      | done => exact ⟨harm.trans hflush.1, hflush.2⟩
      | more =>
        have hst : d.status = c.status := (hmore rfl).1
        obtain ⟨h1, h2⟩ := handle_handled env (hflush.2 (by simp)) (hst ▸ hh)
        exact ⟨(harm.trans hflush.1).trans h1, h2⟩
    · rw [serveOnce_dead hlive]
      exact .done (harm.trans (.of_eq rfl rfl id))

/-- The connection is kept: more to send with the same descriptors, or a new request
without any. -/
lemma freeRequest_kept (env : Env) {c : Request} (h : Over False c)
    (hp : (c.freeRequest env).2 ≠ .free) :
    Fit (c.freeRequest env).1 ∧
      ((c.freeRequest env).1.fds = c.fds ∨ (c.freeRequest env).1.fds = (0, 0)) := by
  have hwhole : Whole False (c.freeRequest env).1 := (freeRequest_whole h False.elim).1 hp
  have hend : ∀ d : Request, (d.endRequest env).2 ≠ .free →
      (d.endRequest env).1.status.inHeader ∧ (d.endRequest env).1.fds = (0, 0) := by
    intro d hd
    obtain ⟨es, code, -, ⟨-, he⟩ | ⟨-, he⟩⟩ := endRequest_cases env d
    · rw [he]
      exact ⟨(by decide : Status.readHeader.inHeader), rfl⟩
    · rw [he] at hd
      exact absurd rfl hd
  have hfresh : (c.freeRequest env).1.status.inHeader ∧ (c.freeRequest env).1.fds = (0, 0) →
      Fit (c.freeRequest env).1 ∧
        ((c.freeRequest env).1.fds = c.fds ∨ (c.freeRequest env).1.fds = (0, 0)) :=
    fun hf => ⟨⟨.of_header hf.1, hwhole⟩, .inr hf.2⟩
  obtain ⟨-, hl, n, hn, he⟩ | ⟨-, -, -, he⟩ | ⟨-, -, -, he⟩ | ⟨-, he⟩ := freeRequest_cases env c
  · have hok : Out.BufOk { c.toOut with status := .done } :=
      ⟨(h.ok hl).start_le, (h.ok hl).end_le, (h.ok hl).size⟩
    have hst := (Out.reqFlush_left hok hn).2.1
    rw [he] at hwhole ⊢
    exact ⟨⟨.of_done hst, hwhole⟩, .inl rfl⟩
  all_goals
    refine hfresh ?_
    rw [he] at hp ⊢
    exact hend _ hp

/-- A new connection. -/
lemma getRequest_fit (env : Env) (peer : Peer) (old : Request) :
    Fit (old.getRequest env peer) ∧ (old.getRequest env peer).fds = (0, 0) := by
  have hwhole : Whole False (old.getRequest env peer) := getRequest_whole False.elim
  unfold getRequest at hwhole ⊢
  dsimp only at hwhole ⊢
  split_ifs at hwhole ⊢
  · exact ⟨⟨.of_done rfl, hwhole⟩, (sendRServiceUnavailable_refused env _).fds⟩
  · exact ⟨⟨.of_header (by decide : Status.readHeader.inHeader), hwhole⟩, rfl⟩

end Request
end Boa
