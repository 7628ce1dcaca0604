import Boa.LogCount

/-! What `init_get` answers with: a file as it is, or something else after which the connection is
closed. -/
namespace Boa
open Memory History

/-- Not the line that promises to keep the connection. -/
def Event.unpromising (e : Event) : Prop := e ≠ .kaPhrase true

/-- Keep-alive is stopped, and it was not promised on the way. -/
structure Closing (c d : Request) : Prop where
  stopped : d.keepalive = .stopped
  adds : Adds Event.unpromising c.trace d.trace

variable {env : Env} {c d e : Request}

lemma Event.unpromising_of_isNote {e : Event} (h : e.isNote) : e.unpromising := by
  rintro rfl
  simp [Event.isNote] at h

lemma Event.unpromising_of_reply {len : ℕ → Prop} {e : Event} (h : Out.Reply (· = false) len e) : e.unpromising := by
  rintro rfl
  exact absurd h (by simp [Out.Reply])

namespace Closing

lemma trans (h : Closing c d) (h' : Closing d e) : Closing c e := ⟨h'.stopped, h.adds.trans h'.adds⟩

lemma behind (h : Closing d e) (ha : Adds Event.unpromising c.trace d.trace) : Closing c e :=
  ⟨h.stopped, ha.trans h.adds⟩

lemma of_eq (hk : d.keepalive = .stopped) (ht : d.trace = c.trace) : Closing c d := by
  refine ⟨hk, ?_⟩
  rw [ht]
  exact .refl _

lemma log (h : Closing c d) {e : Event} (he : e.unpromising) : Closing c (d.log e) :=
  ⟨h.stopped, h.adds.trans (.snoc he)⟩

lemma noted (h : Closing d e) (hn : Noted c d) : Closing c e := by
  obtain ⟨es, _, _, _, rfl, hes⟩ := hn
  exact h.behind ⟨es, rfl, fun e he => Event.unpromising_of_isNote (hes e he)⟩

lemma squashKa (c : Request) : Closing c c.squashKa := of_eq rfl rfl

lemma replies {len : ℕ → Prop} {o : Out} (hk : c.keepalive = .stopped)
    (h : Out.Replies (· = false) len c.toOut o) : Closing c { c with toOut := o } :=
  ⟨hk, h.adds.mono fun _ he => Event.unpromising_of_reply he⟩

end Closing

lemma Refused.closing (h : Refused c d) : Closing c d := by
  obtain ⟨o, code, rfl, -, hr⟩ := h
  exact ⟨rfl, hr.adds.mono fun _ he => Event.unpromising_of_reply he⟩

namespace Request

lemma reqFlush_closing (hk : c.keepalive = .stopped) : Closing c c.reqFlush := by
  have hr : Out.Replies (· = false) (fun _ => False) c.toOut c.toOut.reqFlush.1 := Out.reqFlush_replies _
  exact .replies hk hr

/-- A header that is written once keep-alive is stopped. -/
lemma streamHeader_closing (env : Env) (hk : c.keepalive = .stopped) (line : String) (tail : List Msg)
    (ht : ∀ m ∈ tail, m.isText) : Closing c (c.streamHeader env line tail) := by
  unfold streamHeader
  split_ifs
  · exact .of_eq hk rfl
  · have hwrites : Closing c (c.writes (c.statusLine line ++ c.printHttpHeaders env ++ tail)) :=
      .replies hk (errorHeader_replies env c hk line tail ht)
    exact hwrites.trans (reqFlush_closing hwrites.stopped)

/-! ### Children -/

lemma addCgiEnvs_closing (hk : c.keepalive = .stopped) (kvs : List (Bytes × Bytes)) :
    Closing c (c.addCgiEnvs kvs).1 := by
  induction kvs generalizing c with
  | nil => exact .of_eq hk rfl
  | cons kv kvs ih =>
    obtain ⟨ce, idx, he⟩ : ∃ ce idx, (c.addCgiEnv kv.1 kv.2 false).1 = { c with cgiEnv := ce, cgiEnvIndex := idx } := by
      unfold addCgiEnv
      split_ifs
      · exact ⟨_, _, rfl⟩
      · exact ⟨c.cgiEnv, c.cgiEnvIndex, rfl⟩
    have hadd : Closing c (c.addCgiEnv kv.1 kv.2 false).1 := by
      rw [he]
      exact .of_eq hk rfl
    unfold addCgiEnvs
    split
    · next d hd =>
      rw [hd] at hadd
      exact hadd.trans (ih hadd.stopped)
    · next d hd =>
      rw [hd] at hadd
      exact hadd

lemma completeEnv_closing (cfg : Config) (hk : c.keepalive = .stopped) : Closing c (c.completeEnv cfg).1 := by
  have hcommon : Closing c { c with cgiEnv := store c.cgiEnv 0 (cfg.commonCgiEnv.map some) } := .of_eq hk rfl
  have hadds := hcommon.trans (addCgiEnvs_closing (c := { c with cgiEnv := store c.cgiEnv 0 (cfg.commonCgiEnv.map some) })
    hk (serverVariables cfg { c with cgiEnv := store c.cgiEnv 0 (cfg.commonCgiEnv.map some) }))
  unfold completeEnv
  dsimp only
  split
  · next d he =>
    rw [he] at hadds
    exact hadds
  · next d he =>
    rw [he] at hadds
    split_ifs
    · exact hadds.trans (.of_eq hadds.stopped rfl)
    · exact hadds

lemma spawn_closing (env : Env) (hk : c.keepalive = .stopped) : Closing c (c.spawn env).1 := by
  have hopen : Closing c (if c.usesPipes then c.log (.opened env.pipeFd) else c) := by
    split_ifs
    · exact (Closing.of_eq hk rfl).log (by simp [Event.unpromising])
    · exact .of_eq hk rfl
  unfold spawn
  generalize (if c.usesPipes then c.log (.opened env.pipeFd) else c) = d at hopen
  have hclosed (fd : ℕ) : (Event.closed fd).unpromising := by simp [Event.unpromising]
  have hpost : Closing d d.closePostData := by
    unfold closePostData
    split_ifs
    · exact ((Closing.of_eq hopen.stopped rfl).log (hclosed _)).trans (.of_eq hopen.stopped rfl)
    · exact .of_eq hopen.stopped rfl
  have herror : Closing c (d.boaPerror env) := hopen.trans (sendRError_refused env d).closing
  dsimp only
  split_ifs
  · exact .of_eq hk rfl
  · exact hopen.log (hclosed _)
  · exact herror.log (hclosed _)
  · exact herror
  · exact (hopen.trans hpost).trans (.of_eq hpost.stopped rfl)
  · exact hopen.trans hpost

/-- A child is started, or not, on a connection that will be closed. -/
lemma initCgi_closing (env : Env) (c : Request) : Closing c (c.initCgi env).1 := by
  have hstop : Closing c c.squashKa := .squashKa c
  unfold initCgi
  dsimp only
  split_ifs
  · exact hstop.trans (spawn_closing env rfl)
  · have henv := hstop.trans (completeEnv_closing env.cfg (c := c.squashKa) rfl)
    split
    · next d he =>
      rw [he] at henv
      exact henv
    · next d he =>
      rw [he] at henv
      exact henv.trans (spawn_closing env henv.stopped)

/-! ### Directories -/

lemma indexDirectory_closing (h : c.indexDirectory env = (d, false)) : Closing c d := by
  unfold indexDirectory at h
  split at h
  · cases h
    exact (sendRForbidden_refused env c).closing
  · cases h
    exact (sendRBadRequest_refused env c).closing
  · split_ifs at h
    · cases h
      exact (sendRError_refused env c).closing
    · cases h
      exact (sendRError_refused env c).closing
    · cases h

lemma indexDirectory_noted (h : c.indexDirectory env = (d, true)) : Noted c d := by
  unfold indexDirectory at h
  split at h
  · cases h
  · cases h
  · split_ifs at h <;> cases h
    exact ⟨[], c.requestUri, (indexText c.requestUri env.dirEntries).length, c.pathname, by simp, by simp⟩

end Request

/-- What `get_dir` returns without a file is the end of the connection. -/
def DirResult.Ends (c d : Request) : DirResult → Prop
  | .file _ _ => Noted c d
  | _ => Closing c d

lemma Noted.ends {r : DirResult} (hn : Noted c d) (h : r.Ends d e) : r.Ends c e := by
  cases r with
  | file f path => exact hn.trans h
  | failed => exact h.noted hn
  | started r => exact h.noted hn

namespace Request

lemma rebuildCache_ends (env : Env) (c : Request) (dir : File) (name : Bytes) :
    (c.rebuildCache env dir name).2.Ends c (c.rebuildCache env dir name).1 := by
  unfold rebuildCache
  split
  · next d he => exact indexDirectory_closing he
  · next d he =>
    have hn := indexDirectory_noted he
    split
    · next f _ => exact (hn.trans (.log d (.opened f.fd) rfl)).trans (useIndexName_noted env _)
    · exact (sendRError_refused env d).closing.noted hn

lemma getCachedirFile_ends (env : Env) (c : Request) (cachedir : Bytes) (dir : File) :
    (c.getCachedirFile env cachedir dir).2.Ends c (c.getCachedirFile env cachedir dir).1 := by
  unfold getCachedirFile
  dsimp only
  split
  · exact rebuildCache_ends env c dir _
  · next f _ =>
    have hopen : Noted c (c.log (.opened f.fd)) := .log c _ rfl
    split_ifs
    · exact hopen.trans (useIndexName_noted env _)
    · exact (hopen.trans (.log _ _ rfl)).ends (rebuildCache_ends env _ dir _)

lemma makeDir_ends (env : Env) (c : Request) (dir : File) : (c.makeDir env dir).2.Ends c (c.makeDir env dir).1 := by
  have hstop : Closing c { c.squashKa with responseStatus := 200 } := .of_eq rfl rfl
  have hheader := hstop.trans (streamHeader_closing env (c := { c.squashKa with responseStatus := 200 }) rfl " 200 OK\r\n"
    (printLastModified env { c.squashKa with responseStatus := 200 } ++ [.raw (text "Content-Type: text/html\r\n\r\n")])
    (by simp [printLastModified]))
  unfold makeDir
  dsimp only
  split_ifs
  · exact hheader
  · exact hheader.trans (initCgi_closing env _)
  · split
    · exact getCachedirFile_ends env c _ dir
    · exact (sendRForbidden_refused env c).closing

lemma gunzipIndex_ends (env : Env) (c : Request) (f : File) (index gz : Bytes) :
    (c.gunzipIndex env f index gz).2.Ends c (c.gunzipIndex env f index gz).1 := by
  have hopen : Noted c ((c.log (.opened f.fd)).log (.closed f.fd)) := (Noted.log c _ rfl).trans (.log _ _ rfl)
  unfold gunzipIndex
  generalize (c.log (.opened f.fd)).log (.closed f.fd) = d at hopen ⊢
  have hstop : Closing d { d.squashKa with responseStatus := 200, pathname := some gz } := .of_eq rfl rfl
  have hheader := (hstop.trans (streamHeader_closing env
    (c := { d.squashKa with responseStatus := 200, pathname := some gz }) rfl " 200 OK-GUNZIP\r\n"
    (printLastModified env { d.squashKa with responseStatus := 200, pathname := some gz } ++
      [.raw (text "Content-Type: "), .raw (getMimeType env.cfg index), .raw (text "\r\n\r\n")])
    (by simp [printLastModified]))).noted hopen
  dsimp only
  split_ifs
  · exact hheader
  · have hmarks := (hheader.log (e := .gunzip) (by simp [Event.unpromising])).log (e := .serve gz)
      (by simp [Event.unpromising])
    exact hmarks.trans (initCgi_closing env _)

lemma getDir_ends (env : Env) (c : Request) (dir : File) : (c.getDir env dir).2.Ends c (c.getDir env dir).1 := by
  unfold getDir
  split
  · exact makeDir_ends env c dir
  · next index _ =>
    dsimp only
    generalize (if env.cfg.gunzip then 3 else 0) = k
    split
    · exact (sendRError_refused env c).closing
    · split
      · next f _ => exact ⟨[.opened f.fd], index, c.filesize, c.pathname, rfl, by simp [Event.isNote]⟩
      · exact (sendRForbidden_refused env c).closing
      · exact (sendRNotFound_refused env c).closing
      · split_ifs
        · split
          · exact gunzipIndex_ends env c _ _ _
          · exact makeDir_ends env c dir
        · exact makeDir_ends env c dir

/-! ### init_get -/

/-- The header that `init_get` writes for a file that goes through gunzip. -/
def gunzipHeader (env : Env) (c : Request) : Request :=
  let c : Request := { c with responseStatus := 200 }
  c.streamHeader env " 200 OK-GUNZIP\r\n" (c.printContentType env ++ c.printLastModified env ++ [.raw crlf])

/-- How `init_get` answers: with a file as it is, with an error, a redirect or a listing that end
the connection, or with a file that goes through gunzip. -/
inductive Answers (env : Env) (c : Request) : Request × Ret → Prop
  | file {d : Request} (f : File) (path : Bytes) (hn : Noted c d) : Answers env c (d.serveFile env f path)
  | closing {p : Request × Ret} (h : Closing c p.1) : Answers env c p
  | gunzip {d : Request} (gz : Bytes) (hn : Noted c d) (hm : d.method ≠ .head) :
      Answers env c ((((d.gunzipHeader env).log .gunzip).log (.serve gz)).initCgi env)
  | gunzipHead {d : Request} (hn : Noted c d) (hm : d.method = .head) : Answers env c (d.gunzipHeader env, .done)

lemma gunzipHeader_method (env : Env) (c : Request) : (c.gunzipHeader env).method = c.method := by
  unfold gunzipHeader streamHeader
  dsimp only
  split_ifs <;> rfl

lemma Answers.noted {p : Request × Ret} (h : Answers env d p) (hn : Noted c d) : Answers env c p := by
  cases h with
  | file f path hd => exact .file f path (hn.trans hd)
  | closing h => exact .closing (h.noted hn)
  | gunzip gz hd hm => exact .gunzip gz (hn.trans hd) hm
  | gunzipHead hd hm => exact .gunzipHead (hn.trans hd) hm

lemma serveOpened_answers (env : Env) (c : Request) (f : File) : Answers env c (c.serveOpened env f) := by
  unfold serveOpened
  split_ifs
  · exact .closing (sendRForbidden_refused env c).closing
  · have hclose : Noted c (c.log (.closed f.fd)) := .log c _ rfl
    refine Answers.noted ?_ hclose
    have hdir := getDir_ends env (c.log (.closed f.fd)) f
    unfold serveDirectory
    dsimp only
    split_ifs
    · exact .closing (redirectDirectory_refused env _).closing
    · generalize (c.log (.closed f.fd)).getDir env f = p at hdir
      obtain ⟨d, r⟩ := p
      cases r with
      | failed => exact .closing hdir
      | started r => exact .closing hdir
      | file g path => exact .file g path hdir
  · exact .file f _ (.refl c)

lemma gunzipDocument_answers {p : Request × Ret} (h : c.gunzipDocument env = some p) : Answers env c p := by
  unfold gunzipDocument at h
  split_ifs at h
  · cases h
    exact .closing (sendRBadRequest_refused env c).closing
  · dsimp only at h
    split at h
    · cases h
    · next f _ =>
      have hn : Noted c { (c.log (.opened f.fd)).log (.closed f.fd) with pathname := some (c.path ++ text ".gz") } :=
        ⟨[.opened f.fd, .closed f.fd], c.requestUri, c.filesize, some (c.path ++ text ".gz"),
          by simp [Request.log], by simp [Event.isNote]⟩
      have hmethod := gunzipHeader_method env
        { (c.log (.opened f.fd)).log (.closed f.fd) with pathname := some (c.path ++ text ".gz") }
      split_ifs at h with hm
      · cases h
        exact .gunzipHead hn (hmethod.symm.trans hm)
      · cases h
        exact .gunzip _ hn fun hhead => hm (hmethod.trans hhead)

lemma initGet_answers (env : Env) (c : Request) : Answers env c (c.initGet env) := by
  unfold initGet
  split
  · next f _ => exact (serveOpened_answers env _ f).noted (.log c _ rfl)
  · next savedErrno _ =>
    have hn := openRewritten_noted env c savedErrno
    split
    · next d f he =>
      rw [he] at hn
      exact (serveOpened_answers env d f).noted hn
    · next d e he =>
      rw [he] at hn
      have hfailed : Answers env c (d.openFailed env savedErrno, .done) :=
        .closing ((openFailed_refused env d savedErrno).closing.noted hn)
      split_ifs
      · split
        · next p hp => exact (gunzipDocument_answers hp).noted hn
        · exact hfailed
      · exact hfailed

end Request
end Boa
