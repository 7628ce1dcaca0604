import Boa.ByteCount
import Boa.HeaderRuns

/-! The byte count that `log_access` writes, in every run. -/
namespace Boa
open Memory History

/-- The response is a file as it is: one was chosen, and it was not handed to gunzip. -/
def FromFile (t : List Event) : Prop := (∃ path, .serve path ∈ t) ∧ .gunzip ∉ t

/-- Nothing was chosen, mapped or logged yet. -/
structure Clear (c : Request) : Prop where
  marks : c.trace.filter Event.isMark = []
  count : c.bytesWritten = bodySize c.trace
  unmapped : c.dataMem = none
  unpiped : ¬ c.status.piped

/-- Before `log_access`: a file is not sent through a pipe, and its bytes are counted right. -/
structure Fair (c : Request) : Prop where
  unlogged : ∀ code n, .logged code n ∉ c.trace
  right : FromFile c.trace → c.bytesWritten = bodySize c.trace ∧ ¬ c.status.piped

variable {env : Env} {c d : Request}

lemma Unmarked.mem_iff (h : Unmarked c d) {e : Event} (he : e.isMark) : e ∈ d.trace ↔ e ∈ c.trace := by
  have hfilter : e ∈ d.trace.filter Event.isMark ↔ e ∈ c.trace.filter Event.isMark := by rw [h]
  simpa [he] using hfilter

lemma Unmarked.fromFile_iff (h : Unmarked c d) : FromFile d.trace ↔ FromFile c.trace := by
  have hserve (path : Bytes) : .serve path ∈ d.trace ↔ .serve path ∈ c.trace := h.mem_iff rfl
  have hgunzip : .gunzip ∈ d.trace ↔ .gunzip ∈ c.trace := h.mem_iff rfl
  simp only [FromFile, hserve, hgunzip]

lemma Unmarked.refl (c : Request) : Unmarked c c := rfl

lemma Unmarked.log (c : Request) {e : Event} (he : e.isMark = false) : Unmarked c (c.log e) := by
  simp [Unmarked, Request.log, he]

namespace Fair

lemma books (h : Fair c) (hb : Books c d) : Fair d := by
  refine ⟨fun code n hn => h.unlogged code n ((hb.marks.mem_iff rfl).mp hn), fun hf => ?_⟩
  obtain ⟨hcount, hpipe⟩ := h.right (hb.marks.fromFile_iff.mp hf)
  exact ⟨hb.tally.eq_total hcount, fun hp => hpipe (hb.piped hp)⟩

/-- A body that is not a file may be counted in any way. -/
lemma unmarked (h : Fair c) (hu : Unmarked c d) (hf : ¬ FromFile c.trace) : Fair d :=
  ⟨fun code n hn => h.unlogged code n ((hu.mem_iff rfl).mp hn), fun hd => absurd (hu.fromFile_iff.mp hd) hf⟩

end Fair

namespace Clear

lemma not_mem (h : Clear c) {e : Event} (he : e.isMark) : e ∉ c.trace := by
  intro hm
  have hfilter : e ∈ c.trace.filter Event.isMark := List.mem_filter.mpr ⟨hm, he⟩
  simp [h.marks] at hfilter

lemma not_fromFile (h : Clear c) : ¬ FromFile c.trace := by
  rintro ⟨⟨path, hp⟩, -⟩
  exact h.not_mem rfl hp

lemma fair (h : Clear c) : Fair c :=
  ⟨fun _ _ => h.not_mem rfl, fun hf => absurd hf h.not_fromFile⟩

lemma books (h : Clear c) (hb : Books c d) (hm : d.dataMem = c.dataMem) : Clear d :=
  ⟨Eq.trans hb.marks h.marks, hb.tally.eq_total h.count, hm.trans h.unmapped, fun hp => h.unpiped (hb.piped hp)⟩

lemma log (h : Clear c) {e : Event} (he : e.plain) : Clear (c.log e) := h.books (.log c he) rfl

/-- What is not a file may be counted in any way. -/
lemma unmarked (h : Clear c) (hu : Unmarked c d) : Fair d := h.fair.unmarked hu h.not_fromFile

lemma refused (h : Clear c) (hr : Refused c d) : Clear d := by
  refine h.books hr.books ?_
  obtain ⟨o, code, rfl, -⟩ := hr
  rfl

end Clear

lemma Refused.unmarked (h : Refused c d) : Unmarked c d := h.books.marks

namespace Request

/-! ### Children -/

lemma addCgiEnvs_unmarked (c : Request) (kvs : List (Bytes × Bytes)) : Unmarked c (c.addCgiEnvs kvs).1 := by
  induction kvs generalizing c with
  | nil => exact .refl c
  | cons kv kvs ih =>
    have hadd : Unmarked c (c.addCgiEnv kv.1 kv.2 false).1 := by
      unfold addCgiEnv
      split_ifs <;> exact .of_eq rfl
    unfold addCgiEnvs
    split
    · next d he =>
      rw [he] at hadd
      exact hadd.trans (ih d)
    · next d he =>
      rw [he] at hadd
      exact hadd

lemma completeEnv_unmarked (cfg : Config) (c : Request) : Unmarked c (c.completeEnv cfg).1 := by
  have hadds : Unmarked c _ := addCgiEnvs_unmarked { c with cgiEnv := store c.cgiEnv 0 (cfg.commonCgiEnv.map some) }
    (serverVariables cfg { c with cgiEnv := store c.cgiEnv 0 (cfg.commonCgiEnv.map some) })
  unfold completeEnv
  dsimp only
  split
  · next d he =>
    rw [he] at hadds
    exact hadds
  · next d he =>
    rw [he] at hadds
    split_ifs
    · exact hadds
    · exact hadds

lemma closePostData_unmarked (c : Request) : Unmarked c c.closePostData := by
  unfold closePostData
  split_ifs
  · exact .log c rfl
  · exact .refl c

lemma spawn_unmarked (env : Env) (c : Request) : Unmarked c (c.spawn env).1 := by
  have hlog : Unmarked c (if c.usesPipes then c.log (.opened env.pipeFd) else c) := by
    split_ifs
    · exact .log c rfl
    · exact .refl c
  unfold spawn
  generalize (if c.usesPipes then c.log (.opened env.pipeFd) else c) = d at hlog ⊢
  have hperr : Unmarked d (d.boaPerror env) := (sendRError_refused env d).unmarked
  dsimp only
  split_ifs
  · exact .refl c
  · exact hlog.trans (.log _ rfl)
  · exact (hlog.trans hperr).trans (.log _ rfl)
  · exact hlog.trans hperr
  · exact hlog.trans (closePostData_unmarked d)
  · exact hlog.trans (closePostData_unmarked d)

lemma initCgi_unmarked (env : Env) (c : Request) : Unmarked c (c.initCgi env).1 := by
  unfold initCgi
  dsimp only
  split_ifs
  · exact spawn_unmarked env c.squashKa
  · have hcomplete := completeEnv_unmarked env.cfg c.squashKa
    split
    · next d he =>
      rw [he] at hcomplete
      exact hcomplete
    · next d he =>
      rw [he] at hcomplete
      exact hcomplete.trans (spawn_unmarked env d)

/-! ### Pipes -/

lemma pokeNul_unmarked (c : Request) (i : ℕ) : Unmarked c (c.pokeNul i) := by
  unfold pokeNul
  split_ifs
  · exact .refl c
  · exact .log c rfl

lemma cgiOk_unmarked (env : Env) (c : Request) (k : ℕ) : Unmarked c (c.cgiOk env k).1 := by
  have hhead : Unmarked c (if (c.sendRRequestOk env).method = .head
      then { c.sendRRequestOk env with headerEnd := ⟨.buffer, k⟩, cgiStatus := .done }
      else c.sendRRequestOk env) := by
    split_ifs <;> exact (sendRRequestOk_books env c).marks
  unfold cgiOk
  dsimp only
  generalize (if (c.sendRRequestOk env).method = .head
      then { c.sendRRequestOk env with headerEnd := ⟨.buffer, k⟩, cgiStatus := .done }
      else c.sendRRequestOk env) = d at hhead ⊢
  split
  · have hdrop : Unmarked d { d.log (.withdrawn d.pending) with bufferStart := 0, bufferEnd := 0 } :=
      .log d rfl
    exact (hhead.trans hdrop).trans (sendRError_refused env _).unmarked
  · have hmerge : Unmarked d d.cgiMerge := .of_adds (.snoc rfl)
    exact (hhead.trans hmerge).trans (reqFlush_books _).marks

lemma cgiLocation_unmarked (env : Env) (c : Request) (buf : Bytes) : Unmarked c (c.cgiLocation env buf) := by
  have hmark : Unmarked c { c with buffer := store c.buffer (c.headerLine.off + locationEnd buf) [0] } := .refl c
  unfold cgiLocation
  dsimp only
  refine hmark.trans (movedTemp_refused env _ rfl rfl ?_).unmarked
  split_ifs <;> rfl

lemma processCgiHeader_unmarked (env : Env) (c : Request) : Unmarked c (c.processCgiHeader env).1 := by
  have hstate : Unmarked c (if c.cgiStatus = .done then c else { c with cgiStatus := .buffer }) := by
    split_ifs <;> exact .refl c
  unfold processCgiHeader
  dsimp only
  generalize (if c.cgiStatus = .done then c else { c with cgiStatus := .buffer }) = d at hstate ⊢
  generalize cstr (List.drop d.headerLine.off d.buffer) = buf
  split
  · exact hstate.trans (sendRBadGateway_refused env d).unmarked
  split
  · exact hstate.trans (.log _ rfl)
  split
  · exact hstate.trans (.log _ rfl)
  split
  · have hsend : Unmarked d (if buf.getD 10 0 = slash then d.sendRBadRequest env else d.cgiLocation env buf) := by
      split_ifs
      · exact (sendRBadRequest_refused env d).unmarked
      · exact cgiLocation_unmarked env d buf
    exact hstate.trans hsend
  · exact hstate.trans (cgiOk_unmarked env d _)

lemma writeFromPipe_unmarked (c : Request) : Unmarked c c.writeFromPipe.1 := by
  unfold writeFromPipe
  dsimp only
  split_ifs
  · exact .refl c
  · exact .refl c
  · split
    · exact .refl c
    · exact .refl c
    · exact .refl c
    · split_ifs <;> exact .log c rfl

lemma pipeEof_unmarked (env : Env) (c : Request) : Unmarked c (c.pipeEof env).1 := by
  have hpoke : Unmarked c { c.pokeNul c.headerEnd.off with status := .pipeWrite, cgiStatus := .done } :=
    pokeNul_unmarked c _
  unfold pipeEof
  dsimp only
  split_ifs
  · exact hpoke.trans (processCgiHeader_unmarked env _)
  · exact hpoke

lemma pipeData_unmarked (env : Env) (c : Request) (bs : Bytes) : Unmarked c (c.pipeData env bs).1 := by
  have hstore : Unmarked c (c.pipeStore bs) := pokeNul_unmarked { c with
    buffer := store c.buffer c.headerEnd.off bs
    headerEnd := { c.headerEnd with off := c.headerEnd.off + bs.length } } _
  unfold pipeData
  dsimp only
  generalize c.pipeStore bs = d at hstore ⊢
  split_ifs
  · exact (hstore.trans (.log d rfl)).trans (writeFromPipe_unmarked _)
  · split
    · exact hstore
    · exact hstore.trans (processCgiHeader_unmarked env { d with cgiStatus := .done })

lemma readFromPipe_unmarked (env : Env) (c : Request) : Unmarked c (c.readFromPipe env).1 := by
  unfold readFromPipe
  dsimp only
  split_ifs
  · exact (pokeNul_unmarked { c with cgiStatus := .buffer } _).trans (processCgiHeader_unmarked env _)
  · exact .refl c
  · split
    · exact .refl c
    · exact .refl c
    · exact .refl c
    · exact pipeEof_unmarked env c.popFile
    · exact pipeData_unmarked env c.popFile _

/-! ### Files -/

lemma serveFile_fair (env : Env) (h : Clear c) (f : File) (path : Bytes) : Fair (c.serveFile env f path).1 := by
  unfold serveFile
  split_ifs
  · exact (h.refused (sendRBadRequest_refused env c)).fair.books (.log _ ⟨rfl, rfl⟩)
  · have hserve : Fair (c.log (.serve path)) := by
      refine ⟨fun code n hn => ?_, fun _ => ⟨?_, h.unpiped⟩⟩
      · have hold : .logged code n ∈ c.trace := by simpa [Request.log] using hn
        exact h.not_mem rfl hold
      · simpa [Request.log, bodySize, total, Event.bodySize] using h.count
    exact hserve.books (serveRegular_books env (by exact h.unmapped) f)

/-- What goes through gunzip is not a file as it is. -/
lemma handToGunzip_fair (env : Env) (h : Clear c) (gz : Bytes) :
    Fair (((c.log .gunzip).log (.serve gz)).initCgi env).1 := by
  have hmarked : Fair ((c.log .gunzip).log (.serve gz)) := by
    refine ⟨fun code n hn => ?_, fun hf => ?_⟩
    · have hold : .logged code n ∈ c.trace := by simpa [Request.log] using hn
      exact h.not_mem rfl hold
    · exact absurd (by simp [Request.log]) hf.2
  refine hmarked.unmarked (initCgi_unmarked env _) fun hf => ?_
  exact absurd (by simp [Request.log]) hf.2

lemma streamHeader_clear (env : Env) (h : Clear c) (line : String) (tail : List Msg) :
    Clear (c.streamHeader env line tail) := by
  refine h.books (streamHeader_books env c line tail) ?_
  unfold streamHeader
  split_ifs <;> rfl

/-! ### Directories -/

/-- Only a file that is to be served leaves the request as it was. -/
structure Listed (p : Request × DirResult) : Prop where
  fair : Fair p.1
  file : ∀ f path, p.2 = .file f path → Clear p.1

lemma Listed.of_clear {r : DirResult} (h : Clear c) : Listed (c, r) := ⟨h.fair, fun _ _ _ => h⟩

lemma Listed.of_started {r : Ret} (h : Fair c) : Listed (c, .started r) := ⟨h, fun _ _ he => by simp at he⟩

lemma indexDirectory_clear (env : Env) (h : Clear c) : Clear (c.indexDirectory env).1 := by
  unfold indexDirectory
  split
  · exact h.refused (sendRForbidden_refused env c)
  · exact h.refused (sendRBadRequest_refused env c)
  · split_ifs
    · exact h.refused (sendRError_refused env c)
    · exact h.refused (sendRError_refused env c)
    · exact h.books (.of_eq rfl rfl id) rfl

lemma useIndexName_clear (env : Env) (h : Clear c) : Clear (c.useIndexName env) := by
  unfold useIndexName
  split
  · exact h.books (.of_eq rfl rfl id) rfl
  · exact h.log ⟨rfl, rfl⟩

lemma rebuildCache_clear (env : Env) (h : Clear c) (dir : File) (name : Bytes) :
    Clear (c.rebuildCache env dir name).1 := by
  have hindex := indexDirectory_clear env h
  unfold rebuildCache
  split
  · next d he =>
    rw [he] at hindex
    exact hindex
  · next d he =>
    rw [he] at hindex
    split
    · exact useIndexName_clear env (hindex.log ⟨rfl, rfl⟩)
    · exact hindex.refused (sendRError_refused env d)

lemma getCachedirFile_clear (env : Env) (h : Clear c) (cachedir : Bytes) (dir : File) :
    Clear (c.getCachedirFile env cachedir dir).1 := by
  unfold getCachedirFile
  dsimp only
  split
  · exact rebuildCache_clear env h dir _
  · next f _ =>
    have hopen : Clear (c.log (.opened f.fd)) := h.log ⟨rfl, rfl⟩
    split_ifs
    · exact useIndexName_clear env hopen
    · exact rebuildCache_clear env (hopen.log ⟨rfl, rfl⟩) dir _

lemma makeDir_listed (env : Env) (h : Clear c) (dir : File) : Listed (c.makeDir env dir) := by
  have hstatus : Clear { c.squashKa with responseStatus := 200 } := h.books (.of_eq rfl rfl id) rfl
  have hheader := streamHeader_clear env hstatus
  unfold makeDir
  dsimp only
  split_ifs
  · exact .of_clear (hheader _ _)
  · exact .of_started ((hheader _ _).unmarked (initCgi_unmarked env _))
  · split
    · exact .of_clear (getCachedirFile_clear env h _ dir)
    · exact .of_clear (h.refused (sendRForbidden_refused env c))

lemma gunzipIndex_listed (env : Env) (h : Clear c) (f : File) (index gz : Bytes) :
    Listed (c.gunzipIndex env f index gz) := by
  have hopen : Clear ((c.log (.opened f.fd)).log (.closed f.fd)) := (h.log ⟨rfl, rfl⟩).log ⟨rfl, rfl⟩
  have hstatus : Clear { ((c.log (.opened f.fd)).log (.closed f.fd)).squashKa with
      responseStatus := 200, pathname := some gz } := hopen.books (.of_eq rfl rfl id) rfl
  have hheader := streamHeader_clear env hstatus
  unfold gunzipIndex
  dsimp only
  split_ifs
  · exact .of_clear (hheader _ _)
  · exact .of_started (handToGunzip_fair env (hheader _ _) gz)

lemma getDir_listed (env : Env) (h : Clear c) (dir : File) : Listed (c.getDir env dir) := by
  unfold getDir
  split
  · exact makeDir_listed env h dir
  · next index _ =>
    dsimp only
    generalize (if env.cfg.gunzip then 3 else 0) = k
    split
    · exact .of_clear (h.refused (sendRError_refused env c))
    · split
      · next f _ => exact .of_clear (h.books ((Books.log c ⟨rfl, rfl⟩).trans (.of_eq rfl rfl id)) rfl)
      · exact .of_clear (h.refused (sendRForbidden_refused env c))
      · exact .of_clear (h.refused (sendRNotFound_refused env c))
      · split_ifs
        · split
          · exact gunzipIndex_listed env h _ _ _
          · exact makeDir_listed env h dir
        · exact makeDir_listed env h dir

/-! ### init_get -/

lemma redirectDirectory_refused (env : Env) (c : Request) : Refused c (c.redirectDirectory env) := by
  unfold redirectDirectory
  dsimp only
  split_ifs
  · exact sendRError_refused env c
  · exact sendRMovedPerm_refused env c _

lemma serveOpened_fair (env : Env) (h : Clear c) (f : File) : Fair (c.serveOpened env f).1 := by
  unfold serveOpened
  split_ifs
  · exact (h.refused (sendRForbidden_refused env c)).fair
  · have hclose : Clear (c.log (.closed f.fd)) := h.log ⟨rfl, rfl⟩
    have hlisted := getDir_listed env hclose f
    unfold serveDirectory
    dsimp only
    split_ifs
    · exact (hclose.refused (redirectDirectory_refused env _)).fair
    · generalize (c.log (.closed f.fd)).getDir env f = p at hlisted
      obtain ⟨d, r⟩ := p
      cases r with
      | failed => exact hlisted.fair
      | started r => exact hlisted.fair
      | file g path => exact serveFile_fair env (hlisted.file g path rfl) g path
  · exact serveFile_fair env h f _

lemma gunzipDocument_fair (h : Clear c) {r : Request × Ret} (hr : c.gunzipDocument env = some r) : Fair r.1 := by
  unfold gunzipDocument at hr
  split_ifs at hr
  · cases hr
    exact (h.refused (sendRBadRequest_refused env c)).fair
  · dsimp only at hr
    split at hr
    · cases hr
    · next f _ =>
      have hopen : Clear ((c.log (.opened f.fd)).log (.closed f.fd)) := (h.log ⟨rfl, rfl⟩).log ⟨rfl, rfl⟩
      have hstatus : Clear { (c.log (.opened f.fd)).log (.closed f.fd) with
          responseStatus := 200, pathname := some (c.path ++ text ".gz") } :=
        hopen.books (.of_eq rfl rfl id) rfl
      have hheader := streamHeader_clear env hstatus
      split_ifs at hr
      · cases hr
        exact (hheader _ _).fair
      · cases hr
        exact handToGunzip_fair env (hheader _ _) _

lemma openRewritten_clear (env : Env) (h : Clear c) (e : Errno) : Clear (c.openRewritten env e).1 := by
  unfold openRewritten
  split_ifs
  · split
    · exact h
    · split
      · exact h.books ((Books.log c ⟨rfl, rfl⟩).trans (.of_eq rfl rfl id)) rfl
      · exact h
  · exact h

lemma initGet_fair (env : Env) (h : Clear c) : Fair (c.initGet env).1 := by
  unfold initGet
  split
  · exact serveOpened_fair env (h.log ⟨rfl, rfl⟩) _
  · next savedErrno _ =>
    have hclear := openRewritten_clear env h savedErrno
    split
    · next d f he =>
      rw [he] at hclear
      exact serveOpened_fair env hclear f
    · next d e he =>
      rw [he] at hclear
      have hfailed : Fair (d.openFailed env savedErrno) :=
        (hclear.refused (openFailed_refused env d savedErrno)).fair
      split_ifs
      · split
        · next r hr => exact gunzipDocument_fair hclear hr
        · exact hfailed
      · exact hfailed

end Request

/-! ### Headers -/

/-- A routine leaves a fair request, and a clear one if it is still to be answered. -/
structure Answered (r : Request × Ret) : Prop where
  fair : Fair r.1
  clear : r.2 ≠ .done → r.1.status.rank < 6 → Clear r.1

namespace Answered

lemma of_clear {r : Ret} (h : Clear c) : Answered (c, r) := ⟨h.fair, fun _ _ => h⟩

lemma of_done (h : Fair c) : Answered (c, .done) := ⟨h, fun hr => absurd rfl hr⟩

lemma of_late {r : Request × Ret} (h : Fair r.1) (hlate : r.2 ≠ .done → 6 ≤ r.1.status.rank) : Answered r :=
  ⟨h, fun hr hlt => absurd (hlate hr) (by omega)⟩

end Answered

lemma Located.clear (hl : Located c d) (h : Clear c) : Clear d := by
  obtain ⟨es, _, _, _, _, _, rfl, hes⟩ := hl
  refine h.books (.of_adds ⟨es, rfl, fun e he => ?_⟩ rfl id) rfl
  have hlocating := hes e he
  cases e <;> first | exact ⟨rfl, rfl⟩ | exact hlocating.elim

lemma OptionOf.clear (ho : OptionOf c d) (h : Clear c) : Clear d := by
  obtain ⟨_, _, _, _, _, _, _, _, _, _, _, _, rfl⟩ := ho
  exact h.books (.of_eq rfl rfl id) rfl

lemma LoglineOf.clear (hl : LoglineOf c d) (h : Clear c) : Clear d := by
  obtain ⟨_, _, _, _, _, _, rfl, -⟩ := hl
  exact h.books (.of_adds (.snoc ⟨rfl, rfl⟩) rfl id) rfl

namespace Request

lemma setPostDataFd_clear (h : Clear c) (fd : ℕ) : Clear (c.setPostDataFd fd) := by
  unfold setPostDataFd
  split_ifs
  · exact (h.log ⟨rfl, rfl⟩).books (.of_eq rfl rfl id) rfl
  · exact h.books (.of_eq rfl rfl id) rfl

lemma openPostFile_clear (env : Env) (h : Clear c) : Clear (c.openPostFile env).1 := by
  have hfd := setPostDataFd_clear h env.tempFd
  have hopen : Clear ((c.setPostDataFd env.tempFd).log (.opened env.tempFd)) := hfd.log ⟨rfl, rfl⟩
  unfold openPostFile
  dsimp only
  split_ifs
  · exact hfd.refused (sendRError_refused env _)
  · exact ((hopen.refused (sendRError_refused env _)).log ⟨rfl, rfl⟩).books (.of_eq rfl rfl id) rfl
  · exact hopen

lemma initCgi_answered (env : Env) (h : Clear c) : Answered (c.initCgi env) := by
  refine .of_late (h.unmarked (initCgi_unmarked env c)) fun hr => ?_
  rw [initCgi_more hr]
  decide

lemma initGet_answered (env : Env) (h : Clear c) (h0 : c.bufferStart = 0) :
    Answered ({ c with status := .write }.initGet env) := by
  have hwrite : Clear { c with status := .write } :=
    h.books (.setStatus c (show ¬ Status.write.piped by decide)) rfl
  refine .of_late (initGet_fair env hwrite) fun _ => ?_
  exact (initGet_effect (S := False) env { c with status := .write } h0).late (show 6 ≤ Status.write.rank by decide)

lemma dispatchUri_answered (env : Env) (h : Clear c) (h0 : c.bufferStart = 0) : Answered (c.dispatchUri env) := by
  unfold dispatchUri
  obtain ⟨hr, hl⟩ | ⟨hr, d, hl, hrefused⟩ := translateUri_translated env c
  · have hclear := hl.clear h
    have hstart : (c.translateUri env).1.bufferStart = 0 := by
      obtain ⟨_, _, _, _, _, _, he, -⟩ := hl
      rw [he]
      exact h0
    generalize c.translateUri env = r at hr hclear hstart
    obtain ⟨d, ok⟩ := r
    cases hr
    dsimp only
    split_ifs
    · exact .of_clear (openPostFile_clear env hclear)
    · exact initCgi_answered env hclear
    · exact initGet_answered env hclear hstart
  · have hclear := (hl.clear h).refused hrefused
    generalize c.translateUri env = r at hr hclear
    obtain ⟨d, ok⟩ := r
    cases hr
    exact .of_clear (hclear.books (.of_eq rfl rfl id) rfl)

lemma processHeaderEnd_answered (env : Env) (h : Clear c) (h0 : c.bufferStart = 0) :
    Answered (c.processHeaderEnd env) := by
  have hmark : Clear (c.log .headerEnd) := h.log ⟨rfl, rfl⟩
  unfold processHeaderEnd
  obtain ⟨uri, query, host, he | ⟨d, he, hrefused⟩⟩ := acceptUri_cases env (c.log .headerEnd)
  · rw [he]
    exact dispatchUri_answered env (hmark.books (.of_eq rfl rfl id) rfl) h0
  · rw [he]
    have huri : Clear { c.log .headerEnd with requestUri := uri, queryString := query, host := host } :=
      hmark.books (.of_eq rfl rfl id) rfl
    exact .of_clear (huri.refused hrefused)

lemma endHeader_answered (env : Env) (h : Clear c) (h0 : c.bufferStart = 0) (hs : c.status.rank < 6) :
    Answered (c.endHeader env) := by
  have hend := processHeaderEnd_answered env h h0
  obtain ⟨-, he⟩ | ⟨-, he⟩ | ⟨hr, hpost, he⟩ := endHeader_cases env c
  · rw [he]
    exact hend
  · rw [he]
    exact hend
  · have hlt : (c.processHeaderEnd env).1.status.rank < 6 := by
      obtain ⟨-, hno⟩ | ⟨-, -, hst, -⟩ := (processHeaderEnd_concluded (S := False) env c h0).next hr
      · exact absurd hpost hno
      · rw [hst]
        exact hs
    have hclear := hend.clear hr hlt
    rw [he]
    generalize (c.processHeaderEnd env).1 = d at hclear
    have hbody (hl he : Ptr) (size pos : ℕ) : Clear { d with
        headerLine := hl, headerEnd := he, status := .bodyWrite, filesize := size, filepos := pos } :=
      hclear.books (.of_eq rfl rfl fun hp => absurd hp (show ¬ Status.bodyWrite.piped by decide)) rfl
    obtain ⟨hl, he, size, pos, hb | ⟨e, hb, hrefused⟩⟩ := startBody_cases env d
    · rw [hb]
      exact .of_clear (hbody hl he size pos)
    · rw [hb]
      exact .of_clear ((hbody hl he size pos).refused hrefused)

end Request

/-- The loop of `read_header` leaves a clear request while it goes on. -/
structure ScanClear (r : Request × Option Ret) : Prop where
  goes : r.2 = none → Clear r.1
  stops : ∀ ret, r.2 = some ret → Answered (r.1, ret)

lemma ScanClear.of_clear (h : Clear c) : ScanClear (c, none) := ⟨fun _ => h, fun ret hret => by simp at hret⟩

lemma ScanClear.of_answered {ret : Ret} (h : Answered (c, ret)) : ScanClear (c, some ret) := by
  refine ⟨fun hn => by simp at hn, fun ret' hret => ?_⟩
  cases hret
  exact h

open Request in
/-- A byte of the header. -/
lemma ByteStep.scanClear {uc : UInt8} {r : Option Ret} (h : ByteStep env c uc d r) (hp : Parsing False c)
    (hc : Clear c) : ScanClear (d, r) := by
  have hadvance (hs : ¬ (c.advance uc).status.piped) : Clear (c.advance uc) :=
    hc.books (.of_eq rfl rfl fun hpipe => absurd hpipe hs) rfl
  have hline (hs : (c.advance uc).status = .oneLf) : Clear (c.advance uc).terminateLine :=
    (hadvance (by rw [hs]; decide)).books (.of_eq rfl rfl id) rfl
  cases h with
  | illegal hi hd => exact .of_answered (.of_clear ((hc.log ⟨rfl, rfl⟩).refused hd))
  | skip hi h1 h2 => exact .of_clear (hadvance (Status.inHeader.not_piped (nextStatus_inHeader hp.header h2)))
  | tooLong hi hs hl hd => exact .of_answered (.of_clear (((hline hs).log ⟨rfl, rfl⟩).refused hd))
  | option hi hs hl hd hcount =>
    exact .of_clear ((hd.clear ((hline hs).log ⟨rfl, rfl⟩)).books (.of_eq rfl rfl id) rfl)
  | optionStop hi hs hl hd =>
    obtain ⟨e, he, ⟨rfl, -⟩ | ⟨-, hr⟩⟩ := hd
    · exact .of_answered (.of_clear (he.clear ((hline hs).log ⟨rfl, rfl⟩)))
    · exact .of_answered (.of_clear ((he.clear ((hline hs).log ⟨rfl, rfl⟩)).refused hr))
  | logline hi hs hl hd hv => exact .of_clear ((hd.clear (hline hs)).books (.of_eq rfl rfl id) rfl)
  | loglineStop hi hs hl hd he => exact .of_answered (.of_clear ((hd.clear (hline hs)).refused he))
  | @short d hi hs hl hd hv =>
    have hstart : d.bufferStart = 0 := by
      obtain ⟨_, _, _, _, _, _, rfl, -⟩ := hd
      exact hp.start
    exact .of_answered (processHeaderEnd_answered env (hd.clear (hline hs)) hstart)
  | finish hi hs =>
    refine .of_answered (endHeader_answered env (hadvance (by rw [hs]; decide)) hp.start ?_)
    rw [hs]
    decide

namespace Request

lemma scanHeader_scanClear (env : Env) (bs : Bytes) (hp : Parsing False c) (hc : Clear c) :
    ScanClear (scanHeader env c bs) := by
  induction bs generalizing c with
  | nil => exact .of_clear hc
  | cons uc bs ih =>
    have hstep := headerByte_step env c uc
    have hended := hstep.ended hp
    have hbyte := hstep.scanClear hp hc
    unfold scanHeader
    generalize c.headerByte env uc = r at hended hbyte
    obtain ⟨d, _ | ret⟩ := r
    · exact ih (hended.1 rfl) (hbyte.goes rfl)
    · exact hbyte

lemma readMore_answered (h : Clear c) : Answered c.readMore := by
  have hpop : Clear c.popClient := h.books (.of_eq rfl rfl id) rfl
  unfold readMore
  dsimp only
  split_ifs
  · have hfull : Clear (c.log (.reject .streamFull)) := h.log ⟨rfl, rfl⟩
    exact .of_clear (hfull.books (.of_eq rfl rfl fun hp => absurd hp (show ¬ Status.dead.piped by decide)) rfl)
  · split
    · exact .of_clear hpop
    · exact .of_clear hpop
    · exact .of_clear (hpop.books (.of_eq rfl rfl id) rfl)
    · exact .of_clear ((hpop.log ⟨rfl, rfl⟩).books (.of_eq rfl rfl id) rfl)
    · exact .of_clear ((hpop.log ⟨rfl, rfl⟩).books (.of_eq rfl rfl id) rfl)

lemma readHeader_answered (env : Env) (hp : Parsing False c) (h : Clear c) : Answered (c.readHeader env) := by
  have hscan := scanHeader_scanClear env (c.clientStream.drop c.parsePos) hp h
  unfold readHeader
  generalize scanHeader env c (c.clientStream.drop c.parsePos) = r at hscan
  obtain ⟨d, _ | ret⟩ := r
  · dsimp only
    split_ifs
    · exact readMore_answered (hscan.goes rfl)
    · exact .of_clear (hscan.goes rfl)
  · exact hscan.stops ret rfl

/-! ### Bodies of requests -/

lemma storeAtEnd_clear (h : Clear c) (bs : Bytes) : Clear (c.storeAtEnd bs) := by
  unfold storeAtEnd
  split <;> exact h.books (.of_eq rfl rfl id) rfl

lemma readBody_answered (env : Env) (h : Clear c) : Answered (c.readBody env) := by
  have hwrite (d : Request) (hd : Clear d) : Clear { d with status := .bodyWrite } :=
    hd.books (.setStatus d (show ¬ Status.bodyWrite.piped by decide)) rfl
  have hpop : Clear c.popClient := h.books (.of_eq rfl rfl id) rfl
  have herror : Clear { c.popClient.boaPerror env with responseStatus := 400 } :=
    (hpop.refused (sendRError_refused env _)).books (.of_eq rfl rfl id) rfl
  unfold readBody
  dsimp only
  split_ifs
  · exact .of_clear (hwrite c h)
  · split
    · exact .of_clear hpop
    · exact .of_clear herror
    · exact .of_clear herror
    · exact .of_clear (hpop.refused (sendRBadRequest_refused env _))
    · next bs _ => exact .of_clear ((hwrite _ (storeAtEnd_clear hpop bs)).books (.of_eq rfl rfl id) rfl)

lemma writeBody_answered (env : Env) (h : Clear c) : Answered (c.writeBody env) := by
  have hreset : Clear { c with headerLine := ⟨.buffer, 0⟩, headerEnd := ⟨.buffer, 0⟩ } :=
    h.books (.of_eq rfl rfl id) rfl
  have hpop : Clear { c with post := c.post.tail } := h.books (.of_eq rfl rfl id) rfl
  unfold writeBody
  dsimp only
  split_ifs
  · exact initCgi_answered env hreset
  · exact .of_clear (hreset.books (.setStatus _ (show ¬ Status.bodyRead.piped by decide)) rfl)
  · split
    · exact .of_clear hpop
    · exact .of_clear hpop
    · exact .of_clear (hpop.refused (sendRError_refused env _))
    · exact .of_clear ((hpop.log ⟨rfl, rfl⟩).books (.of_eq rfl rfl id) rfl)

/-! ### Rounds -/

/-- The round hands the body of a response to `io_shuffle`: the file is neither mapped nor sent
by `sendfile`. -/
def Shuffles (env : Env) (c : Request) : Prop :=
  let r := (c.arm env).flushFirst
  r.2 = .more ∧ r.1.status = .ioShuffle ∧ r.1.method ≠ .head ∧
    (env.cfg.haveSendfile = true → r.1.nextSend env.systemBufsize = .nosys)

lemma processDone_books (c : Request) : Books c c.processDone.1 := by
  have hflush : Books c { c with toOut := c.toOut.reqFlush.1 } := reqFlush_books c
  unfold processDone
  generalize c.toOut.reqFlush = r at hflush
  obtain ⟨o, fl⟩ := r
  cases fl with
  | error => exact hflush.trans (.setStatus _ (show ¬ Status.dead.piped by decide))
  | blocked => exact hflush
  | left n =>
    cases n with
    | zero => exact hflush
    | succ n => exact hflush

lemma flushFirst_books (c : Request) : Books c c.flushFirst.1 := by
  have hflush : Books c { c with toOut := c.toOut.reqFlush.1 } := reqFlush_books c
  unfold flushFirst
  split_ifs
  · generalize c.toOut.reqFlush = r at hflush
    obtain ⟨o, fl⟩ := r
    cases fl with
    | error => exact hflush.trans (.setStatus _ (show ¬ Status.dead.piped by decide))
    | blocked => exact hflush
    | left n => exact hflush
  · exact .refl c

/-- A round on a response that is on its way. -/
lemma handle_fair (env : Env) (h : Fair c) (hin : c.InFile) (hlate : 6 ≤ c.status.rank)
    (hno : ¬ (c.status = .ioShuffle ∧ c.method ≠ .head ∧
      (env.cfg.haveSendfile = true → c.nextSend env.systemBufsize = .nosys))) : Fair (c.handle env).1 := by
  have hpipe (hs : c.status.piped) : ¬ FromFile c.trace := fun hf => (h.right hf).2 hs
  have hdead : Books c { c.squashKa with bufferEnd := 0 } := .of_eq rfl rfl id
  unfold handle
  cases hs : c.status with
  | readHeader => simp [hs, Status.rank] at hlate
  | oneCr => simp [hs, Status.rank] at hlate
  | oneLf => simp [hs, Status.rank] at hlate
  | twoCr => simp [hs, Status.rank] at hlate
  | bodyRead => simp [hs, Status.rank] at hlate
  | bodyWrite => simp [hs, Status.rank] at hlate
  | write => exact h.books (processGet_books env hin hs)
  | pipeRead => exact h.unmarked (readFromPipe_unmarked env c) (hpipe (.inl hs))
  | pipeWrite => exact h.unmarked (writeFromPipe_unmarked c) (hpipe (.inr hs))
  | ioShuffle =>
    dsimp only
    split_ifs with hsendfile
    · exact h.books (ioShuffleSendfile_books env hin hs fun hm hn => hno ⟨hs, hm, fun _ => hn⟩)
    · have hhead : c.method = .head := by
        by_contra hm
        exact hno ⟨hs, hm, fun ht => absurd ht hsendfile⟩
      unfold ioShuffle
      rw [if_pos hhead]
      exact h.books (completeResponse_books env c)
  | done => exact h.books (processDone_books c)
  | timedOut => exact h.books hdead
  | dead => exact h.books hdead

/-- Between two rounds: fair, and clear until the response is chosen. -/
structure Accounted (c : Request) : Prop where
  fair : Fair c
  clear : c.status.rank < 6 → Clear c

lemma Accounted.of_clear (h : Clear c) : c.Accounted := ⟨h.fair, fun _ => h⟩

lemma Accounted.of_late (h : Fair c) (hlate : 6 ≤ c.status.rank) : c.Accounted :=
  ⟨h, fun hlt => absurd hlate (by omega)⟩

/-- One round. -/
lemma serveOnce_answered (hw : Whole False c) (hin : c.InFile) (h : c.Accounted) (hno : ¬ c.Shuffles env) :
    Answered (c.serveOnce env) := by
  have harm : Books c (c.arm env) := .of_eq rfl rfl id
  have hfair : Fair (c.arm env) := h.fair.books harm
  have hclear (hlt : c.status.rank < 6) : Clear (c.arm env) := (h.clear hlt).books harm rfl
  obtain ⟨hhead, hp, he⟩ | ⟨hout, -⟩ := serveOnce_cases env hw
  · rw [he]
    exact readHeader_answered env hp (hclear (by have := Status.inHeader_iff.mp hhead; omega))
  by_cases hlive : c.status < .timedOut
  · by_cases hlate : 6 ≤ c.status.rank
    · refine .of_late ?_ fun _ => serveOnce_late hlate
      have hflush := hfair.books (flushFirst_books (c.arm env))
      have hplaced : Placed (c.arm env).flushFirst := flushFirst_placed (hin.congr (.inl rfl) rfl)
      obtain ⟨-, hmore⟩ := flushFirst_ended (hw.live hlive env False.elim) hlive
      unfold Shuffles at hno
      unfold serveOnce
      generalize (c.arm env).flushFirst = r at hflush hplaced hmore hno
      obtain ⟨d, ret⟩ := r
      cases ret with
      | blocked => exact hflush
      | done => exact hflush
      | more =>
        have hstatus : d.status = c.status := (hmore rfl).1
        exact handle_fair env hflush (hplaced (by simp)) (hstatus ▸ hlate) fun hs => hno ⟨rfl, hs⟩
    · have hlt : c.status.rank < 6 := by omega
      have hbody := hclear hlt
      have hempty : c.bufferEnd = 0 := (hw.live hlive env False.elim).early hlt
      rw [serveOnce_of_empty hempty]
      unfold handle
      have hstatus : c.status = .bodyRead ∨ c.status = .bodyWrite := by
        revert hout hlt
        cases c.status <;> decide
      obtain hs | hs := hstatus
      · rw [show (c.arm env).status = .bodyRead from hs]
        exact readBody_answered env hbody
      · rw [show (c.arm env).status = .bodyWrite from hs]
        exact writeBody_answered env hbody
  · rw [serveOnce_dead hlive]
    exact .of_done (hfair.books (.of_eq rfl rfl id))

end Request

/-! ### log_access -/

/-- What `log_access` wrote about a file is the size of its body. -/
def CountedRight (t : List Event) : Prop := FromFile t → ∀ code n, .logged code n ∈ t → n = bodySize t

/-- The notes of a request that is given up with `n` bytes counted. -/
def Event.closes (n : ℕ) (e : Event) : Prop := (∃ code, e = .logged code n) ∨ ∃ fd, e = .closed fd

lemma Fair.countedRight_of_adds (h : Fair c) {t : List Event} (ha : Adds (Event.closes c.bytesWritten) c.trace t) :
    CountedRight t := by
  obtain ⟨es, rfl, hes⟩ := ha
  have hweight : ∀ e ∈ es, e.bodySize = 0 := by
    intro e he
    obtain ⟨code, rfl⟩ | ⟨fd, rfl⟩ := hes e he <;> rfl
  have hsize : bodySize (c.trace ++ es) = bodySize c.trace := by
    rw [bodySize, total_append, total_eq_zero hweight, Nat.add_zero, bodySize]
  rintro ⟨⟨path, hserve⟩, hgunzip⟩ code n hn
  have hserve : .serve path ∈ c.trace := by
    refine (List.mem_append.mp hserve).resolve_right fun he => ?_
    obtain ⟨_, he⟩ | ⟨_, he⟩ := hes _ he <;> cases he
  have hcount := (h.right ⟨⟨path, hserve⟩, fun hg => hgunzip (List.mem_append_left _ hg)⟩).1
  obtain hn | hn := List.mem_append.mp hn
  · exact absurd hn (h.unlogged code n)
  · obtain ⟨_, he⟩ | ⟨_, he⟩ := hes _ hn
    · cases he
      rw [hsize]
      exact hcount
    · cases he

lemma Fair.countedRight (h : Fair c) : CountedRight c.trace := h.countedRight_of_adds (.refl _)

namespace Request

lemma release_closes (env : Env) (c : Request) :
    Adds (Event.closes c.bytesWritten) c.trace (c.release env).trace := by
  have hnote (d : Request) (p : Prop) [Decidable p] (e : Event) (he : e.closes c.bytesWritten) :
      Adds (Event.closes c.bytesWritten) d.trace (if p then d.log e else d).trace := by
    split_ifs
    · exact .snoc he
    · exact .refl _
  have hlog (d : Request) (hb : d.bytesWritten = c.bytesWritten) :
      Adds (Event.closes c.bytesWritten) d.trace
        (if d.silent env then d else d.log (.logged d.responseStatus d.bytesWritten)).trace := by
    split_ifs
    · exact .refl _
    · exact .snoc (.inl ⟨_, by rw [hb]⟩)
  have hcode : ∃ d : Request, (if c.status = .timedOut ∧ c.responseStatus = 0 then
      { c with responseStatus := 408 } else c) = d ∧ d.trace = c.trace ∧ d.bytesWritten = c.bytesWritten := by
    split_ifs <;> exact ⟨_, rfl, rfl, rfl⟩
  obtain ⟨d, hd, ht, hb⟩ := hcode
  unfold release
  dsimp only
  rw [hd, ← ht]
  exact ((hlog d hb).trans (hnote _ _ _ (.inr ⟨_, rfl⟩))).trans (hnote _ _ _ (.inr ⟨_, rfl⟩))

/-- A request of which nothing was read. -/
lemma clear_fresh (ht : c.trace = []) (hb : c.bytesWritten = 0) (hm : c.dataMem = none)
    (hs : c.status = .readHeader) : Clear c := by
  refine ⟨by simp [ht], by simp [hb, ht, bodySize], hm, ?_⟩
  rw [hs]
  decide

end Request

/-- The runs in which no round sends a body by `io_shuffle`. -/
def Unshuffled : Label → Request → Prop
  | .pass env, c => ¬ c.Shuffles env
  | _, _ => True

/-- How the bytes are counted in runs without `io_shuffle`. -/
lemma accounted_rule : RunRule Unshuffled CountedRight Fair Request.Accounted where
  fresh o l hs ht := .of_clear (Request.clear_fresh ht rfl rfl hs)
  excess o l hs ht := (Request.clear_fresh ht rfl rfl hs).fair
  weaken hc := hc.fair
  late := .of_late
  refused hc hr := hc.books hr.books
  status hc hs := hc.books (.setStatus _ hs)
  flush hc := hc.books (Request.reqFlush_books _)
  heed k c hc := hc.books (.of_eq rfl rfl id)
  heedMore env c hc := by
    obtain ⟨k, hk⟩ := Request.heedSigterm_eq env c
    have hheed : Books c { c with keepalive := k } := .of_eq rfl rfl id
    rw [hk]
    exact ⟨hc.fair.books hheed, fun hlt => (hc.clear hlt).books hheed rfl⟩
  serve hr hP hc := by
    have hw := (reach_whole (S := False) False.elim hr).1 (by simp)
    have hserve := Request.serveOnce_answered hw (reach_inFile hr (by simp)) hc hP
    exact ⟨hserve.fair, fun hn => ⟨hserve.fair, hserve.clear hn⟩⟩
  trace hc := hc.countedRight
  release env c hc := hc.countedRight_of_adds (Request.release_closes env c)

/-- In runs in which no body goes through `io_shuffle`, the bytes that `log_access` writes for a
file are the bytes of the body, whatever the sockets and `sendfile` take at a time. -/
theorem logged_exact {p : Place} (h : Reach Unshuffled c p) :
    ∀ t ∈ c.traces, FromFile t → ∀ code n, .logged code n ∈ t → n = bodySize t := by
  exact (accounted_rule.reach h).traces

/-- The second round of a GET of a mapped file sends and logs all of it. -/
theorem logged_exact_get :
    .logged 200 5 ∈ (tinyRead.processRequest { tinyEnv with sock := [.wrote 10000] }).1.trace ∧
    ∀ t ∈ (tinyRead.processRequest { tinyEnv with sock := [.wrote 10000] }).1.traces,
      FromFile t → ∀ code n, .logged code n ∈ t → n = bodySize t := by
  have hread := Reach.pass (P := Unshuffled) (tinyClient "GET /f HTTP/1.0\r\n\r\n")
    (.accept tinyEnv tinyPeer {} trivial) fun h => absurd h.2.1 (by decide +kernel)
  have hready : ((Request.getRequest tinyEnv tinyPeer {}).processRequest
    (tinyClient "GET /f HTTP/1.0\r\n\r\n")).2 = .ready := by decide +kernel
  rw [hready] at hread
  exact ⟨by decide +kernel,
    logged_exact (.pass { tinyEnv with sock := [.wrote 10000] } hread fun h => absurd h.2.1 (by decide +kernel))⟩

/-- A server without `sendfile` that could not map the file. -/
def shuffleEnv : Env := { tinyEnv with
  cfg := { tinyConfig with haveSendfile := false }
  mapped := false
  sock := [.wrote 10000, .wrote 10000]
  file := [.data tinyFile.data] }

/-- A GET of five bytes that are read and sent by `io_shuffle`: all of the response is sent, and no
byte of it is logged. -/
theorem ioShuffle_logs_zero : ∃ c p, Reachable c p ∧ c.method = .get ∧ ∃ t ∈ c.traces, FromFile t ∧
    sentBytes t = produced t ∧ bodySize t = 5 ∧ .logged 200 0 ∈ t := by
  have hstart : Reachable (Request.getRequest shuffleEnv tinyPeer {}) .ready := .accept shuffleEnv tinyPeer {} trivial
  have hrun : ((Request.getRequest shuffleEnv tinyPeer {}).rounds
      [{ shuffleEnv with client := [.data (text "GET /f HTTP/1.0\r\n\r\n")] }, shuffleEnv]).any (fun c =>
        let d := (c.processRequest shuffleEnv).1
        decide (d.method = .get) && decide (.serve (text "/d/f") ∈ d.trace) && decide (.gunzip ∉ d.trace) &&
          decide (sentBytes d.trace = produced d.trace) && decide (bodySize d.trace = 5) &&
          decide (.logged 200 0 ∈ d.trace)) = true := by
    decide +kernel
  obtain ⟨c, hc, ht⟩ := (Option.any_eq_true _ _).mp hrun
  have hreach : Reachable c .ready := reach_rounds hstart (fun _ => trivial) (fun _ _ _ => trivial) hc
  simp only [Bool.and_eq_true, decide_eq_true_eq] at ht
  obtain ⟨⟨⟨⟨⟨hmethod, hserve⟩, hgunzip⟩, hsent⟩, hsize⟩, hlogged⟩ := ht
  exact ⟨_, _, .pass shuffleEnv hreach trivial, hmethod, (c.processRequest shuffleEnv).1.trace,
    by simp [Request.traces], ⟨⟨_, hserve⟩, hgunzip⟩, hsent, hsize, hlogged⟩

end Boa
