import Boa.Body
import Boa.ByteCount

/-! Whose contents a GET is answered with, and what the access rules say about them: a file that
answers in place of the one asked for is not asked about. -/
namespace Boa
open Memory History

/-- The same outside world, with or without a page fault while a mapping is copied. -/
def Env.faulting (env : Env) (fault : Bool) : Env := { env with sigbus := fault }

namespace Request

/-- Bytes of a file are in the response, or ranges are left of one that is mapped or open, or a
child that unpacks one has been started. -/
def Sending (env : Env) (r : Request × Ret) : Prop :=
  (∃ bs, bs ≠ [] ∧ .data bs ∈ r.1.trace) ∨
    (r.2 = .more ∧ r.1.ranges ≠ [] ∧ (r.1.dataMem.isSome ∨ r.1.dataFd ≠ 0)) ∨
    (.gunzip ∈ r.1.trace ∧ env.forkOk)

/-- The contents that are sent are those of the file `p`. -/
def Sent (env : Env) (r : Request × Ret) (p : Bytes) : Prop := .serve p ∈ r.1.trace ∧ Sending env r

/-- A GET as `process_header_end` hands it to `init_get`: it is not for a CGI, and no file has
been opened for it. -/
structure PlainGet (c : Request) : Prop where
  method : c.method = .get
  cgi : c.cgiType = .none
  unmapped : c.dataMem = none
  unopened : c.dataFd = 0
  unchosen : c.choices = []
  unsent : ∀ bs, .data bs ∉ c.trace

/-- Some of the open file `f` is sent: it is newer than the copy of the client, and it has some
of the ranges that were asked for. -/
structure Sendable (env : Env) (c : Request) (f : File) : Prop where
  regular : f.kind = .reg
  modified : c.notModified env f = false
  nonempty : f.size ≠ 0
  satisfiable : c.ranges ≠ [] → fixupRanges f.size c.ranges ≠ []

end Request

/-- The name of the index file of the directory `path`, if `get_dir` has room for it. -/
def indexName (env : Env) (path : Bytes) : Option Bytes :=
  env.cfg.directoryIndex.bind fun index =>
    if maxPathLength < (path ++ index.val).length + (if env.cfg.gunzip then 3 else 0) + 1 then none
    else some (path ++ index.val)

/-- The directory `path` has no index file, and no compressed one either. -/
def Unindexed (env : Env) (path : Bytes) : Prop :=
  env.cfg.directoryIndex = none ∨ ∃ name, indexName env path = some name ∧
    env.fs.openFile name = .error .enoent ∧
      (env.cfg.gunzip → ∀ f, env.fs.openFile (name ++ text ".gz") ≠ .ok f)

/-- The cache file of `dir` is not newer than `dir`, and it could be written anew. -/
structure Rewritten (env : Env) (cachedir : Bytes) (dir f : File) : Prop where
  stale : ∀ f', env.fs.openFile (cacheName cachedir dir) = .ok f' → f'.mtime ≤ dir.mtime
  entered : env.chdirErr = none
  listed : env.opendirOk = true
  created : env.fopenOk = true
  reopened : env.reopen = .ok f

/-- What the rules have to allow for the directory `dir`: whatever answers in its place. -/
structure Request.DirCovered (env : Env) (c : Request) (dir : File) : Prop where
  index : ∀ name f, indexName env c.path = some name → env.fs.openFile name = .ok f →
    c.Sendable env f → accessAllow env name
  indexGz : ∀ name f, indexName env c.path = some name → env.fs.openFile name = .error .enoent →
    env.cfg.gunzip → env.fs.openFile (name ++ text ".gz") = .ok f → env.forkOk →
    accessAllow env (name ++ text ".gz")
  cached : ∀ cachedir f, Unindexed env c.path → env.cfg.dirmaker = none →
    env.cfg.cachedir = some cachedir → env.fs.openFile (cacheName cachedir dir) = .ok f →
    dir.mtime < f.mtime → c.Sendable env { f with mtime := dir.mtime } →
    accessAllow env (cacheName cachedir dir)
  rewritten : ∀ cachedir f, Unindexed env c.path → env.cfg.dirmaker = none →
    env.cfg.cachedir = some cachedir → Rewritten env cachedir dir f →
    c.Sendable env { f with mtime := dir.mtime } → accessAllow env (cacheName cachedir dir)

/-- The rules allow each file that answers in place of the one asked for, as far as anything of it
is sent: those of a directory that was asked for, and the compressed form of a missing document. -/
structure Request.Covered (env : Env) (c : Request) : Prop where
  directory : ∀ dir, env.fs.openFile c.path = .ok dir → dir.kind = .dir → c.path.getLast? = some slash →
    accessAllow env c.path → c.DirCovered env dir
  document : ∀ f, env.fs.openFile c.path = .error .enoent →
    (env.cfg.useLangRewrite → ∀ name, langRewrite c.path = some name →
      env.fs.openFile name = .error .enoent) →
    env.cfg.gunzip → c.path.length + 4 ≤ maxPathLength →
    env.fs.openFile (c.path ++ text ".gz") = .ok f → env.forkOk → accessAllow env (c.path ++ text ".gz")

variable {env : Env} {c d : Request} {p : Bytes}

/-! ### Responses without contents -/

lemma Out.Replies.data_mem {ka : Bool → Prop} {len : ℕ → Prop} {o o' : Out} (h : Out.Replies ka len o o')
    (bs : Bytes) : .data bs ∈ o'.trace ↔ .data bs ∈ o.trace := by
  obtain ⟨es, he, hes⟩ := h.adds
  rw [he, List.mem_append]
  exact or_iff_left fun hm => hes _ hm

lemma Refused.data_mem (h : Refused c d) (bs : Bytes) : .data bs ∈ d.trace ↔ .data bs ∈ c.trace := by
  obtain ⟨o, code, rfl, -, hr⟩ := h
  exact hr.data_mem bs

namespace Request

lemma writes_data_mem (c : Request) (ms : List Msg) (bs : Bytes) :
    .data bs ∈ (c.writes ms).trace ↔ .data bs ∈ c.trace :=
  have h : Out.Replies (fun _ => True) (fun _ => True) c.toOut (c.toOut.writes ms) :=
    Out.writes_replies c.toOut ms (fun _ _ => trivial) (fun _ _ => trivial)
  h.data_mem bs

lemma reqFlush_data_mem (c : Request) (bs : Bytes) : .data bs ∈ c.reqFlush.trace ↔ .data bs ∈ c.trace :=
  have h : Out.Replies (fun _ => True) (fun _ => True) c.toOut c.toOut.reqFlush.1 :=
    Out.reqFlush_replies c.toOut
  h.data_mem bs

/-- Between `c` and `d` nothing was chosen or sent, and the request is the same. -/
structure Kin (c d : Request) : Prop extends PlainGet d where
  ranges : d.ranges = c.ranges
  date : d.ifModifiedSince = c.ifModifiedSince

lemma PlainGet.kin (h : c.PlainGet) : Kin c c := ⟨h, rfl, rfl⟩

namespace Kin

variable {e : Request}

lemma congr (h : Kin c d)
    (he : (e.method, e.cgiType, e.dataMem, e.dataFd, e.trace, e.ranges, e.ifModifiedSince) =
      (d.method, d.cgiType, d.dataMem, d.dataFd, d.trace, d.ranges, d.ifModifiedSince)) : Kin c e := by
  simp only [Prod.mk.injEq] at he
  obtain ⟨hm, hc, hmem, hfd, ht, hr, hd⟩ := he
  refine ⟨⟨hm.trans h.method, hc.trans h.cgi, hmem.trans h.unmapped, hfd.trans h.unopened, ?_, ?_⟩,
    hr.trans h.ranges, hd.trans h.date⟩
  · unfold Request.choices
    rw [ht]
    exact h.unchosen
  · rw [ht]
    exact h.unsent

/-- An event that is no choice and no contents. -/
lemma log (h : Kin c d) {ev : Event} (hc : ev.isChoice = false) (hd : ∀ bs, ev ≠ .data bs) :
    Kin c (d.log ev) := by
  refine ⟨⟨h.method, h.cgi, h.unmapped, h.unopened, ?_, fun bs hm => ?_⟩, h.ranges, h.date⟩
  · rw [choices_log, h.unchosen, List.filter_cons, hc]
    rfl
  · obtain hm | hm := List.mem_append.mp hm
    · exact h.unsent bs hm
    · exact hd bs (List.mem_singleton.mp hm).symm

lemma opened (h : Kin c d) (fd : ℕ) : Kin c (d.log (.opened fd)) := h.log rfl (by simp)

lemma closed (h : Kin c d) (fd : ℕ) : Kin c (d.log (.closed fd)) := h.log rfl (by simp)

lemma useIndexName (h : Kin c d) (env : Env) : Kin c (d.useIndexName env) := by
  unfold Request.useIndexName
  split
  · exact h.congr rfl
  · exact h.log rfl (by simp)

lemma notModified (h : Kin c d) (env : Env) (f : File) : d.notModified env f = c.notModified env f := by
  unfold Request.notModified
  rw [h.date]

end Kin

/-! ### One file -/

/-- No more is sent than what the rules allow. -/
def Obeys (env : Env) (r : Request × Ret) : Prop := ∀ p, Sent env r p → accessAllow env p

lemma obeys_of_choices {r : Request × Ret} (h : r.1.choices = []) : Obeys env r := by
  intro p hs
  have hp : .serve p ∈ r.1.choices := mem_choices.mpr hs.1
  rw [h] at hp
  exact absurd hp List.not_mem_nil

lemma closed_data_mem (c : Request) (fd : ℕ) (bs : Bytes) :
    .data bs ∈ (c.log (.closed fd)).trace ↔ .data bs ∈ c.trace := by
  show .data bs ∈ c.trace ++ [.closed fd] ↔ _
  simp

lemma sendRRequestOk_data_mem (env : Env) (c : Request) (bs : Bytes) :
    .data bs ∈ (c.sendRRequestOk env).trace ↔ .data bs ∈ c.trace := by
  obtain ⟨ms, hms⟩ := sendRRequestOk_writes env c
  rw [hms]
  exact writes_data_mem _ ms bs

lemma sendRNoContent_data_mem (env : Env) (c : Request) (bs : Bytes) :
    .data bs ∈ (c.sendRNoContent env).trace ↔ .data bs ∈ c.trace := by
  unfold sendRNoContent
  dsimp only
  split_ifs
  · rfl
  all_goals exact writes_data_mem _ _ bs

/-- Of a file that is not sendable, nothing is sent. -/
lemma serveRegular_idle {f : File} (hmod : d.notModified env f = c.notModified env f) (hr : d.ranges = c.ranges)
    (hk : f.kind = .reg) (hno : ¬ c.Sendable env f) :
    (∀ bs, .data bs ∈ (d.serveRegular env f).1.trace ↔ .data bs ∈ d.trace) ∧
      (d.serveRegular env f).2 = .done := by
  unfold serveRegular
  by_cases hold : d.notModified env f = true
  · rw [if_pos hold]
    exact ⟨fun bs => (closed_data_mem _ _ bs).trans ((sendRNotModified_refused env d).data_mem bs), rfl⟩
  · rw [if_neg hold]
    dsimp only
    by_cases hzero : f.size = 0
    · rw [if_pos hzero]
      split_ifs
      · exact ⟨fun bs => (closed_data_mem _ _ bs).trans (sendRNoContent_data_mem env _ bs), rfl⟩
      · exact ⟨fun bs => (closed_data_mem _ _ bs).trans (sendRRequestOk_data_mem env _ bs), rfl⟩
    · rw [if_neg hzero]
      have hranges : ¬ (c.ranges ≠ [] → fixupRanges f.size c.ranges ≠ []) := fun hsat =>
        hno ⟨hk, by rw [← hmod]; simpa using hold, hzero, hsat⟩
      rw [Classical.not_imp, not_not, ← hr] at hranges
      rw [if_pos hranges.1]
      unfold rangesFixup
      dsimp only
      rw [if_pos hranges.2]
      exact ⟨fun bs => (closed_data_mem _ _ bs).trans ((sendRInvalidRange_refused env _).data_mem bs), rfl⟩

/-- The file that answers is the only one. -/
lemma serve_mem_served {f : File} {q : Bytes} (h : Kin c d) (hq : .serve q ∈ (d.serveFile env f p).1.trace) :
    f.kind = .reg ∧ p = q := by
  have hchosen := (serve_mem_serveFile f p).mp (mem_choices.mpr hq)
  rw [h.unchosen] at hchosen
  obtain hm | hreg := hchosen
  · exact absurd hm List.not_mem_nil
  · unfold regularName at hreg
    split_ifs at hreg with hk
    exact ⟨hk, Option.some.inj hreg⟩

lemma gunzip_mem_choices : .gunzip ∈ c.choices ↔ .gunzip ∈ c.trace := by
  simp [choices, Event.isChoice]

lemma serveFile_obeys {f : File} (h : Kin c d) (hp : c.Sendable env f → accessAllow env p) :
    Obeys env (d.serveFile env f p) := by
  rintro q ⟨hq, hsend⟩
  obtain ⟨hk, rfl⟩ := serve_mem_served h hq
  by_contra hdeny
  have hserve : d.serveFile env f p = (d.log (.serve p)).serveRegular env f := by
    unfold serveFile
    rw [if_neg (not_not.mpr hk)]
  obtain ⟨hdata, hret⟩ := serveRegular_idle (d := d.log (.serve p)) (h.notModified env f) h.ranges hk
    fun hs => hdeny (hp hs)
  obtain ⟨bs, -, hbs⟩ | ⟨hmore, -, -⟩ | ⟨hgunzip, -⟩ := hsend
  · rw [hserve, hdata] at hbs
    have hlog : .data bs ∈ d.trace ++ [.serve p] := hbs
    simp [h.unsent] at hlog
  · rw [hserve, hret] at hmore
    cases hmore
  · rw [← gunzip_mem_choices, choices_serveFile, h.unchosen, if_pos hk] at hgunzip
    simp at hgunzip

/-- What the request of a file that is sent holds behind its header. -/
lemma Sendable.headed {f : File} (h : c.Sendable env f) (hmem : d.dataMem = none) :
    (d.headed env f).method = d.method ∧
      (∃ r rest, (d.headed env f).ranges = r :: rest ∧ r.start ≤ r.stop ∧ r.stop < f.size) ∧
      ((d.headed env f).dataMem = some f.data ∧ f.size ≤ maxFileMmap ∨
        (d.headed env f).dataMem = none ∧ (d.headed env f).dataFd = f.fd) := by
  have hpos := h.nonempty
  have hway : ∀ e : Request, e.filesize = f.size → e.dataMem = none →
      (e.attachData env f).method = e.method ∧ (e.attachData env f).ranges = e.ranges ∧
        ((e.attachData env f).dataMem = some f.data ∧ f.size ≤ maxFileMmap ∨
          (e.attachData env f).dataMem = none ∧ (e.attachData env f).dataFd = f.fd) := by
    intro e hsize he
    unfold attachData
    split_ifs with hlarge
    · exact ⟨rfl, rfl, .inr ⟨he, rfl⟩⟩
    · exact ⟨rfl, rfl, .inl ⟨rfl, hsize ▸ Nat.le_of_not_lt fun hc => hlarge (.inl hc)⟩⟩
  unfold Request.headed
  dsimp only
  obtain ⟨hm, hranges, hattached⟩ := hway { d with
    filesize := f.size, lastModified := f.mtime, ranges := fixupRanges f.size d.ranges } rfl hmem
  generalize Request.attachData env _ f = e at hm hranges hattached ⊢
  dsimp only at hm hranges
  cases hcut : e.ranges with
  | cons r rest =>
    have hin := fixupRanges_within r (hranges ▸ hcut ▸ List.mem_cons_self)
    exact ⟨hm, ⟨r, rest, hcut, hin⟩, hattached⟩
  | nil =>
    obtain ⟨ms, hms⟩ := sendRRequestOk_writes env { e with ranges := [⟨0, f.size - 1⟩] }
    dsimp only
    rw [hms]
    exact ⟨hm, ⟨_, [], rfl, Nat.zero_le _, by show f.size - 1 < f.size; omega⟩, hattached⟩

lemma completeResponse_data_mem (env : Env) (c : Request) (bs : Bytes) :
    .data bs ∈ (c.completeResponse env).1.trace ↔ .data bs ∈ c.trace := by
  unfold completeResponse
  split
  · show .data bs ∈ c.trace ++ [.wild] ↔ _
    simp
  · next rest _ =>
    dsimp only
    split_ifs
    · cases rest with
      | nil => exact (reqFlush_data_mem _ bs).trans (writes_data_mem _ _ bs)
      | cons r rest => exact writes_data_mem _ _ bs
    · rfl

/-- Behind the header the first bytes follow, or they are left for the next round. -/
lemma startTransfer_sending {f : File} {r : Range} {rest : List Range} (hm : c.method = .get)
    (hr : c.ranges = r :: rest) (hle : r.start ≤ r.stop) (hlt : r.stop < f.size)
    (hway : c.dataMem = some f.data ∧ f.size ≤ maxFileMmap ∨ c.dataMem = none ∧ c.dataFd = f.fd)
    (hbus : env.sigbus = false) : Sending env (c.startTransfer env) := by
  have hmore : c.dataMem.isSome ∨ c.dataFd ≠ 0 → Sending env (c, .more) := fun hleft =>
    .inr (.inl ⟨rfl, by rw [hr]; exact List.cons_ne_nil _ _, hleft⟩)
  unfold startTransfer firstChunk
  rw [if_neg (by rw [hm]; decide), hr]
  obtain ⟨hmem, hsmall⟩ | ⟨hmem, hfd⟩ := hway
  · have hmax : maxFileMmap = 102400 := rfl
    have hbytes := bytes_eq hle (hlt.trans f.size_lt)
    rw [hmem]
    dsimp only
    rw [hbytes, Nat.mod_eq_of_lt (by omega), hbus]
    generalize hn : min (bufferSize - c.bufferEnd) (r.stop + 1 - r.start) = n
    by_cases hroom : 256 < bufferSize - c.bufferEnd
    · have hchunk : (slice f.data r.start (r.start + n)).length = n :=
        length_slice_mem hle hlt f.size_lt (by omega)
      have hne : slice f.data r.start (r.start + n) ≠ [] := List.ne_nil_of_length_pos (by omega)
      have hput : .data (slice f.data r.start (r.start + n)) ∈
          ((c.bufferData (slice f.data r.start (r.start + n))).moveRange r rest n).trace :=
        List.mem_append_right _ (List.mem_singleton_self _)
      rw [if_pos hroom, if_neg (by decide)]
      split_ifs with hend
      · exact .inl ⟨_, hne, (completeResponse_data_mem env _ _).mpr hput⟩
      · exact .inl ⟨_, hne, hput⟩
    · rw [if_neg hroom]
      exact hmore (.inl (by rw [hmem]; rfl))
  · rw [hmem]
    have hpos := f.fd_gt
    exact hmore (.inr (by omega))

/-- A sendable file is sent, unless a page fault strikes. -/
lemma serveFile_sent {f : File} (h : Kin c d) (hs : c.Sendable env f) (hbus : env.sigbus = false) :
    Sent env (d.serveFile env f p) p := by
  refine ⟨mem_choices.mp ((serve_mem_serveFile f p).mpr (.inr (if_pos hs.regular))), ?_⟩
  unfold serveFile
  rw [if_neg (not_not.mpr hs.regular), serveRegular_headed (c := d.log (.serve p))
    ((h.notModified env f).trans hs.modified) hs.nonempty (h.ranges ▸ hs.satisfiable)]
  obtain ⟨hm, ⟨r, rest, hr, hle, hlt⟩, hway⟩ := hs.headed (d := d.log (.serve p)) h.unmapped
  exact startTransfer_sending (hm.trans h.method) hr hle hlt hway hbus

/-! ### A file that goes through gunzip -/

lemma Kin.streamHeader (h : Kin c d) (env : Env) (line : String) (tail : List Msg) :
    Kin c (d.streamHeader env line tail) := by
  refine ⟨⟨?_, ?_, ?_, ?_, (choices_streamHeader env d line tail).trans h.unchosen, fun bs hm => ?_⟩, ?_, ?_⟩
  on_goal 5 =>
    unfold Request.streamHeader at hm
    split_ifs at hm
    · exact h.unsent bs hm
    · rw [reqFlush_data_mem, writes_data_mem] at hm
      exact h.unsent bs hm
  all_goals
    unfold Request.streamHeader
    split_ifs
  exacts [h.method, h.method, h.cgi, h.cgi, h.unmapped, h.unmapped, h.unopened, h.unopened, h.ranges, h.ranges,
    h.date, h.date]

lemma pathname_streamHeader (env : Env) (c : Request) (line : String) (tail : List Msg) :
    (c.streamHeader env line tail).pathname = c.pathname := by
  unfold streamHeader
  split_ifs <;> rfl

/-- The child of `name.gz`. -/
lemma initCgi_gunzip {name : Bytes} (hc : c.cgiType = .none) (hm : c.method = .get)
    (hp : c.pathname = some (name ++ text ".gz")) : c.initCgi env =
      if env.forkOk then (c.squashKa, .done) else (c.squashKa.boaPerror env, .done) := by
  have hpipes : c.squashKa.usesPipes = false := by
    have hlast : (name ++ text ".gz").getLast? = some 122 := by
      rw [List.getLast?_append, show (text ".gz").getLast? = some 122 by decide +kernel]
      rfl
    show (c.cgiType = .cgi || (c.cgiType = .none && (c.pathname.getD []).getLast? == some slash)) = false
    rw [hc, hp, Option.getD_some, hlast]
    rfl
  have hget : c.squashKa.closePostData = c.squashKa := by
    unfold closePostData
    exact if_neg (by rw [show c.squashKa.method = .get from hm]; decide)
  unfold initCgi
  dsimp only
  rw [if_pos (show c.squashKa.cgiType = .none from hc)]
  have hfailed : (c.squashKa.boaPerror env).usesPipes = false := by
    obtain ⟨o, code, he, -, -⟩ := sendRError_refused env c.squashKa
    show (c.squashKa.sendRError env).usesPipes = false
    rw [he]
    exact hpipes
  unfold spawn
  simp only [hpipes, Bool.false_and, Bool.false_eq_true, if_false, hget, hfailed]
  cases env.forkOk with
  | true => rfl
  | false => rfl

section Gunzip
variable {name : Bytes}

/-- The child is started as `init_get` and `get_dir` do. -/
def gunzipped (env : Env) (c : Request) (gz : Bytes) : Request × Ret :=
  ((c.log .gunzip).log (.serve gz)).initCgi env

lemma Kin.gunzipped (h : Kin c d) (env : Env) (hp : d.pathname = some (name ++ text ".gz")) :
    (d.gunzipped env (name ++ text ".gz")).1.choices = [.gunzip, .serve (name ++ text ".gz")] ∧
      (d.gunzipped env (name ++ text ".gz")).2 = .done ∧
      ∀ bs, .data bs ∉ (d.gunzipped env (name ++ text ".gz")).1.trace := by
  have hno : ∀ bs, .data bs ∉ d.trace ++ [.gunzip] ++ [.serve (name ++ text ".gz")] := by
    intro bs hm
    simp [h.unsent] at hm
  unfold Request.gunzipped
  refine ⟨by simp [h.unchosen], ?_⟩
  rw [initCgi_gunzip (c := (d.log .gunzip).log (.serve (name ++ text ".gz"))) h.cgi h.method hp]
  split_ifs
  · exact ⟨rfl, hno⟩
  · exact ⟨rfl, fun bs hm => hno bs (((sendRError_refused env _).data_mem bs).mp hm)⟩

lemma gunzipped_obeys (h : Kin c d) (hp : d.pathname = some (name ++ text ".gz"))
    (hgz : env.forkOk → accessAllow env (name ++ text ".gz")) :
    Obeys env (d.gunzipped env (name ++ text ".gz")) := by
  obtain ⟨hchoices, hret, hno⟩ := h.gunzipped env hp
  rintro q ⟨hq, hsend⟩
  rw [← mem_choices, hchoices] at hq
  have hname : name ++ text ".gz" = q := by simpa [eq_comm] using hq
  obtain ⟨bs, -, hbs⟩ | ⟨hmore, -, -⟩ | ⟨-, hfork⟩ := hsend
  · exact absurd hbs (hno bs)
  · rw [hret] at hmore
    cases hmore
  · rw [← hname]
    exact hgz hfork

lemma gunzipped_sent (h : Kin c d) (hp : d.pathname = some (name ++ text ".gz")) (hfork : env.forkOk) :
    Sent env (d.gunzipped env (name ++ text ".gz")) (name ++ text ".gz") := by
  obtain ⟨hchoices, -, -⟩ := h.gunzipped env hp
  refine ⟨mem_choices.mp ?_, .inr (.inr ⟨gunzip_mem_choices.mp ?_, hfork⟩)⟩
  · rw [hchoices]
    simp
  · rw [hchoices]
    simp

/-- The compressed form of an index file goes through a child that was started in its name. -/
lemma gunzipIndex_eq (name : Bytes) (h : Kin c d) (env : Env) (f : File) (index : Bytes) :
    ∃ e, Kin c e ∧ e.pathname = some (name ++ text ".gz") ∧
      finishDir env (d.gunzipIndex env f index (name ++ text ".gz")) =
        e.gunzipped env (name ++ text ".gz") := by
  have hnamed : Kin c { ((d.log (.opened f.fd)).log (.closed f.fd)).squashKa with
      responseStatus := 200, pathname := some (name ++ text ".gz") } :=
    ((h.opened f.fd).closed f.fd).congr rfl
  unfold gunzipIndex
  dsimp only
  rw [if_neg]
  · exact ⟨_, hnamed.streamHeader env _ _, pathname_streamHeader env _ _ _, rfl⟩
  · rw [method_streamHeader, hnamed.method]
    decide

/-- So does that of a document. -/
lemma gunzipDocument_eq {f : File} (h : Kin c d) (hlen : d.path.length + 4 ≤ maxPathLength)
    (hz : env.fs.openFile (d.path ++ text ".gz") = .ok f) :
    ∃ e, Kin c e ∧ e.pathname = some (d.path ++ text ".gz") ∧
      d.gunzipDocument env = some (e.gunzipped env (d.path ++ text ".gz")) := by
  have hnamed : Kin c { (d.log (.opened f.fd)).log (.closed f.fd) with
      responseStatus := 200, pathname := some (d.path ++ text ".gz") } :=
    ((h.opened f.fd).closed f.fd).congr rfl
  unfold gunzipDocument
  rw [if_neg (not_lt.mpr hlen)]
  dsimp only
  rw [hz]
  dsimp only
  rw [if_neg]
  · exact ⟨_, hnamed.streamHeader env _ _, pathname_streamHeader env _ _ _, rfl⟩
  · rw [method_streamHeader, hnamed.method]
    decide

end Gunzip

/-! ### What answers for a directory -/

section Directory
variable {dir : File}

lemma rebuildCache_obeys {name : Bytes} (h : Kin c d)
    (hf : ∀ f, env.chdirErr = none → env.opendirOk = true → env.fopenOk = true → env.reopen = .ok f →
      c.Sendable env { f with mtime := dir.mtime } → accessAllow env name) :
    Obeys env (finishDir env (d.rebuildCache env dir name)) := by
  have hchoices := (indexDirectory_spec env d).1
  rw [h.unchosen] at hchoices
  have hwritten : (d.indexDirectory env).2 = true → Kin c (d.indexDirectory env).1 ∧ env.chdirErr = none ∧
      env.opendirOk = true ∧ env.fopenOk = true := by
    unfold indexDirectory
    intro hok
    split at hok
    · cases hok
    · cases hok
    · next hchdir =>
      rw [hchdir]
      split_ifs at hok ⊢ with hopen hfopen
      exact ⟨h.congr rfl, rfl, by simpa using hopen, by simpa using hfopen⟩
  unfold rebuildCache
  generalize d.indexDirectory env = r at hchoices hwritten
  obtain ⟨e, ok⟩ := r
  cases ok with
  | false => exact obeys_of_choices hchoices
  | true =>
    obtain ⟨hkin, hchdir, hopen, hfopen⟩ := hwritten rfl
    dsimp only
    cases hre : env.reopen with
    | ok f => exact serveFile_obeys ((hkin.opened f.fd).useIndexName env) (hf f hchdir hopen hfopen hre)
    | error err => exact obeys_of_choices ((choices_boaPerror env e).trans hchoices)

lemma getCachedirFile_obeys {cachedir : Bytes} (h : Kin c d)
    (hcached : ∀ f, env.fs.openFile (cacheName cachedir dir) = .ok f → dir.mtime < f.mtime →
      c.Sendable env { f with mtime := dir.mtime } → accessAllow env (cacheName cachedir dir))
    (hrewritten : ∀ f, Rewritten env cachedir dir f → c.Sendable env { f with mtime := dir.mtime } →
      accessAllow env (cacheName cachedir dir)) :
    Obeys env (finishDir env (d.getCachedirFile env cachedir dir)) := by
  have hrebuild : (∀ f', env.fs.openFile (cacheName cachedir dir) = .ok f' → f'.mtime ≤ dir.mtime) →
      ∀ e, Kin c e → Obeys env (finishDir env (e.rebuildCache env dir (cacheName cachedir dir))) := fun hstale e he =>
    rebuildCache_obeys he fun f hchdir hopen hfopen hre => hrewritten f ⟨hstale, hchdir, hopen, hfopen, hre⟩
  unfold getCachedirFile
  dsimp only
  cases ho : env.fs.openFile (cacheName cachedir dir) with
  | error err =>
    refine hrebuild (fun f' hf' => ?_) d h
    rw [ho] at hf'
    cases hf'
  | ok f =>
    dsimp only
    split_ifs with hlt
    · exact serveFile_obeys ((h.opened f.fd).useIndexName env) (hcached f ho hlt)
    · refine hrebuild (fun f' hf' => ?_) _ ((h.opened f.fd).closed f.fd)
      rw [ho] at hf'
      cases hf'
      exact not_lt.mp hlt

lemma makeDir_obeys (h : Kin c d) (hdir : c.DirCovered env dir) (hun : Unindexed env c.path) :
    Obeys env (finishDir env (d.makeDir env dir)) := by
  cases hmaker : env.cfg.dirmaker with
  | some maker =>
    -- a page of the directory maker is no file
    rintro p ⟨hp, -⟩
    have hchosen := (serve_mem_makeDir dir).mp (mem_choices.mpr hp)
    rw [h.unchosen] at hchosen
    unfold makeChoice at hchosen
    rw [hmaker] at hchosen
    simp at hchosen
  | none =>
    unfold makeDir
    rw [hmaker]
    cases hcache : env.cfg.cachedir with
    | none => exact obeys_of_choices ((choices_sendRForbidden env d).trans h.unchosen)
    | some cachedir =>
      exact getCachedirFile_obeys h (fun f => hdir.cached cachedir f hun hmaker hcache)
        fun f => hdir.rewritten cachedir f hun hmaker hcache

lemma gunzipIndex_obeys (h : Kin c d) (f : File) (index : Bytes) {name : Bytes}
    (hgz : env.forkOk → accessAllow env (name ++ text ".gz")) :
    Obeys env (finishDir env (d.gunzipIndex env f index (name ++ text ".gz"))) := by
  obtain ⟨e, hkin, hname, he⟩ := gunzipIndex_eq name h env f index
  rw [he]
  exact gunzipped_obeys hkin hname hgz

lemma getDir_obeys (h : Kin c d) (hpath : d.path = c.path) (hdir : c.DirCovered env dir) :
    Obeys env (finishDir env (d.getDir env dir)) := by
  unfold getDir
  cases hi : env.cfg.directoryIndex with
  | none => exact makeDir_obeys h hdir (.inl hi)
  | some index =>
    dsimp only
    rw [hpath]
    by_cases hlong : maxPathLength < (c.path ++ index.val).length + (if env.cfg.gunzip then 3 else 0) + 1
    · rw [if_pos hlong]
      exact obeys_of_choices ((choices_boaPerror env d).trans h.unchosen)
    · have hname : indexName env c.path = some (c.path ++ index.val) := by
        unfold indexName
        rw [hi]
        exact if_neg hlong
      rw [if_neg hlong]
      cases ho : env.fs.openFile (c.path ++ index.val) with
      | ok f => exact serveFile_obeys ((h.opened f.fd).congr rfl) (hdir.index _ f hname ho)
      | error e =>
        cases e with
        | eacces => exact obeys_of_choices ((choices_sendRForbidden env d).trans h.unchosen)
        | other => exact obeys_of_choices ((choices_sendRNotFound env d).trans h.unchosen)
        | enoent =>
          dsimp only
          have hmissing : (env.cfg.gunzip → ∀ f, env.fs.openFile (c.path ++ index.val ++ text ".gz") ≠ .ok f) →
              Obeys env (finishDir env (d.makeDir env dir)) := fun hgz =>
            makeDir_obeys h hdir (.inr ⟨_, hname, ho, hgz⟩)
          by_cases hg : env.cfg.gunzip
          · rw [if_pos hg]
            cases hz : env.fs.openFile (c.path ++ index.val ++ text ".gz") with
            | error e => exact hmissing fun _ f => by rw [hz]; simp
            | ok f => exact gunzipIndex_obeys h f index fun hfork => hdir.indexGz _ f hname ho hg hz hfork
          · rw [if_neg hg]
            exact hmissing fun hg' => absurd hg' hg

end Directory

/-! ### The whole of `init_get` -/

lemma serveOpened_obeys {f : File} (hac : env.cfg.accessControl) (h : Kin c d)
    (hdir : f.kind = .dir → d.path.getLast? = some slash → accessAllow env d.path →
      d.path = c.path ∧ c.DirCovered env f) : Obeys env (d.serveOpened env f) := by
  unfold serveOpened
  by_cases hallow : accessAllow env d.path
  · rw [if_neg (by simp [hallow])]
    by_cases hk : f.kind = .dir
    · rw [if_pos hk]
      unfold serveDirectory
      dsimp only
      have hclosed := h.closed f.fd
      by_cases hlast : d.path.getLast? = some slash
      · obtain ⟨hpath, hcov⟩ := hdir hk hlast hallow
        rw [if_neg (show ¬ (d.log (.closed f.fd)).path.getLast? ≠ some slash from not_not.mpr hlast)]
        exact getDir_obeys hclosed hpath hcov
      · rw [if_pos (show (d.log (.closed f.fd)).path.getLast? ≠ some slash from hlast)]
        exact obeys_of_choices ((choices_redirectDirectory env _).trans hclosed.unchosen)
    · rw [if_neg hk]
      exact serveFile_obeys h fun _ => hallow
  · rw [if_pos (by simp [hac, hallow])]
    exact obeys_of_choices ((choices_sendRForbidden env d).trans h.unchosen)

/-- A name without its language ends in `html`. -/
lemma langRewrite_getLast {path name : Bytes} (h : langRewrite path = some name) :
    name.getLast? ≠ some slash := by
  have hhtml : (text "html").getLast? = some 108 := by decide +kernel
  unfold langRewrite at h
  dsimp only at h
  split_ifs at h
  obtain rfl := Option.some.inj h
  rw [List.getLast?_append, hhtml]
  show some (108 : UInt8) ≠ some slash
  decide

/-- Nothing is opened under the requested name, and `e` was the last error. -/
lemma missing_obeys (h : Kin c d) (hpath : d.path = c.path) (e saved : Errno)
    (hgz : ∀ f, e = .enoent → env.cfg.gunzip → c.path.length + 4 ≤ maxPathLength →
      env.fs.openFile (c.path ++ text ".gz") = .ok f → env.forkOk → accessAllow env (c.path ++ text ".gz")) :
    Obeys env (if env.cfg.gunzip ∧ e = .enoent then
        match d.gunzipDocument env with
        | some r => r
        | none => (d.openFailed env saved, .done)
      else (d.openFailed env saved, .done)) := by
  have hfailed : Obeys env (d.openFailed env saved, .done) :=
    obeys_of_choices ((choices_openFailed env d saved).trans h.unchosen)
  by_cases hg : env.cfg.gunzip ∧ e = .enoent
  · rw [if_pos hg]
    rw [← hpath] at hgz
    by_cases hlong : maxPathLength < d.path.length + 4
    · have hbad : d.gunzipDocument env = some (d.sendRBadRequest env, .done) := if_pos hlong
      rw [hbad]
      exact obeys_of_choices ((choices_sendRBadRequest env d).trans h.unchosen)
    · cases hz : env.fs.openFile (d.path ++ text ".gz") with
      | error e' =>
        have hnone : d.gunzipDocument env = none := by
          unfold gunzipDocument
          rw [if_neg hlong]
          dsimp only
          rw [hz]
        rw [hnone]
        exact hfailed
      | ok f =>
        obtain ⟨r, hkin, hname, hr⟩ := gunzipDocument_eq h (not_lt.mp hlong) hz
        rw [hr]
        exact gunzipped_obeys hkin hname (hgz f hg.2 hg.1 (not_lt.mp hlong) hz)
  · rw [if_neg hg]
    exact hfailed

/-- The name without its language is missing too. -/
lemma openedName_missing {e : Errno} (ho : env.fs.openFile c.path = .error e)
    (hn : openedName env c.path = .error .enoent) : e = .enoent ∧ (env.cfg.useLangRewrite →
      ∀ name, langRewrite c.path = some name → env.fs.openFile name = .error .enoent) := by
  unfold openedName at hn
  rw [ho] at hn
  cases hl : langRewrite c.path with
  | none =>
    rw [hl] at hn
    cases hn
    exact ⟨rfl, fun _ name hname => by cases hname⟩
  | some name =>
    rw [hl] at hn
    dsimp only at hn
    split_ifs at hn with hlang
    · refine ⟨hlang.2, fun _ name' hname => ?_⟩
      obtain rfl := Option.some.inj hname
      cases hopen : env.fs.openFile name with
      | ok f =>
        rw [hopen] at hn
        cases hn
      | error e' =>
        rw [hopen] at hn
        cases hn
        rfl
    · cases hn
      exact ⟨rfl, fun huse => absurd ⟨huse, rfl⟩ hlang⟩

lemma openedName_rewritten {e : Errno} {name : Bytes} {f : File} (ho : env.fs.openFile c.path = .error e)
    (hn : openedName env c.path = .ok (name, f)) : name.getLast? ≠ some slash := by
  unfold openedName at hn
  rw [ho] at hn
  cases hl : langRewrite c.path with
  | none =>
    rw [hl] at hn
    cases hn
  | some name' =>
    rw [hl] at hn
    dsimp only at hn
    split_ifs at hn
    cases hopen : env.fs.openFile name' with
    | ok f' =>
      rw [hopen] at hn
      cases hn
      exact langRewrite_getLast hl
    | error e' =>
      rw [hopen] at hn
      cases hn

/-- Where the rules allow what answers in place of the requested file, no denied file is sent. -/
lemma initGet_obeys (hac : env.cfg.accessControl) (h : c.PlainGet) (hcov : c.Covered env) :
    Obeys env (c.initGet env) := by
  unfold initGet
  cases ho : env.fs.openFile c.path with
  | ok f =>
    exact serveOpened_obeys hac (h.kin.opened f.fd) fun hk hlast hallow =>
      ⟨rfl, hcov.directory f ho hk hlast hallow⟩
  | error e =>
    obtain ⟨name, f, hw, hn⟩ | ⟨e', hw, hn⟩ := openRewritten_cases ho
    · have hkin : Kin c { c.log (.opened f.fd) with pathname := some name } := (h.kin.opened f.fd).congr rfl
      simp only [hw]
      exact serveOpened_obeys hac hkin fun _ hlast => absurd hlast (openedName_rewritten ho hn)
    · simp only [hw]
      refine missing_obeys h.kin rfl e' e fun f he hg hlen hz hfork => ?_
      rw [he] at hn
      obtain ⟨rfl, hlang⟩ := openedName_missing ho hn
      exact hcov.document f ho hlang hg hlen hz hfork

/-! ### What is left out of the rules is sent -/

section Sent
variable {dir : File}

lemma initGet_directory (h : c.PlainGet) (ho : env.fs.openFile c.path = .ok dir) (hk : dir.kind = .dir)
    (hlast : c.path.getLast? = some slash) (hallow : accessAllow env c.path) :
    ∃ d, Kin c d ∧ d.path = c.path ∧ c.initGet env = finishDir env (d.getDir env dir) := by
  refine ⟨(c.log (.opened dir.fd)).log (.closed dir.fd), (h.kin.opened dir.fd).closed dir.fd, rfl, ?_⟩
  unfold initGet
  rw [ho]
  dsimp only
  unfold serveOpened
  rw [if_neg (by rw [show (c.log (.opened dir.fd)).path = c.path from rfl, hallow]; simp), if_pos hk]
  unfold serveDirectory
  dsimp only
  rw [if_neg (show ¬ ((c.log (.opened dir.fd)).log (.closed dir.fd)).path.getLast? ≠ some slash from
    not_not.mpr hlast)]
  rfl

lemma indexName_cases {path name : Bytes} (h : indexName env path = some name) :
    ∃ index, env.cfg.directoryIndex = some index ∧ name = path ++ index.val ∧
      ¬ maxPathLength < (path ++ index.val).length + (if env.cfg.gunzip then 3 else 0) + 1 := by
  unfold indexName at h
  cases hi : env.cfg.directoryIndex with
  | none =>
    rw [hi] at h
    cases h
  | some index =>
    rw [hi, Option.bind_some] at h
    by_cases hlong : maxPathLength < (path ++ index.val).length + (if env.cfg.gunzip then 3 else 0) + 1
    · rw [if_pos hlong] at h
      cases h
    · rw [if_neg hlong] at h
      exact ⟨index, rfl, (Option.some.inj h).symm, hlong⟩

lemma getDir_index (dir : File) {name : Bytes} {f : File} (hpath : d.path = c.path)
    (hname : indexName env c.path = some name) (ho : env.fs.openFile name = .ok f) :
    ∃ index, d.getDir env dir = ({ d.log (.opened f.fd) with requestUri := index }, .file f name) := by
  obtain ⟨index, hi, rfl, hlong⟩ := indexName_cases hname
  refine ⟨index, ?_⟩
  unfold getDir
  rw [hi, hpath]
  dsimp only
  rw [if_neg hlong, ho]

lemma getDir_indexGz (dir : File) {name : Bytes} {f : File} (hpath : d.path = c.path)
    (hname : indexName env c.path = some name) (ho : env.fs.openFile name = .error .enoent) (hg : env.cfg.gunzip)
    (hz : env.fs.openFile (name ++ text ".gz") = .ok f) :
    ∃ index, d.getDir env dir = d.gunzipIndex env f index (name ++ text ".gz") := by
  obtain ⟨index, hi, rfl, hlong⟩ := indexName_cases hname
  refine ⟨index, ?_⟩
  unfold getDir
  rw [hi, hpath]
  dsimp only
  rw [if_neg hlong, ho]
  dsimp only
  rw [if_pos hg, hz]

lemma getDir_unindexed (hpath : d.path = c.path) (h : Unindexed env c.path) :
    d.getDir env dir = d.makeDir env dir := by
  unfold getDir
  obtain hi | ⟨name, hname, ho, hz⟩ := h
  · rw [hi]
  · obtain ⟨index, hi, rfl, hlong⟩ := indexName_cases hname
    rw [hi, hpath]
    dsimp only
    rw [if_neg hlong, ho]
    dsimp only
    by_cases hg : env.cfg.gunzip
    · rw [if_pos hg]
      cases hgz : env.fs.openFile (c.path ++ index.val ++ text ".gz") with
      | ok f => exact absurd hgz (hz hg f)
      | error e => rfl
    · rw [if_neg hg]

lemma makeDir_cachedir {cachedir : ConfText} (hmaker : env.cfg.dirmaker = none)
    (hcache : env.cfg.cachedir = some cachedir) : d.makeDir env dir = d.getCachedirFile env cachedir dir := by
  unfold makeDir
  rw [hmaker, hcache]
  rfl

lemma gunzipIndex_sent {name : Bytes} (h : Kin c d) (f : File) (index : Bytes) (hfork : env.forkOk) :
    Sent env (finishDir env (d.gunzipIndex env f index (name ++ text ".gz"))) (name ++ text ".gz") := by
  obtain ⟨e, hkin, hname, he⟩ := gunzipIndex_eq name h env f index
  rw [he]
  exact gunzipped_sent hkin hname hfork

lemma getCachedirFile_sent {cachedir : Bytes} {f : File} (h : Kin c d)
    (ho : env.fs.openFile (cacheName cachedir dir) = .ok f) (hlt : dir.mtime < f.mtime)
    (hs : c.Sendable env { f with mtime := dir.mtime }) (hbus : env.sigbus = false) :
    Sent env (finishDir env (d.getCachedirFile env cachedir dir)) (cacheName cachedir dir) := by
  unfold getCachedirFile
  dsimp only
  rw [ho]
  dsimp only
  rw [if_pos hlt]
  exact serveFile_sent ((h.opened f.fd).useIndexName env) hs hbus

lemma rebuildCache_sent {cachedir name : Bytes} {f : File} (h : Kin c d) (hr : Rewritten env cachedir dir f)
    (hs : c.Sendable env { f with mtime := dir.mtime }) (hbus : env.sigbus = false) :
    Sent env (finishDir env (d.rebuildCache env dir name)) name := by
  have hwritten : d.indexDirectory env =
      ({ d with filesize := (indexText d.requestUri env.dirEntries).length }, true) := by
    unfold indexDirectory
    rw [hr.entered]
    dsimp only
    rw [hr.listed, hr.created]
    rfl
  have hkin : Kin c { d with filesize := (indexText d.requestUri env.dirEntries).length } := h.congr rfl
  unfold rebuildCache
  rw [hwritten]
  dsimp only
  rw [hr.reopened]
  exact serveFile_sent ((hkin.opened f.fd).useIndexName env) hs hbus

lemma getCachedirFile_rewritten {cachedir : Bytes} {f : File} (h : Kin c d) (hr : Rewritten env cachedir dir f)
    (hs : c.Sendable env { f with mtime := dir.mtime }) (hbus : env.sigbus = false) :
    Sent env (finishDir env (d.getCachedirFile env cachedir dir)) (cacheName cachedir dir) := by
  unfold getCachedirFile
  dsimp only
  cases ho : env.fs.openFile (cacheName cachedir dir) with
  | error e => exact rebuildCache_sent h hr hs hbus
  | ok f' =>
    dsimp only
    rw [if_neg (not_lt.mpr (hr.stale f' ho))]
    exact rebuildCache_sent ((h.opened f'.fd).closed f'.fd) hr hs hbus

lemma missing_sent {f : File} (h : c.PlainGet) (ho : env.fs.openFile c.path = .error .enoent)
    (hlang : env.cfg.useLangRewrite → ∀ name, langRewrite c.path = some name →
      env.fs.openFile name = .error .enoent) (hg : env.cfg.gunzip) (hlen : c.path.length + 4 ≤ maxPathLength)
    (hz : env.fs.openFile (c.path ++ text ".gz") = .ok f) (hfork : env.forkOk) :
    Sent env (c.initGet env) (c.path ++ text ".gz") := by
  have hsecond : c.openRewritten env .enoent = (c, .error .enoent) := by
    unfold openRewritten
    by_cases huse : env.cfg.useLangRewrite
    · rw [if_pos ⟨huse, rfl⟩]
      cases hl : langRewrite c.path with
      | none => rfl
      | some name =>
        dsimp only
        rw [hlang huse name hl]
    · rw [if_neg fun hc => huse hc.1]
  unfold initGet
  rw [ho]
  dsimp only
  rw [hsecond]
  dsimp only
  obtain ⟨r, hkin, hname, hr⟩ := gunzipDocument_eq h.kin hlen hz
  rw [if_pos ⟨hg, rfl⟩, hr]
  exact gunzipped_sent hkin hname hfork

/-- Whatever the rules have to allow is sent, unless a page fault strikes. -/
lemma covered_of_obeys (h : c.PlainGet) (hbus : env.sigbus = false) (hobeys : Obeys env (c.initGet env)) :
    c.Covered env := by
  refine ⟨fun dir ho hk hlast hallow => ?_, fun f ho hlang hg hlen hz hfork =>
    hobeys _ (missing_sent h ho hlang hg hlen hz hfork)⟩
  obtain ⟨d, hkin, hpath, hinit⟩ := initGet_directory h ho hk hlast hallow
  rw [hinit] at hobeys
  constructor
  case index =>
    intro name f hname hopen hs
    obtain ⟨index, hget⟩ := getDir_index dir hpath hname hopen
    rw [hget] at hobeys
    exact hobeys name (serveFile_sent ((hkin.opened f.fd).congr rfl) hs hbus)
  case indexGz =>
    intro name f hname hopen hg hz hfork
    obtain ⟨index, hget⟩ := getDir_indexGz dir hpath hname hopen hg hz
    rw [hget] at hobeys
    exact hobeys _ (gunzipIndex_sent hkin f index hfork)
  case cached =>
    intro cachedir f hun hmaker hcache hopen hlt hs
    rw [getDir_unindexed hpath hun, makeDir_cachedir hmaker hcache] at hobeys
    exact hobeys _ (getCachedirFile_sent hkin hopen hlt hs hbus)
  case rewritten =>
    intro cachedir f hun hmaker hcache hr hs
    rw [getDir_unindexed hpath hun, makeDir_cachedir hmaker hcache] at hobeys
    exact hobeys _ (getCachedirFile_rewritten hkin hr hs hbus)

end Sent

/-! Neither side of a page fault asks anything else of the rules. -/

lemma Sendable.of_faulting {f : File} {fault : Bool} (h : c.Sendable (env.faulting fault) f) : c.Sendable env f :=
  ⟨h.regular, h.modified, h.nonempty, h.satisfiable⟩

lemma Covered.faulting (h : c.Covered env) (fault : Bool) : c.Covered (env.faulting fault) := by
  refine ⟨fun dir ho hk hlast hallow => ?_, h.document⟩
  have hdir := h.directory dir ho hk hlast hallow
  exact ⟨fun name f hname hopen hs => hdir.index name f hname hopen hs.of_faulting, hdir.indexGz,
    fun cachedir f hun hmaker hcache hopen hlt hs =>
      hdir.cached cachedir f hun hmaker hcache hopen hlt hs.of_faulting,
    fun cachedir f hun hmaker hcache hr hs => hdir.rewritten cachedir f hun hmaker hcache
      ⟨hr.stale, hr.entered, hr.listed, hr.created, hr.reopened⟩ hs.of_faulting⟩

lemma Covered.of_faulting {fault : Bool} (h : c.Covered (env.faulting fault)) : c.Covered env :=
  h.faulting env.sigbus

end Request

/-- Nothing is sent of a file that the rules deny, with or without a page fault on the way, exactly when
the rules allow whatever answers in place of the requested file and is not withheld for another reason. -/
theorem accessAllow_sent_iff (env : Env) (c : Request) (hac : env.cfg.accessControl) (h : c.PlainGet) :
    (∀ fault p, Request.Sent (env.faulting fault) (c.initGet (env.faulting fault)) p → accessAllow env p) ↔
      c.Covered env := by
  constructor
  · intro hsafe
    exact (@Request.covered_of_obeys (env.faulting false) c h rfl (hsafe false)).of_faulting
  · intro hcov fault
    exact @Request.initGet_obeys (env.faulting fault) c hac h (hcov.faulting fault)

/-- A client that knows the index file of `/d/` already. -/
example : let c := { guardedRequest "/d/" with ifModifiedSince := some (text "Sat, 04 Jun 2005 03:02:01 GMT") }
    .serve (text "/d/f") ∈ (c.initGet guardedEnv).1.trace ∧ (c.initGet guardedEnv).1.responseStatus = 304 := by
  decide +kernel

theorem accessAllow_sent_iff_directory :
    (∀ fault p, Request.Sent (guardedEnv.faulting fault)
        ((guardedRequest "/d/").initGet (guardedEnv.faulting fault)) p → accessAllow guardedEnv p) ↔
      (guardedRequest "/d/").Covered guardedEnv :=
  accessAllow_sent_iff guardedEnv (guardedRequest "/d/") rfl
    ⟨rfl, rfl, rfl, rfl, rfl, fun _ => List.not_mem_nil⟩

/-- Asked for `/d/`, the server sends the contents of the denied `/d/f`. -/
theorem indexFile_sent_denied :
    Request.Sent guardedEnv ((guardedRequest "/d/").initGet guardedEnv) (text "/d/f") ∧
      .data tinyFile.data ∈ ((guardedRequest "/d/").initGet guardedEnv).1.trace ∧
      accessAllow guardedEnv (text "/d/f") = false := by
  have hput : .data tinyFile.data ∈ ((guardedRequest "/d/").initGet guardedEnv).1.trace := by decide +kernel
  have hchosen : .serve (text "/d/f") ∈ ((guardedRequest "/d/").initGet guardedEnv).1.trace := by decide +kernel
  exact ⟨⟨hchosen, .inl ⟨tinyFile.data, by decide +kernel, hput⟩⟩, hput, by decide +kernel⟩

end Boa
