import Boa.Access
import Boa.Descriptors
import Boa.Ledger

/-! The files that `init_get` opens: every one is closed once or belongs to the request when
`init_get` returns, but for the one that the access rules turn down. -/
namespace Boa
open Memory History Ledger

/-- What an event does to the descriptors. -/
def Event.move : Event → Option (Move ℕ)
  | .opened fd => some (.take fd)
  | .closed fd => some (.give fd)
  | _ => none

/-- The descriptors that are open after some events; there is no such set when one of the
events closes what is not open. -/
def openAfter (es : List Event) (held : Multiset ℕ) : Option (Multiset ℕ) :=
  replay (es.filterMap Event.move) held

/-- A field with a descriptor; 0 stands for none. -/
def fdOf (fd : ℕ) : Multiset ℕ := if fd = 0 then 0 else {fd}

/-- The descriptors of a request. -/
def Request.descriptors (c : Request) : Multiset ℕ := fdOf c.dataFd + fdOf c.postDataFd

/-- Nothing is opened for the answer yet, and a body that was sent is in its file. -/
def Request.Unanswered (c : Request) : Prop :=
  c.dataFd = 0 ∧ (c.method = .post → c.postDataFd ≠ 0)

instance (c : Request) : Decidable c.Unanswered := inferInstanceAs (Decidable (_ ∧ _))

/-- From `c` to `d` every descriptor was closed once for each time it was opened, but for
those that `d` has; and `free_request` closes these. -/
def Request.Settled (env : Env) (c d : Request) : Prop :=
  openAfter (d.trace.drop c.trace.length) c.descriptors = some d.descriptors ∧
    openAfter ((d.release env).trace.drop c.trace.length) c.descriptors = some 0

instance (env : Env) (c d : Request) : Decidable (c.Settled env d) :=
  inferInstanceAs (Decidable (_ ∧ _))

lemma openAfter_append {es es' : List Event} {m m' m'' : Multiset ℕ} (h : openAfter es m = some m')
    (h' : openAfter es' m' = some m'') : openAfter (es ++ es') m = some m'' := by
  unfold openAfter
  rw [List.filterMap_append]
  exact replay_trans h h'

lemma openAfter_quiet {es : List Event} (h : ∀ e ∈ es, e.move = none) (m : Multiset ℕ) :
    openAfter es m = some m := by
  unfold openAfter
  rw [List.filterMap_eq_nil_iff.mpr h]
  exact replay_nil m

/-- Which descriptors are open before and after a routine: those of local variables went from
`l` to `l'`, and the request has the ones that it had. -/
structure Handles (l l' : Multiset ℕ) (c d : Request) : Prop where
  moves : ∃ es, d.trace = c.trace ++ es ∧ ∀ m, openAfter es (l + m) = some (l' + m)
  own : (d.dataFd, d.postDataFd, d.method) = (c.dataFd, c.postDataFd, c.method)

variable {env : Env} {l l' l'' : Multiset ℕ} {c d e : Request}

namespace Handles

lemma trans (h : Handles l l' c d) (h' : Handles l' l'' d e) : Handles l l'' c e := by
  obtain ⟨⟨es, hd, hes⟩, hown⟩ := h
  obtain ⟨⟨es', he, hes'⟩, hown'⟩ := h'
  refine ⟨⟨es ++ es', by rw [he, hd, List.append_assoc], fun m => ?_⟩, hown'.trans hown⟩
  exact openAfter_append (hes m) (hes' m)

/-- A routine that opens and closes nothing. -/
lemma of_adds (h : Adds (fun e => e.move = none) c.trace d.trace)
    (ho : (d.dataFd, d.postDataFd, d.method) = (c.dataFd, c.postDataFd, c.method)) :
    Handles l l c d := by
  obtain ⟨es, hd, hes⟩ := h
  exact ⟨⟨es, hd, fun m => openAfter_quiet hes _⟩, ho⟩

lemma of_eq (ht : d.trace = c.trace)
    (ho : (d.dataFd, d.postDataFd, d.method) = (c.dataFd, c.postDataFd, c.method)) :
    Handles l l c d := by
  apply of_adds _ ho
  rw [ht]
  exact .refl _

lemma refl (c : Request) : Handles l l c c := .of_eq rfl rfl

lemma log (c : Request) {e : Event} (he : e.move = none) : Handles l l c (c.log e) :=
  .of_adds (.snoc he) rfl

/-- A routine that writes or flushes. -/
lemma of_replies {ka : Bool → Prop} {len : ℕ → Prop} (h : Out.Replies ka len c.toOut d.toOut)
    (ho : (d.dataFd, d.postDataFd, d.method) = (c.dataFd, c.postDataFd, c.method)) :
    Handles l l c d := by
  apply of_adds _ ho
  apply h.adds.mono
  intro e he
  cases e <;> first | rfl | exact he.elim

lemma opened (c : Request) (fd : ℕ) : Handles l (fd ::ₘ l) c (c.log (.opened fd)) := by
  refine ⟨⟨[.opened fd], rfl, fun m => ?_⟩, rfl⟩
  rw [Multiset.cons_add]
  exact replay_take fd _

lemma closed (c : Request) (fd : ℕ) : Handles (fd ::ₘ l) l c (c.log (.closed fd)) := by
  refine ⟨⟨[.closed fd], rfl, fun m => ?_⟩, rfl⟩
  rw [Multiset.cons_add]
  exact replay_give fd _

/-- A file that is looked at only. -/
lemma looked (c : Request) (fd : ℕ) : Handles l l c ((c.log (.opened fd)).log (.closed fd)) :=
  (opened c fd).trans (closed _ fd)

/-- What else is open stays open. -/
lemma frame (h : Handles l l' c d) (k : Multiset ℕ) : Handles (l + k) (l' + k) c d := by
  obtain ⟨⟨es, hd, hes⟩, hown⟩ := h
  refine ⟨⟨es, hd, fun m => ?_⟩, hown⟩
  rw [Multiset.add_assoc, Multiset.add_assoc]
  exact hes (k + m)

lemma unanswered (h : Handles l l' c d) (hc : c.Unanswered) : d.Unanswered := by
  have ho := h.own
  simp only [Prod.mk.injEq] at ho
  unfold Request.Unanswered
  rw [ho.1, ho.2.1, ho.2.2]
  exact hc

lemma descriptors (h : Handles l l' c d) : d.descriptors = c.descriptors := by
  have ho := h.own
  simp only [Prod.mk.injEq] at ho
  unfold Request.descriptors
  rw [ho.1, ho.2.1]

end Handles

lemma Refused.handles (h : Refused c d) : Handles l l c d := by
  obtain ⟨o, code, rfl, -, hr⟩ := h
  exact .of_replies hr rfl

namespace Request

/-! ### Answers -/

lemma writes_handles (c : Request) (ms : List Msg) : Handles l l c (c.writes ms) :=
  have h : Out.Replies (fun _ => True) (fun _ => True) c.toOut (c.toOut.writes ms) :=
    Out.writes_replies c.toOut ms (fun _ _ => trivial) (fun _ _ => trivial)
  .of_replies h rfl

lemma flush_handles (c : Request) : Handles l l c { c with toOut := c.toOut.reqFlush.1 } :=
  have h : Out.Replies (fun _ => True) (fun _ => True) c.toOut c.toOut.reqFlush.1 :=
    Out.reqFlush_replies c.toOut
  .of_replies h rfl

lemma completeResponse_handles (env : Env) (c : Request) :
    Handles l l c (c.completeResponse env).1 := by
  unfold completeResponse
  split
  · exact .log c rfl
  · next rest _ =>
    have h : Handles l l c { c with ranges := rest } := .of_eq rfl rfl
    have hstatus : ∀ (d : Request) s, Handles l l d { d with status := s } := fun _ _ => .of_eq rfl rfl
    dsimp only
    split_ifs
    · cases rest with
      | nil => exact (h.trans (writes_handles _ _)).trans ((hstatus _ _).trans (flush_handles _))
      | cons r rest => exact h.trans (writes_handles _ _)
    · exact h.trans (hstatus _ _)

lemma sendRRequestOk_handles (env : Env) (c : Request) : Handles l l c (c.sendRRequestOk env) := by
  have h : Handles l l c { c with responseStatus := 200 } := .of_eq rfl rfl
  unfold sendRRequestOk
  dsimp only
  split_ifs
  · exact h
  all_goals exact h.trans (writes_handles _ _)

lemma sendRNoContent_handles (env : Env) (c : Request) : Handles l l c (c.sendRNoContent env) := by
  have h : Handles l l c { c with responseStatus := 204 } := .of_eq rfl rfl
  unfold sendRNoContent
  dsimp only
  split_ifs
  · exact h
  all_goals exact h.trans (writes_handles _ _)

lemma sendRNotModified_handles (env : Env) (c : Request) :
    Handles l l c (c.sendRNotModified env) := by
  have h : Handles l l c { c.squashKa with responseStatus := 304 } := .of_eq rfl rfl
  exact (h.trans (writes_handles _ _)).trans (flush_handles _)

lemma rangesFixup_handles (env : Env) (c : Request) : Handles l l c (c.rangesFixup env).1 := by
  have h : Handles l l c { c with ranges := fixupRanges c.filesize c.ranges } := .of_eq rfl rfl
  unfold rangesFixup
  dsimp only
  split_ifs
  · exact h.trans (sendRInvalidRange_refused env _).handles
  · exact h

lemma firstChunk_handles (env : Env) (c : Request) : Handles l l c (c.firstChunk env).1 := by
  have hdata : ∀ bs r rest n, Handles l l c ((c.bufferData bs).moveRange r rest n) :=
    fun bs r rest n => .of_adds (.snoc (by rfl)) rfl
  unfold firstChunk
  split
  · dsimp only
    split_ifs
    · have h : Handles l l c c.withdraw := .of_adds (.snoc (by rfl)) rfl
      exact h.trans (sendRError_refused env _).handles
    · exact (hdata _ _ _ _).trans (completeResponse_handles env _)
    · exact hdata _ _ _ _
    · exact .refl c
  · exact .refl c

lemma startTransfer_handles (env : Env) (c : Request) : Handles l l c (c.startTransfer env).1 := by
  unfold startTransfer
  split_ifs
  · exact completeResponse_handles env c
  · exact firstChunk_handles env c

lemma respond_handles (env : Env) (c : Request) : Handles l l c (c.respond env).1 := by
  unfold respond
  split
  · have h : Handles l l c { c with responseStatus := 206 } := .of_eq rfl rfl
    exact (h.trans (writes_handles _ _)).trans (startTransfer_handles env _)
  · have h1 : Handles l l c { c with ranges := [⟨0, ulongMax⟩] } := .of_eq rfl rfl
    have h2 := h1.trans (rangesFixup_handles env { c with ranges := [⟨0, ulongMax⟩] })
    split
    · next c' he =>
      rw [he] at h2
      exact h2
    · next c' he =>
      rw [he] at h2
      exact (h2.trans (sendRRequestOk_handles env c')).trans (startTransfer_handles env _)

/-! ### Children -/

lemma addCgiEnvs_handles (c : Request) (kvs : List (Bytes × Bytes)) :
    Handles l l c (c.addCgiEnvs kvs).1 := by
  induction kvs generalizing c with
  | nil => exact .refl c
  | cons kv kvs ih =>
    have h : Handles l l c (c.addCgiEnv kv.1 kv.2 false).1 := by
      unfold addCgiEnv
      split_ifs
      · exact .of_eq rfl rfl
      · exact .refl c
    unfold addCgiEnvs
    split
    · next c' he =>
      rw [he] at h
      exact h.trans (ih c')
    · next c' he =>
      rw [he] at h
      exact h

lemma completeEnv_handles (cfg : Config) (c : Request) : Handles l l c (c.completeEnv cfg).1 := by
  have h : Handles l l c { c with cgiEnv := store c.cgiEnv 0 (cfg.commonCgiEnv.map some) } :=
    .of_eq rfl rfl
  unfold completeEnv
  dsimp only
  have h2 := h.trans (addCgiEnvs_handles _ (serverVariables cfg
    { c with cgiEnv := store c.cgiEnv 0 (cfg.commonCgiEnv.map some) }))
  split
  · next c' he =>
    rw [he] at h2
    exact h2
  · next c' he =>
    rw [he] at h2
    split_ifs
    · exact h2.trans (.of_eq rfl rfl)
    · exact h2

end Request

/-- From `c` on, with the descriptors `l` in local variables, all descriptors were closed but
those that `d` has. -/
def Leaves (l : Multiset ℕ) (c d : Request) : Prop :=
  c.Unanswered → ∃ es, d.trace = c.trace ++ es ∧ openAfter es (l + c.descriptors) = some d.descriptors

lemma Handles.leaves (h : Handles l 0 c d) : Leaves l c d := by
  intro _
  obtain ⟨es, hd, hes⟩ := h.moves
  refine ⟨es, hd, ?_⟩
  rw [h.descriptors, hes, Multiset.zero_add]

/-- A routine in front. -/
lemma Handles.before (h : Handles l l' c d) (h' : Leaves l' d e) : Leaves l c e := by
  intro hc
  obtain ⟨es, hd, hes⟩ := h.moves
  obtain ⟨es', he, hes'⟩ := h' (h.unanswered hc)
  refine ⟨es ++ es', by rw [he, hd, List.append_assoc], ?_⟩
  rw [h.descriptors] at hes'
  exact openAfter_append (hes _) hes'

/-- A routine behind. -/
lemma Leaves.behind (h : Leaves l c d) (h' : Handles 0 0 d e) : Leaves l c e := by
  intro hc
  obtain ⟨es, hd, hes⟩ := h hc
  obtain ⟨es', he, hes'⟩ := h'.moves
  refine ⟨es ++ es', by rw [he, hd, List.append_assoc], openAfter_append hes ?_⟩
  rw [h'.descriptors]
  have hown := hes' d.descriptors
  rwa [Multiset.zero_add] at hown

lemma fdOf_zero : fdOf 0 = 0 := if_pos rfl

lemma fdOf_pos {fd : ℕ} (h : fd ≠ 0) : fdOf fd = {fd} := if_neg h

namespace Request

/-- The parent has its end of the pipe, and the body is with the child. -/
lemma startPipe_leaves {fd : ℕ} (c : Request) (hfd : env.pipeFd = fd) (hpos : fd ≠ 0) :
    Leaves {fd} c (c.closePostData.startPipe env) := by
  subst hfd
  rintro ⟨hdata, hpost⟩
  have hheld : c.descriptors = fdOf c.postDataFd := by
    rw [descriptors, hdata, fdOf_zero, Multiset.zero_add]
  unfold closePostData
  split_ifs with hm
  · refine ⟨[.closed c.postDataFd], rfl, ?_⟩
    have hend : (({ c.log (.closed c.postDataFd) with postDataFd := 0 } : Request).startPipe env).descriptors =
        {env.pipeFd} := by
      rw [descriptors, startPipe]
      simp only [fdOf_zero, fdOf_pos hpos, Multiset.add_zero]
    rw [hend, hheld, fdOf_pos (hpost hm), Multiset.add_comm]
    exact replay_give c.postDataFd {env.pipeFd}
  · refine ⟨[], (List.append_nil _).symm, ?_⟩
    have hend : (c.startPipe env).descriptors = {env.pipeFd} + fdOf c.postDataFd := by
      rw [descriptors, startPipe]
      simp only [fdOf_pos hpos]
    rw [hend, hheld]
    rfl

lemma closePostData_leaves (c : Request) : Leaves 0 c c.closePostData := by
  unfold closePostData
  split_ifs with hm
  · rintro ⟨hdata, hpost⟩
    refine ⟨[.closed c.postDataFd], rfl, ?_⟩
    have hend : ({ c.log (.closed c.postDataFd) with postDataFd := 0 } : Request).descriptors = 0 := by
      simp only [descriptors, log, hdata, fdOf_zero, Multiset.zero_add]
    rw [hend, descriptors, hdata, fdOf_zero, fdOf_pos (hpost hm), Multiset.zero_add, Multiset.zero_add]
    exact replay_give c.postDataFd 0
  · exact (Handles.refl c).leaves

lemma boaPerror_usesPipes (env : Env) (c : Request) : (c.boaPerror env).usesPipes = c.usesPipes := by
  obtain ⟨o, code, he, -, -⟩ := sendRError_refused env c
  unfold boaPerror
  rw [he]
  rfl

lemma closePostData_usesPipes (c : Request) : c.closePostData.usesPipes = c.usesPipes := by
  unfold closePostData
  split_ifs <;> rfl

lemma spawn_leaves (env : Env) (c : Request) : Leaves 0 c (c.spawn env).1 := by
  unfold spawn
  simp only [boaPerror_usesPipes, closePostData_usesPipes]
  cases hpipe : c.usesPipes with
  | false =>
    simp only [Bool.false_and, Bool.false_eq_true, if_false, hpipe]
    split_ifs
    · exact (sendRError_refused env c).handles.leaves
    · exact closePostData_leaves c
  | true =>
    have hopen : Handles 0 {env.pipeFd} c (c.log (.opened env.pipeFd)) := .opened c _
    have hfull : (c.log (.opened env.pipeFd)).usesPipes = true := hpipe
    simp only [Bool.true_and, if_true, beq_iff_eq, hfull]
    split_ifs with hnone
    · exact (Handles.refl c).leaves
    · exact (hopen.trans (.closed _ _)).leaves
    · exact (hopen.trans ((sendRError_refused env _).handles.trans (.closed _ _))).leaves
    · exact hopen.before (startPipe_leaves _ rfl hnone)

lemma initCgi_leaves (env : Env) (c : Request) : Leaves 0 c (c.initCgi env).1 := by
  have h : Handles 0 0 c c.squashKa := .of_eq rfl rfl
  unfold initCgi
  dsimp only
  split_ifs
  · exact h.before (spawn_leaves env _)
  · have h2 := h.trans (completeEnv_handles env.cfg c.squashKa)
    split
    · next c' he =>
      rw [he] at h2
      exact h2.leaves
    · next c' he =>
      rw [he] at h2
      exact h2.before (spawn_leaves env _)

lemma streamHeader_handles (env : Env) (c : Request) (line : String) (tail : List Msg) :
    Handles l l c (c.streamHeader env line tail) := by
  unfold streamHeader
  split_ifs
  · exact .refl c
  · exact (writes_handles _ _).trans (flush_handles _)

/-- A header without a length, and `gunzip` for the body. -/
lemma gunzip_leaves (h : Handles 0 0 c d) (line : String) (tail : List Msg) (gz : Bytes) :
    Leaves 0 c ((((d.streamHeader env line tail).log .gunzip).log (.serve gz)).initCgi env).1 := by
  have hhead := h.trans (streamHeader_handles env d line tail)
  have hchosen := hhead.trans ((Handles.log _ (e := .gunzip) rfl).trans (.log _ (e := .serve gz) rfl))
  exact hchosen.before (initCgi_leaves env _)

end Request

/-! ### Directories -/

/-- A file that `get_dir` returns is open and in nobody's field. -/
def DirResult.Fits (c d : Request) : DirResult → Prop
  | .file f _ => Handles 0 {f.fd} c d
  | _ => Leaves 0 c d

lemma Handles.fits {r : DirResult} (h : Handles 0 0 c d) (h' : r.Fits d e) : r.Fits c e := by
  cases r with
  | file f path => exact h.trans h'
  | failed => exact h.before h'
  | started r => exact h.before h'

namespace Request

lemma useIndexName_handles (env : Env) (c : Request) : Handles l l c (c.useIndexName env) := by
  unfold useIndexName
  split
  · exact .of_eq rfl rfl
  · exact .log c rfl

lemma rebuildCache_fits (env : Env) (c : Request) (dir : File) (name : Bytes) :
    (c.rebuildCache env dir name).2.Fits c (c.rebuildCache env dir name).1 := by
  have h : Handles 0 0 c (c.indexDirectory env).1 := by
    unfold indexDirectory
    split
    · exact (sendRForbidden_refused env c).handles
    · exact (sendRBadRequest_refused env c).handles
    · split_ifs
      · exact (sendRError_refused env c).handles
      · exact (sendRError_refused env c).handles
      · exact .of_eq rfl rfl
  unfold rebuildCache
  split
  · next c' he =>
    rw [he] at h
    exact h.leaves
  · next c' he =>
    rw [he] at h
    split
    · next f _ => exact (h.trans (.opened c' f.fd)).trans (useIndexName_handles env _)
    · exact (h.trans (sendRError_refused env c').handles).leaves

lemma getCachedirFile_fits (env : Env) (c : Request) (cachedir : Bytes) (dir : File) :
    (c.getCachedirFile env cachedir dir).2.Fits c (c.getCachedirFile env cachedir dir).1 := by
  unfold getCachedirFile
  dsimp only
  split
  · exact rebuildCache_fits env c dir _
  · next f _ =>
    split_ifs
    · exact (Handles.opened c f.fd).trans (useIndexName_handles env _)
    · exact (Handles.looked c f.fd).fits (rebuildCache_fits env _ dir _)

lemma makeDir_fits (env : Env) (c : Request) (dir : File) :
    (c.makeDir env dir).2.Fits c (c.makeDir env dir).1 := by
  have h : Handles 0 0 c { c.squashKa with responseStatus := 200 } := .of_eq rfl rfl
  unfold makeDir
  dsimp only
  split_ifs
  · exact (h.trans (streamHeader_handles env _ _ _)).leaves
  · exact (h.trans (streamHeader_handles env _ _ _)).before (initCgi_leaves env _)
  · split
    · exact getCachedirFile_fits env c _ dir
    · exact (sendRForbidden_refused env c).handles.leaves

lemma gunzipIndex_fits (env : Env) (c : Request) (f : File) (index gz : Bytes) :
    (c.gunzipIndex env f index gz).2.Fits c (c.gunzipIndex env f index gz).1 := by
  have h1 : Handles 0 0 c ((c.log (.opened f.fd)).log (.closed f.fd)) := .looked c f.fd
  unfold gunzipIndex
  generalize (c.log (.opened f.fd)).log (.closed f.fd) = d at h1 ⊢
  have h2 : Handles 0 0 d { d.squashKa with responseStatus := 200, pathname := some gz } :=
    .of_eq rfl rfl
  dsimp only
  split_ifs
  · exact ((h1.trans h2).trans (streamHeader_handles env _ _ _)).leaves
  · exact gunzip_leaves (h1.trans h2) _ _ _

lemma getDir_fits (env : Env) (c : Request) (dir : File) :
    (c.getDir env dir).2.Fits c (c.getDir env dir).1 := by
  unfold getDir
  split
  · exact makeDir_fits env c dir
  · dsimp only
    generalize (if env.cfg.gunzip then 3 else 0) = k
    split
    · exact (sendRError_refused env c).handles.leaves
    · split
      · next f _ => exact (Handles.opened c f.fd).trans (.of_eq rfl rfl)
      · exact (sendRForbidden_refused env c).handles.leaves
      · exact (sendRNotFound_refused env c).handles.leaves
      · split_ifs
        · split
          · exact gunzipIndex_fits env c _ _ _
          · exact makeDir_fits env c dir
        · exact makeDir_fits env c dir

/-! ### Files -/

/-- The file is mapped and closed, or it is the request's. -/
lemma attachData_leaves (env : Env) (c : Request) (f : File) : Leaves {f.fd} c (c.attachData env f) := by
  unfold attachData
  split_ifs
  · rintro ⟨hdata, -⟩
    refine ⟨[], (List.append_nil _).symm, ?_⟩
    have hpos : f.fd ≠ 0 := by
      have hgt := f.fd_gt
      omega
    rw [descriptors, descriptors, hdata, fdOf_zero, fdOf_pos hpos, Multiset.zero_add]
    rfl
  · have h : Handles {f.fd} 0 { c with dataMem := some f.data }
        (log { c with dataMem := some f.data } (.closed f.fd)) := .closed _ f.fd
    have h0 : Handles {f.fd} {f.fd} c { c with dataMem := some f.data } := .of_eq rfl rfl
    exact (h0.trans h).leaves

lemma serveRegular_leaves (env : Env) (c : Request) (f : File) :
    Leaves {f.fd} c (c.serveRegular env f).1 := by
  have hclosed : ∀ d : Request, Handles {f.fd} 0 d (d.log (.closed f.fd)) := fun d => .closed d f.fd
  have hsize : Handles {f.fd} {f.fd} c { c with filesize := f.size, lastModified := f.mtime } :=
    .of_eq rfl rfl
  unfold serveRegular
  split_ifs with hm
  · exact ((sendRNotModified_handles env c).trans (hclosed _)).leaves
  · dsimp only
    split_ifs
    · exact ((hsize.trans (sendRNoContent_handles env _)).trans (hclosed _)).leaves
    · exact ((hsize.trans (sendRRequestOk_handles env _)).trans (hclosed _)).leaves
    · have hfix := hsize.trans (rangesFixup_handles env _)
      split
      · next c' he =>
        rw [he] at hfix
        exact (hfix.trans (hclosed c')).leaves
      · next c' he =>
        rw [he] at hfix
        exact hfix.before ((attachData_leaves env c' f).behind (respond_handles env _))
    · exact hsize.before ((attachData_leaves env _ f).behind (respond_handles env _))

lemma serveFile_leaves (env : Env) (c : Request) (f : File) (path : Bytes) :
    Leaves {f.fd} c (c.serveFile env f path).1 := by
  unfold serveFile
  split_ifs
  · exact ((sendRBadRequest_refused env c).handles.trans (.closed _ f.fd)).leaves
  · have h : Handles {f.fd} {f.fd} c (c.log (.serve path)) := .log c rfl
    exact h.before (serveRegular_leaves env _ f)

lemma serveDirectory_leaves (env : Env) (c : Request) (dir : File) :
    Leaves {dir.fd} c (c.serveDirectory env dir).1 := by
  have h : Handles {dir.fd} 0 c (c.log (.closed dir.fd)) := .closed c dir.fd
  unfold serveDirectory
  dsimp only
  split_ifs
  · have hredirect : Handles 0 0 (c.log (.closed dir.fd))
        ((c.log (.closed dir.fd)).redirectDirectory env) := by
      unfold redirectDirectory
      dsimp only
      split_ifs
      · exact (sendRError_refused env _).handles
      · exact (sendRMovedPerm_refused env _ _).handles
    exact (h.trans hredirect).leaves
  · have hdir := getDir_fits env (c.log (.closed dir.fd)) dir
    split
    · next d he =>
      rw [he] at hdir
      exact h.before hdir
    · next d r he =>
      rw [he] at hdir
      exact h.before hdir
    · next d f path he =>
      rw [he] at hdir
      have hfile : Handles 0 {f.fd} (c.log (.closed dir.fd)) d := hdir
      exact (h.trans hfile).before (serveFile_leaves env d f path)

lemma gunzipDocument_leaves (env : Env) (c : Request) :
    ∀ r, c.gunzipDocument env = some r → Leaves 0 c r.1 := by
  intro r hr
  unfold gunzipDocument at hr
  split_ifs at hr
  · cases hr
    exact (sendRBadRequest_refused env c).handles.leaves
  · dsimp only at hr
    split at hr
    · cases hr
    · next f _ =>
      have hgz : Handles 0 0 c { (c.log (.opened f.fd)).log (.closed f.fd) with
          responseStatus := 200, pathname := some (c.path ++ text ".gz") } :=
        (Handles.looked c f.fd).trans (.of_eq rfl rfl)
      split_ifs at hr
      · cases hr
        exact (hgz.trans (streamHeader_handles env _ _ _)).leaves
      · cases hr
        exact gunzip_leaves hgz _ _ _

lemma openFailed_handles (env : Env) (c : Request) (e : Errno) :
    Handles 0 0 c (c.openFailed env e) := by
  unfold openFailed
  cases e with
  | enoent => exact (sendRNotFound_refused env c).handles
  | eacces => exact (sendRForbidden_refused env c).handles
  | other => exact (sendRBadRequest_refused env c).handles

/-- Either a document is open when the access rules are asked, or there is none and the
answer takes no descriptor with it. -/
lemma initGet_cases (env : Env) (c : Request) :
    (∃ name f d, openedName env c.path = .ok (name, f) ∧ d.path = name ∧ Handles 0 {f.fd} c d ∧
      c.initGet env = d.serveOpened env f) ∨
    (∃ e, openedName env c.path = .error e ∧ Leaves 0 c (c.initGet env).1) := by
  unfold initGet
  cases ho : env.fs.openFile c.path with
  | ok f =>
    refine .inl ⟨c.path, f, c.log (.opened f.fd), ?_, rfl, .opened c f.fd, rfl⟩
    simp [openedName, ho]
  | error e =>
    obtain ⟨name, f, hw, hn⟩ | ⟨e', hw, hn⟩ := openRewritten_cases ho
    · refine .inl ⟨name, f, { c.log (.opened f.fd) with pathname := some name }, hn, rfl, ?_, ?_⟩
      · exact (Handles.opened c f.fd).trans (.of_eq rfl rfl)
      · simp only [hw]
    · refine .inr ⟨e', hn, ?_⟩
      simp only [hw]
      split_ifs
      · split
        · next r hr => exact gunzipDocument_leaves env c r hr
        · exact (openFailed_handles env c e).leaves
      · exact (openFailed_handles env c e).leaves

/-- A document that the access rules let pass is closed, or is the request's. -/
lemma serveOpened_leaves (env : Env) (c : Request) (f : File) (h : RulesPass env c.path) :
    Leaves {f.fd} c (c.serveOpened env f).1 := by
  have hpass : ¬ (env.cfg.accessControl ∧ !accessAllow env c.path) := by
    rintro ⟨hac, hdenied⟩
    simp [h hac] at hdenied
  unfold serveOpened
  rw [if_neg hpass]
  split_ifs
  · exact serveDirectory_leaves env c f
  · exact serveFile_leaves env c f c.path

/-- A document that they turn down stays open, and nobody has its descriptor. -/
lemma serveOpened_handles (env : Env) (c : Request) (f : File) (h : ¬ RulesPass env c.path) :
    Handles {f.fd} {f.fd} c (c.serveOpened env f).1 := by
  have hdenied : env.cfg.accessControl ∧ !accessAllow env c.path := by
    simpa [RulesPass] using h
  unfold serveOpened
  rw [if_pos hdenied]
  exact (sendRForbidden_refused env c).handles

lemma closing_handles (c : Request) (fd : ℕ) :
    Handles (fdOf fd) 0 c (if fd ≠ 0 then c.log (.closed fd) else c) := by
  split_ifs with hfd
  · rw [fdOf_pos hfd]
    exact .closed c fd
  · rw [not_not.mp hfd, fdOf_zero]
    exact .refl c

/-- `free_request` closes what the request has. -/
lemma release_handles (env : Env) (c : Request) : Handles c.descriptors 0 c (c.release env) := by
  have hlate : Handles c.descriptors c.descriptors c (if c.status = .timedOut ∧ c.responseStatus = 0
      then { c with responseStatus := 408 } else c) := by
    split_ifs
    · exact .of_eq rfl rfl
    · exact .refl c
  have hlogged (d : Request) : Handles c.descriptors c.descriptors d
      (if d.silent env then d else d.log (.logged d.responseStatus d.bytesWritten)) := by
    split_ifs
    · exact .refl d
    · exact .log d rfl
  unfold release
  dsimp only
  generalize (if c.status = .timedOut ∧ c.responseStatus = 0
    then { c with responseStatus := 408 } else c) = d at hlate ⊢
  have hquiet := hlate.trans (hlogged d)
  generalize (if d.silent env then d else d.log (.logged d.responseStatus d.bytesWritten)) = k
    at hquiet ⊢
  have hdata := (closing_handles k k.dataFd).frame (fdOf k.postDataFd)
  generalize hm : (if k.dataFd ≠ 0 then k.log (.closed k.dataFd) else k) = m at hdata ⊢
  have hpost : m.postDataFd = k.postDataFd := by
    rw [← hm]
    split_ifs <;> rfl
  have hrest := closing_handles m m.postDataFd
  rw [hpost] at hrest ⊢
  rw [Multiset.zero_add] at hdata
  rw [← hquiet.descriptors] at hquiet ⊢
  exact hquiet.trans (hdata.trans hrest)

lemma settled_of_leaves (hc : c.Unanswered) (h : Leaves 0 c d) : c.Settled env d := by
  obtain ⟨es, hd, hes⟩ := h hc
  obtain ⟨es', hr, hes'⟩ := (release_handles env d).moves
  have hend := hes' 0
  rw [Multiset.add_zero] at hend
  rw [Multiset.zero_add] at hes
  unfold Settled
  rw [hr, hd, List.drop_left, List.append_assoc, List.drop_left]
  exact ⟨hes, openAfter_append hes hend⟩

/-- Counted for one descriptor: it was closed as often as it was opened or had, once less if `d`
has it. -/
lemma Settled.closed_once (h : c.Settled env d) (fd : ℕ) :
    c.descriptors.count fd + ((d.trace.drop c.trace.length).filterMap Event.move).count (.take fd) =
      d.descriptors.count fd + ((d.trace.drop c.trace.length).filterMap Event.move).count (.give fd) :=
  replay_count fd h.1

lemma not_settled_of_handles {fd : ℕ} (h : Handles 0 {fd} c d) : ¬ c.Settled env d := by
  rintro ⟨hs, -⟩
  obtain ⟨es, hd, hes⟩ := h.moves
  have hopen := hes c.descriptors
  rw [hd, List.drop_left, h.descriptors] at hs
  rw [Multiset.zero_add, hs] at hopen
  have hcount := congrArg (Multiset.count fd) (Option.some.inj hopen)
  rw [Multiset.count_add, Multiset.count_singleton_self] at hcount
  omega

/-- `init_get` leaves no descriptor behind exactly when the access rules do not turn down a
document that is already open. -/
theorem initGet_settled_iff (env : Env) (c : Request) (hc : c.Unanswered) :
    c.Settled env (c.initGet env).1 ↔
      ∀ name f, openedName env c.path = .ok (name, f) → RulesPass env name := by
  obtain ⟨name, f, d, ho, rfl, hd, he⟩ | ⟨e, ho, hd⟩ := initGet_cases env c
  · rw [he, ho]
    by_cases hp : RulesPass env d.path
    · have hsettled : c.Settled env _ := settled_of_leaves hc (hd.before (serveOpened_leaves env d f hp))
      refine iff_of_true hsettled fun name g h => ?_
      cases h
      exact hp
    · have hleak : ¬ c.Settled env _ := not_settled_of_handles (hd.trans (serveOpened_handles env d f hp))
      exact iff_of_false hleak fun h => hp (h d.path f rfl)
  · rw [ho]
    refine iff_of_true (settled_of_leaves hc hd) fun name f h => ?_
    cases h

theorem initGet_settled_denied :
    (guardedRequest "/d/").Unanswered ∧
    ((guardedRequest "/d/").Settled guardedEnv ((guardedRequest "/d/").initGet guardedEnv).1 ↔
      ∀ name f, openedName guardedEnv (text "/d/") = .ok (name, f) → RulesPass guardedEnv name) :=
  ⟨by decide, initGet_settled_iff guardedEnv (guardedRequest "/d/") (by decide)⟩

/-- The denied `/d/f` is opened, and is still open behind `free_request`. -/
theorem denied_left_open :
    (guardedRequest "/d/f").Unanswered ∧
    ¬ (guardedRequest "/d/f").Settled guardedEnv ((guardedRequest "/d/f").initGet guardedEnv).1 ∧
    openAfter ((((guardedRequest "/d/f").initGet guardedEnv).1.release guardedEnv).trace.drop
      (guardedRequest "/d/f").trace.length) (guardedRequest "/d/f").descriptors = some {tinyFile.fd} := by
  decide +kernel

end Request
end Boa
