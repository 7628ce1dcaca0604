import Boa.Delivery

/-! Which file `init_get` and `get_dir` choose to answer a request, and what the
access rules have to say about it. -/
namespace Boa
open Memory History

/-- The events that record the choice of a file. -/
def Event.isChoice : Event → Bool
  | .serve _ | .gunzip => true
  | _ => false

/-- The choices made so far. -/
def Request.choices (c : Request) : List Event := c.trace.filter Event.isChoice

lemma Request.choices_log (c : Request) (e : Event) :
    (c.log e).choices = c.choices ++ [e].filter Event.isChoice := List.filter_append ..

@[simp] lemma Request.choices_opened (c : Request) (fd : ℕ) :
    (c.log (.opened fd)).choices = c.choices := (choices_log c _).trans (List.append_nil _)

@[simp] lemma Request.choices_closed (c : Request) (fd : ℕ) :
    (c.log (.closed fd)).choices = c.choices := (choices_log c _).trans (List.append_nil _)

@[simp] lemma Request.choices_wild (c : Request) : (c.log .wild).choices = c.choices :=
  (choices_log c _).trans (List.append_nil _)

@[simp] lemma Request.choices_serve (c : Request) (path : Bytes) :
    (c.log (.serve path)).choices = c.choices ++ [.serve path] := choices_log c _

@[simp] lemma Request.choices_gunzip (c : Request) :
    (c.log .gunzip).choices = c.choices ++ [.gunzip] := choices_log c _

lemma Out.Replies.choices {ka : Bool → Prop} {len : ℕ → Prop} {o o' : Out}
    (h : Out.Replies ka len o o') :
    o'.trace.filter Event.isChoice = o.trace.filter Event.isChoice := by
  apply h.adds.filter_eq
  intro e he
  cases e <;> first | rfl | exact he.elim

lemma Refused.choices {c c' : Request} (h : Refused c c') : c'.choices = c.choices := by
  obtain ⟨o, code, rfl, -, hr⟩ := h
  exact hr.choices

namespace Request

section Silent
variable (env : Env) (c : Request)

@[simp] lemma choices_writes (ms : List Msg) : (c.writes ms).choices = c.choices :=
  have h : Out.Replies (fun _ => True) (fun _ => True) c.toOut (c.toOut.writes ms) :=
    Out.writes_replies c.toOut ms (fun _ _ => trivial) (fun _ _ => trivial)
  h.choices

@[simp] lemma choices_reqFlush : c.reqFlush.choices = c.choices :=
  have h : Out.Replies (fun _ => True) (fun _ => True) c.toOut c.toOut.reqFlush.1 :=
    Out.reqFlush_replies c.toOut
  h.choices

@[simp] lemma choices_sendRForbidden : (c.sendRForbidden env).choices = c.choices :=
  (sendRForbidden_refused env c).choices

@[simp] lemma choices_sendRBadRequest : (c.sendRBadRequest env).choices = c.choices :=
  (sendRBadRequest_refused env c).choices

@[simp] lemma choices_sendRNotFound : (c.sendRNotFound env).choices = c.choices :=
  (sendRNotFound_refused env c).choices

@[simp] lemma choices_sendRError : (c.sendRError env).choices = c.choices :=
  (sendRError_refused env c).choices

@[simp] lemma choices_boaPerror : (c.boaPerror env).choices = c.choices :=
  (sendRError_refused env c).choices

@[simp] lemma choices_openFailed (e : Errno) : (c.openFailed env e).choices = c.choices :=
  (openFailed_refused env c e).choices

@[simp] lemma choices_redirectDirectory : (c.redirectDirectory env).choices = c.choices := by
  unfold redirectDirectory
  dsimp only
  split_ifs
  · exact (sendRError_refused env c).choices
  · exact (sendRMovedPerm_refused env c _).choices

@[simp] lemma choices_completeResponse : (c.completeResponse env).1.choices = c.choices := by
  unfold completeResponse
  split
  · simp
  · next rest _ =>
    dsimp only
    split_ifs
    · cases rest with
      | nil => exact (choices_reqFlush _).trans (choices_writes _ _)
      | cons r rest => exact choices_writes _ _
    · rfl

@[simp] lemma choices_sendRRequestOk : (c.sendRRequestOk env).choices = c.choices := by
  unfold sendRRequestOk
  dsimp only
  split_ifs
  · rfl
  all_goals exact choices_writes _ _

@[simp] lemma choices_sendRNoContent : (c.sendRNoContent env).choices = c.choices := by
  unfold sendRNoContent
  dsimp only
  split_ifs
  · rfl
  all_goals exact choices_writes _ _

@[simp] lemma choices_sendRPartialContent (r : Range) :
    (c.sendRPartialContent env r).choices = c.choices := choices_writes _ _

@[simp] lemma choices_rangesFixup : (c.rangesFixup env).1.choices = c.choices := by
  unfold rangesFixup
  dsimp only
  split_ifs
  · exact (sendRInvalidRange_refused env _).choices
  · rfl

@[simp] lemma choices_addCgiEnvs (kvs : List (Bytes × Bytes)) :
    (c.addCgiEnvs kvs).1.choices = c.choices := by
  induction kvs generalizing c with
  | nil => rfl
  | cons kv kvs ih =>
    have h : (c.addCgiEnv kv.1 kv.2 false).1.choices = c.choices := by
      unfold addCgiEnv
      split_ifs <;> rfl
    unfold addCgiEnvs
    split
    · next c' he => rw [ih, ← h, he]
    · next c' he => rw [← h, he]

@[simp] lemma choices_completeEnv (cfg : Config) : (c.completeEnv cfg).1.choices = c.choices := by
  have h := choices_addCgiEnvs { c with cgiEnv := store c.cgiEnv 0 (cfg.commonCgiEnv.map some) }
    (serverVariables cfg { c with cgiEnv := store c.cgiEnv 0 (cfg.commonCgiEnv.map some) })
  unfold completeEnv
  dsimp only
  split
  · next c' he => rw [he] at h; exact h
  · next c' he =>
    rw [he] at h
    split_ifs
    · exact h
    · exact h

@[simp] lemma choices_closePostData : c.closePostData.choices = c.choices := by
  unfold closePostData
  split_ifs
  · exact (choices_log _ _).trans (List.append_nil _)
  · rfl

@[simp] lemma choices_spawn : (c.spawn env).1.choices = c.choices := by
  have hlog : (if c.usesPipes then c.log (.opened env.pipeFd) else c).choices = c.choices := by
    split_ifs
    · exact (choices_log _ _).trans (List.append_nil _)
    · rfl
  unfold spawn
  generalize (if c.usesPipes then c.log (.opened env.pipeFd) else c) = d at hlog ⊢
  rw [← hlog]
  dsimp only
  split_ifs
  · exact hlog.symm
  all_goals simp
  exact choices_closePostData d

@[simp] lemma choices_initCgi : (c.initCgi env).1.choices = c.choices := by
  have h := choices_completeEnv c.squashKa env.cfg
  unfold initCgi
  dsimp only
  split_ifs
  · exact choices_spawn env c.squashKa
  · split
    · next c' he => rw [he] at h; exact h
    · next c' he =>
      rw [he] at h
      rw [choices_spawn]
      exact h

@[simp] lemma choices_streamHeader (line : String) (tail : List Msg) :
    (c.streamHeader env line tail).choices = c.choices := by
  unfold streamHeader
  split_ifs <;> simp

@[simp] lemma method_streamHeader (line : String) (tail : List Msg) :
    (c.streamHeader env line tail).method = c.method := by
  unfold streamHeader
  split_ifs <;> rfl

@[simp] lemma choices_withdraw : c.withdraw.choices = c.choices :=
  (choices_log c _).trans (List.append_nil _)

@[simp] lemma choices_bufferData (bs : Bytes) : (c.bufferData bs).choices = c.choices :=
  (choices_log c (.data bs)).trans (List.append_nil _)

@[simp] lemma choices_firstChunk : (c.firstChunk env).1.choices = c.choices := by
  unfold firstChunk
  split
  · next mem r rest _ _ =>
    have hd (bs : Bytes) (n : ℕ) : ((c.bufferData bs).moveRange r rest n).choices = c.choices :=
      choices_bufferData c bs
    dsimp only
    split_ifs
    · simp
    · simp [hd]
    · exact hd _ _
    · rfl
  · rfl

@[simp] lemma choices_attachData (f : File) : (c.attachData env f).choices = c.choices := by
  unfold attachData
  split_ifs
  · rfl
  · exact (choices_log _ _).trans (List.append_nil _)

@[simp] lemma choices_startTransfer : (c.startTransfer env).1.choices = c.choices := by
  unfold startTransfer
  split_ifs <;> simp

@[simp] lemma choices_respond : (c.respond env).1.choices = c.choices := by
  have h : (rangesFixup env { c with ranges := [⟨0, ulongMax⟩] }).1.choices = c.choices :=
    choices_rangesFixup env _
  unfold respond
  split
  · simp
  · split
    · next c' he => rw [he] at h; exact h
    · next c' he =>
      rw [he] at h
      simpa using h

@[simp] lemma choices_serveRegular (f : File) : (c.serveRegular env f).1.choices = c.choices := by
  have h : (rangesFixup env { c with filesize := f.size, lastModified := f.mtime }).1.choices =
      c.choices := choices_rangesFixup env _
  unfold serveRegular
  split_ifs
  · simp [(sendRNotModified_refused env c).choices]
  · dsimp only
    split_ifs
    · rw [choices_closed]
      exact choices_sendRNoContent env _
    · rw [choices_closed]
      exact choices_sendRRequestOk env _
    · split
      · next c' he =>
        rw [he] at h
        simpa using h
      · next c' he =>
        rw [he] at h
        simpa using h
    · rw [choices_respond, choices_attachData]
      rfl

/-- A file that was opened answers if it is a regular one. -/
lemma choices_serveFile (f : File) (path : Bytes) : (c.serveFile env f path).1.choices =
    c.choices ++ if f.kind = .reg then [.serve path] else [] := by
  unfold serveFile
  by_cases hk : f.kind = .reg
  · simp [hk]
  · simp [hk]

end Silent

end Request

/-! ### Names past the check -/

/-- A file opened under `name` answers if it is a regular one. -/
def regularName (f : File) (name : Bytes) : Option Bytes := if f.kind = .reg then some name else none

/-- What `init_get` has open, and under which name, before the access rules are asked. -/
def openedName (env : Env) (path : Bytes) : Except Errno (Bytes × File) :=
  match env.fs.openFile path with
  | .ok f => .ok (path, f)
  | .error e =>
    match langRewrite path with
    | some name =>
      if env.cfg.useLangRewrite ∧ e = .enoent then (env.fs.openFile name).map (name, ·) else .error e
    | none => .error e

/-- A directory cache file that is written anew, if it answers. -/
def rebuiltChoice (env : Env) (name : Bytes) : Option Bytes :=
  if env.chdirErr.isNone ∧ env.opendirOk ∧ env.fopenOk then
    match env.reopen with
    | .ok f => regularName f name
    | .error _ => none
  else none

/-- The cache file of a directory, if it answers. -/
def cacheChoice (env : Env) (cachedir : Bytes) (dir : File) : Option Bytes :=
  let name := cacheName cachedir dir
  match env.fs.openFile name with
  | .ok f => if dir.mtime < f.mtime then regularName f name else rebuiltChoice env name
  | .error _ => rebuiltChoice env name

/-- The file that answers for a directory without an index file. -/
def makeChoice (env : Env) (dir : File) : Option Bytes :=
  match env.cfg.dirmaker, env.cfg.cachedir with
  | none, some cachedir => cacheChoice env cachedir dir
  | _, _ => none

/-- The file that answers for the directory `path`. -/
def dirChoice (env : Env) (path : Bytes) (dir : File) : Option Bytes :=
  match env.cfg.directoryIndex with
  | none => makeChoice env dir
  | some index =>
    let name := path ++ index.val
    if maxPathLength < name.length + (if env.cfg.gunzip then 3 else 0) + 1 then none
    else
      match env.fs.openFile name with
      | .ok f => regularName f name
      | .error .enoent =>
        if env.cfg.gunzip ∧ (env.fs.openFile (name ++ text ".gz")).toOption.isSome
        then some (name ++ text ".gz") else makeChoice env dir
      | .error _ => none

/-- The access rules, if the build has them, let `name` pass. -/
def RulesPass (env : Env) (name : Bytes) : Prop := env.cfg.accessControl → accessAllow env name

instance (env : Env) (name : Bytes) : Decidable (RulesPass env name) :=
  inferInstanceAs (Decidable (_ → _))

/-- The compressed form of a missing document, if it answers. -/
def gunzipChoice (env : Env) (path : Bytes) : Option Bytes :=
  if env.cfg.gunzip ∧ path.length + 4 ≤ maxPathLength ∧
      (env.fs.openFile (path ++ text ".gz")).toOption.isSome
  then some (path ++ text ".gz") else none

/-- The file that answers a request for `path` without being asked about: an index
file, its compressed form, a directory cache file, or the compressed form of a
document that does not exist. -/
def fallbackChoice (env : Env) (path : Bytes) : Option Bytes :=
  match openedName env path with
  | .ok (name, f) =>
    if RulesPass env name ∧ f.kind = .dir ∧ name.getLast? = some slash then dirChoice env name f
    else none
  | .error .enoent => gunzipChoice env path
  | .error _ => none

/-- The file with the requested name, if it answers. -/
def namedChoice (env : Env) (path : Bytes) : Option Bytes :=
  match openedName env path with
  | .ok (name, f) => if RulesPass env name ∧ f.kind ≠ .dir then regularName f name else none
  | .error _ => none

namespace Request

section Choice
variable {env : Env} {c : Request} {p : Bytes}

/-- `init_get` after `get_dir`. -/
def finishDir (env : Env) : Request × DirResult → Request × Ret
  | (c, .failed) => (c, .done)
  | (c, .started r) => (c, r)
  | (c, .file f path) => c.serveFile env f path

lemma serve_mem_serveFile (f : File) (path : Bytes) :
    .serve p ∈ (c.serveFile env f path).1.choices ↔
      .serve p ∈ c.choices ∨ regularName f path = some p := by
  rw [choices_serveFile, regularName]
  by_cases hk : f.kind = .reg
  · simp [hk, eq_comm]
  · simp [hk]

@[simp] lemma choices_useIndexName : (c.useIndexName env).choices = c.choices := by
  unfold useIndexName
  split
  · rfl
  · simp

/-- Writing the page of a directory sends nothing unless it fails. -/
lemma indexDirectory_spec (env : Env) (c : Request) : (c.indexDirectory env).1.choices = c.choices ∧
    ((c.indexDirectory env).2 = true ↔ env.chdirErr.isNone ∧ env.opendirOk ∧ env.fopenOk) := by
  unfold indexDirectory
  split
  · simp_all
  · simp_all
  · split_ifs
    · simp_all
    · simp_all
    · refine ⟨rfl, ?_⟩
      simp_all

lemma serve_mem_rebuildCache (dir : File) (name : Bytes) :
    .serve p ∈ (finishDir env (c.rebuildCache env dir name)).1.choices ↔
      .serve p ∈ c.choices ∨ rebuiltChoice env name = some p := by
  obtain ⟨hc, hiff⟩ := indexDirectory_spec env c
  unfold rebuildCache rebuiltChoice
  rw [← hc]
  generalize hi : c.indexDirectory env = d at hiff ⊢
  obtain ⟨d, ok⟩ := d
  cases ok with
  | false =>
    rw [if_neg fun hok => Bool.noConfusion (hiff.mpr hok)]
    simp [finishDir]
  | true =>
    rw [if_pos (hiff.mp rfl)]
    cases env.reopen with
    | ok f => simp [finishDir, serve_mem_serveFile, regularName]
    | error e => simp [finishDir]

lemma serve_mem_getCachedirFile (cachedir : Bytes) (dir : File) :
    .serve p ∈ (finishDir env (c.getCachedirFile env cachedir dir)).1.choices ↔
      .serve p ∈ c.choices ∨ cacheChoice env cachedir dir = some p := by
  unfold getCachedirFile cacheChoice
  dsimp only
  cases env.fs.openFile (cacheName cachedir dir) with
  | error e => exact serve_mem_rebuildCache dir _
  | ok f =>
    dsimp only
    split_ifs
    · simp [finishDir, serve_mem_serveFile, regularName]
    · simp [serve_mem_rebuildCache]

lemma serve_mem_makeDir (dir : File) :
    .serve p ∈ (finishDir env (c.makeDir env dir)).1.choices ↔
      .serve p ∈ c.choices ∨ makeChoice env dir = some p := by
  unfold makeDir makeChoice
  cases env.cfg.dirmaker with
  | some maker =>
    have h : ({ c.squashKa with responseStatus := 200 } : Request).choices = c.choices := rfl
    simp only [Option.isSome_some, if_true]
    split_ifs <;> simp [finishDir, h]
  | none =>
    cases env.cfg.cachedir with
    | some cachedir => exact serve_mem_getCachedirFile cachedir dir
    | none => simp [finishDir]

lemma serve_mem_gunzipIndex (hm : c.method ≠ .head) (f : File) (index gz : Bytes) :
    .serve p ∈ (finishDir env (c.gunzipIndex env f index gz)).1.choices ↔
      .serve p ∈ c.choices ∨ gz = p := by
  have h : ({ ((c.log (.opened f.fd)).log (.closed f.fd)).squashKa with
      responseStatus := 200, pathname := some gz } : Request).choices = c.choices :=
    (choices_closed _ _).trans (choices_opened _ _)
  unfold gunzipIndex
  dsimp only
  rw [if_neg]
  · simp [finishDir, h, eq_comm]
  · rw [method_streamHeader]
    exact hm

lemma serve_mem_getDir (hm : c.method ≠ .head) (dir : File) :
    .serve p ∈ (finishDir env (c.getDir env dir)).1.choices ↔
      .serve p ∈ c.choices ∨ dirChoice env c.path dir = some p := by
  unfold getDir dirChoice
  cases env.cfg.directoryIndex with
  | none => exact serve_mem_makeDir dir
  | some index =>
    dsimp only
    generalize (if env.cfg.gunzip then 3 else 0) = k
    split
    · simp [finishDir]
    · cases env.fs.openFile (c.path ++ index.val) with
      | ok f =>
        have h : ({ c.log (.opened f.fd) with requestUri := index } : Request).choices = c.choices :=
          choices_opened _ _
        simp [finishDir, serve_mem_serveFile, h]
      | error e =>
        cases e with
        | eacces => simp [finishDir]
        | other => simp [finishDir]
        | enoent =>
          by_cases hg : env.cfg.gunzip
          · cases env.fs.openFile (c.path ++ index.val ++ text ".gz") with
            | ok f => simp [hg, serve_mem_gunzipIndex hm, Except.toOption]
            | error e => simp [hg, serve_mem_makeDir, Except.toOption]
          · simp [hg, serve_mem_makeDir]

lemma serve_mem_serveDirectory (hm : c.method ≠ .head) (dir : File) :
    .serve p ∈ (c.serveDirectory env dir).1.choices ↔ .serve p ∈ c.choices ∨
      (c.path.getLast? = some slash ∧ dirChoice env c.path dir = some p) := by
  have hmd : (c.log (.closed dir.fd)).method ≠ .head := hm
  have hd : .serve p ∈ (finishDir env ((c.log (.closed dir.fd)).getDir env dir)).1.choices ↔ _ :=
    serve_mem_getDir hmd dir
  rw [choices_closed] at hd
  have hpath : (c.log (.closed dir.fd)).path = c.path := rfl
  unfold serveDirectory
  dsimp only
  rw [hpath] at hd ⊢
  by_cases hs : c.path.getLast? = some slash
  · simp only [hs, ne_eq, not_true_eq_false, if_false, true_and]
    exact hd
  · simp [hs]

lemma serve_mem_serveOpened (hm : c.method ≠ .head) (f : File) :
    .serve p ∈ (c.serveOpened env f).1.choices ↔ .serve p ∈ c.choices ∨
      (RulesPass env c.path ∧ if f.kind = .dir
        then c.path.getLast? = some slash ∧ dirChoice env c.path f = some p
        else regularName f c.path = some p) := by
  have hrule : (env.cfg.accessControl ∧ !accessAllow env c.path) ↔ ¬ RulesPass env c.path := by
    simp [RulesPass]
  unfold serveOpened
  simp only [hrule]
  by_cases ha : RulesPass env c.path
  · by_cases hk : f.kind = .dir
    · simp [ha, hk, serve_mem_serveDirectory hm]
    · simp [ha, hk, serve_mem_serveFile]
  · simp [ha]

lemma openRewritten_cases {e : Errno} (h : env.fs.openFile c.path = .error e) :
    (∃ name f, c.openRewritten env e = ({ c.log (.opened f.fd) with pathname := some name }, .ok f) ∧
      openedName env c.path = .ok (name, f)) ∨
    (∃ e', c.openRewritten env e = (c, .error e') ∧ openedName env c.path = .error e') := by
  unfold openRewritten openedName
  rw [h]
  by_cases hl : env.cfg.useLangRewrite ∧ e = .enoent
  · cases langRewrite c.path with
    | none => exact .inr ⟨e, by simp [hl], rfl⟩
    | some name =>
      cases hn : env.fs.openFile name with
      | ok f => exact .inl ⟨name, f, by simp [hl, hn], by simp [hl, hn, Except.map]⟩
      | error e' => exact .inr ⟨e', by simp [hl, hn], by simp [hl, hn, Except.map]⟩
  · cases langRewrite c.path with
    | none => exact .inr ⟨e, by simp [hl], rfl⟩
    | some name => exact .inr ⟨e, by simp [hl], by simp [hl]⟩

/-- Nothing could be opened, and the last error was `e'`. -/
lemma serve_mem_notOpened (hm : c.method ≠ .head) (e e' : Errno) :
    .serve p ∈ (if env.cfg.gunzip ∧ e' = .enoent then
        match c.gunzipDocument env with
        | some r => r
        | none => (c.openFailed env e, .done)
      else (c.openFailed env e, .done)).1.choices ↔ .serve p ∈ c.choices ∨
        (e' = .enoent ∧ gunzipChoice env c.path = some p) := by
  by_cases hg : env.cfg.gunzip ∧ e' = .enoent
  · rw [if_pos hg]
    unfold gunzipDocument gunzipChoice
    by_cases hl : maxPathLength < c.path.length + 4
    · simp [hl, Nat.not_le_of_lt hl]
    · cases hf : env.fs.openFile (c.path ++ text ".gz") with
      | error e'' => simp [hl, hf, Except.toOption]
      | ok f =>
        have h : ({ (c.log (.opened f.fd)).log (.closed f.fd) with
            responseStatus := 200, pathname := some (c.path ++ text ".gz") } : Request).choices =
            c.choices := (choices_closed _ _).trans (choices_opened _ _)
        have hmd : ({ (c.log (.opened f.fd)).log (.closed f.fd) with
            responseStatus := 200, pathname := some (c.path ++ text ".gz") } : Request).method ≠
            .head := hm
        simp [hl, hf, hg, Except.toOption, hmd, h, eq_comm, Nat.le_of_not_lt hl]
  · rw [if_neg hg]
    have hno : e' = .enoent → gunzipChoice env c.path = none := by
      intro he
      simp [gunzipChoice, show ¬ env.cfg.gunzip = true from fun h => hg ⟨h, he⟩]
    by_cases he : e' = .enoent
    · simp [he, hno he]
    · simp [he]

/-- The file that `init_get` chooses to answer, if any. -/
lemma serve_mem_initGet (env : Env) (c : Request) (hm : c.method ≠ .head) :
    .serve p ∈ (c.initGet env).1.choices ↔ .serve p ∈ c.choices ∨
      namedChoice env c.path = some p ∨ fallbackChoice env c.path = some p := by
  have key (d : Request) (name : Bytes) (f : File) (hd : d.path = name) (hdm : d.method = c.method)
      (hdc : d.choices = c.choices) (ho : openedName env c.path = .ok (name, f)) :
      .serve p ∈ (d.serveOpened env f).1.choices ↔ .serve p ∈ c.choices ∨
        namedChoice env c.path = some p ∨ fallbackChoice env c.path = some p := by
    rw [serve_mem_serveOpened (hdm ▸ hm), hdc, hd]
    simp only [namedChoice, fallbackChoice, ho]
    by_cases hr : RulesPass env name
    · by_cases hk : f.kind = .dir
      · by_cases hs : name.getLast? = some slash
        · simp [hr, hk, hs]
        · simp [hr, hk, hs]
      · simp [hr, hk]
    · simp [hr]
  have missing (d : Request) (e e' : Errno) (hd : d.path = c.path) (hdm : d.method = c.method)
      (hdc : d.choices = c.choices) (ho : openedName env c.path = .error e') :
      .serve p ∈ (if env.cfg.gunzip ∧ e' = .enoent then
          match d.gunzipDocument env with
          | some r => r
          | none => (d.openFailed env e, .done)
        else (d.openFailed env e, .done)).1.choices ↔ .serve p ∈ c.choices ∨
          namedChoice env c.path = some p ∨ fallbackChoice env c.path = some p := by
    rw [serve_mem_notOpened (hdm ▸ hm), hdc, hd]
    simp only [namedChoice, fallbackChoice, ho]
    cases e' <;> simp
  unfold initGet
  cases ho : env.fs.openFile c.path with
  | ok f => exact key _ c.path f rfl rfl (choices_opened _ _) (by simp [openedName, ho])
  | error e =>
    obtain ⟨name, f, hw, hn⟩ | ⟨e', hw, hn⟩ := openRewritten_cases ho
    · simp only [hw]
      exact key _ name f rfl rfl (choices_opened _ _) hn
    · simp only [hw]
      exact missing c e e' rfl rfl rfl hn

end Choice

end Request

lemma mem_choices {c : Request} {p : Bytes} : .serve p ∈ c.choices ↔ .serve p ∈ c.trace := by
  simp [Request.choices, Event.isChoice]

def guardedFiles : FileSys where
  openFile := fun p =>
    if p = text "/d/" then .ok { tinyFile with kind := .dir } else tinyFiles.openFile p
  stat := tinyFiles.stat
  access := tinyFiles.access

/-- The one rule denies `/d/f`, the index file of `/d/`. -/
def guardedEnv : Env where
  cfg := { tinyConfig with
    accessControl := true
    directoryIndex := some (confText "f" (by decide +kernel))
    accessRules := [(confText "/d/f" (by decide +kernel), false)] }
  fs := guardedFiles
  fnmatch := fun pattern name => pattern == name
  gmtime := tinyEnv.gmtime

def guardedRequest (path : String) : Request :=
  { method := .get, httpVersion := .http10, pathname := some (text path) }

end Boa
