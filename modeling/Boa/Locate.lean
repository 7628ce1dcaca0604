import Boa.Effects

/-! From the end of the header to a handler: what `process_header_end` and
`translate_uri` change before a response is under way. -/
namespace Boa
open Memory History

/-- An event of locating a file; an owned field may only be overwritten if `c` held it. -/
def Event.locating (c : Request) : Event → Prop
  | .wild => True
  | .overwrite .pathname => c.pathname ≠ none
  | .overwrite .scriptName => c.scriptName ≠ none
  | _ => False

/-- A path was worked out, with nothing sent. -/
def Located (c c' : Request) : Prop :=
  ∃ es ct pn sn pi pt, c' = { c with
      trace := c.trace ++ es, cgiType := ct, pathname := pn, scriptName := sn, pathInfo := pi,
      pathTranslated := pt } ∧
    ∀ e ∈ es, e.locating c

/-- An owned field that `c` held was overwritten. -/
def Event.overwrites (c : Request) : Event → Prop
  | .overwrite .pathname => c.pathname ≠ none
  | .overwrite .scriptName => c.scriptName ≠ none
  | .overwrite .postDataFd => c.postDataFd ≠ 0
  | _ => False

lemma Event.of_locating {c : Request} {e : Event} (h : e.locating c) : e.answers ∨ e.overwrites c := by
  cases e <;> first | exact .inl trivial | exact h.elim | skip
  next f => cases f <;> first | exact .inr h | exact h.elim

lemma Event.quiet_of_locating {c : Request} {e : Event} (h : e.locating c) : e.quiet := by
  cases e <;> first | exact ⟨fun _ => rfl, rfl⟩ | exact h.elim

namespace Located

lemma bufferStart {c d : Request} (h : Located c d) : d.bufferStart = c.bufferStart := by
  obtain ⟨es, ct, pn, sn, pi, pt, rfl, -⟩ := h
  rfl

lemma refl (c : Request) : Located c c :=
  ⟨[], c.cgiType, c.pathname, c.scriptName, c.pathInfo, c.pathTranslated, by simp, by simp⟩

lemma setCgiType {c c' : Request} (h : Located c c') (t : CgiType) :
    Located c { c' with cgiType := t } := by
  obtain ⟨es, ct, pn, sn, pi, pt, rfl, hes⟩ := h
  exact ⟨es, t, pn, sn, pi, pt, rfl, hes⟩

lemma setPathInfo {c c' : Request} (h : Located c c') (info : Option Bytes) :
    Located c { c' with pathInfo := info } := by
  obtain ⟨es, ct, pn, sn, pi, pt, rfl, hes⟩ := h
  exact ⟨es, ct, pn, sn, info, pt, rfl, hes⟩

lemma setPathTranslated {c c' : Request} (h : Located c c') (path : Option Bytes) :
    Located c { c' with pathTranslated := path } := by
  obtain ⟨es, ct, pn, sn, pi, pt, rfl, hes⟩ := h
  exact ⟨es, ct, pn, sn, pi, path, rfl, hes⟩

lemma setPathname {c c' : Request} (h : Located c c') (hp : c'.pathname = c.pathname)
    (path : Bytes) : Located c (c'.setPathname path) := by
  obtain ⟨es, ct, pn, sn, pi, pt, rfl, hes⟩ := h
  unfold Request.setPathname
  split_ifs with hs
  · refine ⟨es ++ [.overwrite .pathname], ct, some path, sn, pi, pt, by simp [Request.log], ?_⟩
    intro e he
    rcases List.mem_append.mp he with he | he
    · exact hes e he
    · have hpn : pn = c.pathname := hp
      rw [List.mem_singleton.mp he]
      intro hn
      rw [hn] at hpn
      simp [hpn] at hs
  · exact ⟨es, ct, some path, sn, pi, pt, rfl, hes⟩

lemma setScriptName {c c' : Request} (h : Located c c') (hp : c'.scriptName = c.scriptName)
    (name : Bytes) : Located c (c'.setScriptName name) := by
  obtain ⟨es, ct, pn, sn, pi, pt, rfl, hes⟩ := h
  unfold Request.setScriptName
  split_ifs with hs
  · refine ⟨es ++ [.overwrite .scriptName], ct, pn, some name, pi, pt, by simp [Request.log], ?_⟩
    intro e he
    rcases List.mem_append.mp he with he | he
    · exact hes e he
    · have hsn : sn = c.scriptName := hp
      rw [List.mem_singleton.mp he]
      intro hn
      rw [hn] at hsn
      simp [hsn] at hs
  · exact ⟨es, ct, pn, some name, pi, pt, rfl, hes⟩

lemma cutScriptName {c c' : Request} (h : Located c c') (n : ℕ) :
    Located c (c'.cutScriptName n) := by
  obtain ⟨es, ct, pn, sn, pi, pt, rfl, hes⟩ := h
  unfold Request.cutScriptName
  split
  · exact ⟨es, ct, pn, sn, pi, pt, rfl, hes⟩
  · next name _ =>
    split_ifs
    · refine ⟨es ++ [.wild], ct, pn, sn, pi, pt, by simp [Request.log], ?_⟩
      intro e he
      rcases List.mem_append.mp he with he | he
      · exact hes e he
      · rw [List.mem_singleton.mp he]
        trivial
    · exact ⟨es, ct, pn, _, pi, pt, rfl, hes⟩

end Located

/-- How the routines of alias.c end: with a path, or with an error response. -/
def Translated (c : Request) (r : Request × Bool) : Prop :=
  (r.2 = true ∧ Located c r.1) ∨ (r.2 = false ∧ ∃ d, Located c d ∧ Refused d r.1)

namespace Request

lemma cutScriptName_pathname (c : Request) (n : ℕ) : (c.cutScriptName n).pathname = c.pathname := by
  unfold cutScriptName
  split
  · rfl
  · split_ifs <;> rfl

lemma setScriptName_pathname (c : Request) (name : Bytes) :
    (c.setScriptName name).pathname = c.pathname := by
  unfold setScriptName
  split_ifs <;> rfl

lemma setPathname_scriptName (c : Request) (path : Bytes) :
    (c.setPathname path).scriptName = c.scriptName := by
  unfold setPathname
  split_ifs <;> rfl

lemma translateByAlias_spec {cfg : Config} {c c' : Request} {info : Bytes}
    (h : c.translateByAlias cfg info = some c') : ∃ pt, c' = { c with pathTranslated := pt } := by
  unfold translateByAlias at h
  split_ifs at h
  · cases h
    exact ⟨c.pathTranslated, rfl⟩
  · split at h
    · cases h
      exact ⟨c.pathTranslated, rfl⟩
    · split_ifs at h
      cases h
      exact ⟨_, rfl⟩

/-- The re-aliasing of `path_info` sets `path_translated` or answers with an error. -/
lemma translatePathInfo_cases (env : Env) (c : Request) (info : Bytes) :
    (∃ pt, c.translatePathInfo env info = ({ c with pathTranslated := pt }, true)) ∨
    ∃ d pt, c.translatePathInfo env info = (d, false) ∧
      Refused { c with pathTranslated := pt } d := by
  unfold translatePathInfo
  cases ha : c.translateByAlias env.cfg info with
  | none => exact .inr ⟨_, c.pathTranslated, rfl, sendRBadRequest_refused env c⟩
  | some c' =>
    obtain ⟨pt, rfl⟩ := translateByAlias_spec ha
    dsimp only
    split_ifs
    · exact .inl ⟨pt, rfl⟩
    · split
      · split
        · exact .inr ⟨_, pt, rfl, sendRNotFound_refused env _⟩
        · exact .inl ⟨_, rfl⟩
      · split
        · exact .inl ⟨_, rfl⟩
        · exact .inl ⟨_, rfl⟩

lemma scanScript_translated (env : Env) (c : Request) (a : Alias) (mem : Bytes) :
    Translated c (c.scanScript env a mem) := by
  unfold scanScript
  dsimp only
  generalize (if ((text "nph-").isPrefixOf (cstr (List.drop a.realname.val.length mem)) ||
    decide (c.httpVersion = Version.http09)) = true then CgiType.nph else CgiType.cgi) = t
  have h1 : Located c { c with cgiType := t } := (Located.refl c).setCgiType t
  have h2 : Located c (setScriptName { c with cgiType := t } c.requestUri) := h1.setScriptName rfl _
  have h2p : (setScriptName { c with cgiType := t } c.requestUri).pathname = c.pathname :=
    setScriptName_pathname _ _
  split
  · exact .inr ⟨rfl, _, h1, sendRNotFound_refused env _⟩
  · exact .inr ⟨rfl, _, h1, sendRForbidden_refused env _⟩
  · split
    · exact .inr ⟨rfl, _, h2, sendRNotFound_refused env _⟩
    · exact .inr ⟨rfl, _, h2, sendRForbidden_refused env _⟩
    · exact .inr ⟨rfl, _, h2, sendRForbidden_refused env _⟩
    · exact .inl ⟨rfl, h2.setPathname h2p _⟩
  · next i _ =>
    have h3 := (h2.setPathInfo (some (cstr (mem.drop i)))).cutScriptName (cstr (mem.drop i)).length
    have hp : (cutScriptName { setScriptName { c with cgiType := t } c.requestUri with
        pathInfo := some (cstr (mem.drop i)) } (cstr (mem.drop i)).length).pathname = c.pathname :=
      (cutScriptName_pathname _ _).trans h2p
    generalize cutScriptName { setScriptName { c with cgiType := t } c.requestUri with
        pathInfo := some (cstr (mem.drop i)) } (cstr (mem.drop i)).length = d at h3 hp ⊢
    rcases translatePathInfo_cases env d (cstr (mem.drop i)) with ⟨pt, he⟩ | ⟨e, pt, he, hr⟩
    · rw [he]
      exact .inl ⟨rfl, (h3.setPathTranslated pt).setPathname hp _⟩
    · rw [he]
      exact .inr ⟨rfl, _, h3.setPathTranslated pt, hr⟩

lemma initScriptAlias_translated (env : Env) (c : Request) (a : Alias) :
    Translated c (c.initScriptAlias env a) := by
  unfold initScriptAlias
  dsimp only
  split_ifs
  · exact .inr ⟨rfl, c, .refl c, sendRBadRequest_refused env c⟩
  · exact scanScript_translated env c a _

lemma buildPath_translated (env : Env) (c : Request) (size : ℕ) (path : Bytes) :
    Translated c (c.buildPath env size path) := by
  have h1 : Located c (c.setPathname path) := (Located.refl c).setPathname rfl path
  unfold buildPath
  split_ifs
  · exact .inr ⟨rfl, c, .refl c, sendRBadRequest_refused env c⟩
  · unfold finishPath
    dsimp only
    split_ifs
    · exact .inl ⟨rfl, (h1.setScriptName (setPathname_scriptName c path) _).setCgiType _⟩
    · exact .inl ⟨rfl, (h1.setScriptName (setPathname_scriptName c path) _).setCgiType _⟩
    · exact .inr ⟨rfl, _, h1, sendRBadRequest_refused env _⟩
    · exact .inl ⟨rfl, h1⟩

lemma translatePlain_translated (env : Env) (c : Request) : Translated c (c.translatePlain env) := by
  unfold translatePlain
  split
  · unfold userDirPath
    split_ifs
    · exact .inr ⟨rfl, c, .refl c, sendRBadRequest_refused env c⟩
    · split
      · exact .inr ⟨rfl, c, .refl c, sendRNotFound_refused env c⟩
      · exact buildPath_translated env c _ _
  · split
    · exact buildPath_translated env c _ _
    · split
      · exact buildPath_translated env c _ _
      · exact .inr ⟨rfl, c, .refl c, sendRNotFound_refused env c⟩

/-- `translate_uri` works out a path or refuses. -/
lemma translateUri_translated (env : Env) (c : Request) : Translated c (c.translateUri env) := by
  have hbad : Translated c (c.sendRBadRequest env, false) :=
    .inr ⟨rfl, c, .refl c, sendRBadRequest_refused env c⟩
  unfold translateUri
  split
  · exact hbad
  · split
    · exact translatePlain_translated env c
    · next a _ =>
      split_ifs
      · exact initScriptAlias_translated env c a
      · exact hbad
      · exact hbad
      · exact .inr ⟨rfl, c, .refl c, sendRMovedTemp_refused env c _ _⟩
      · exact .inl ⟨rfl, (Located.refl c).setPathname rfl _⟩

/-- The VHostRoot part sets the host, or refuses it. -/
lemma acceptHost_cases (env : Env) (c : Request) :
    ∃ host, c.acceptHost env = ({ c with host := host }, true) ∨
      ∃ d, c.acceptHost env = (d, false) ∧ Refused { c with host := host } d := by
  unfold acceptHost
  dsimp only
  split
  · split
    · exact ⟨_, .inr ⟨_, rfl, sendRBadRequest_refused env _⟩⟩
    · exact ⟨_, .inl rfl⟩
  · exact ⟨c.host, .inl rfl⟩

/-- `process_header_end` accepts a URI by decoding it, or refuses. -/
lemma acceptUri_cases (env : Env) (c : Request) :
    ∃ uri query host,
      (c.acceptUri env = ({ c with requestUri := uri, queryString := query, host := host }, true)) ∨
      ∃ d, c.acceptUri env = (d, false) ∧
        Refused { c with requestUri := uri, queryString := query, host := host } d := by
  unfold acceptUri
  split
  · exact ⟨c.requestUri, c.queryString, c.host, .inr ⟨_, rfl, sendRError_refused env c⟩⟩
  generalize unescapeUri c.requestUri = u
  obtain ⟨uri, query, legal⟩ := u
  dsimp only
  split
  · exact ⟨uri, _, c.host, .inr ⟨_, rfl, sendRBadRequest_refused env _⟩⟩
  split
  · exact ⟨cleanPathname uri, _, c.host, .inr ⟨_, rfl, sendRBadRequest_refused env _⟩⟩
  have haccept := fun uri' : Bytes =>
    acceptHost_cases env { c with requestUri := uri', queryString := query.or c.queryString }
  split
  · obtain ⟨host, h⟩ := haccept (stripCaudium (cleanPathname uri))
    exact ⟨_, _, host, h⟩
  · obtain ⟨host, h⟩ := haccept (cleanPathname uri)
    exact ⟨_, _, host, h⟩

end Request

/-- How `process_header_end` ends, for the request `c` at its start. -/
structure Concluded (S : Prop) (c : Request) (r : Request × Ret) : Prop where
  sound : c.toOut.Sound S → r.1.toOut.Sound S
  adds : Adds (fun e => e.answers ∨ e.overwrites c) c.trace r.1.trace
  fixed : r.1.fixed = c.fixed
  next : r.2 ≠ .done → (6 ≤ r.1.status.rank ∧ r.1.method ≠ .post) ∨
    (r.2 = .more ∧ r.1.method = .post ∧ r.1.status = c.status ∧ r.1.bufferEnd = c.bufferEnd ∧
      r.1.piping = c.piping)
  calm : c.Calm → r.1.Calm
  idle : r.1.keepalive = c.keepalive ∨ r.1.keepalive = .stopped

variable {S : Prop}

lemma Effect.concluded {c c' : Request} (h : Effect S c c') : Concluded S c (c', .done) :=
  ⟨h.sound, h.adds.mono fun _ he => .inl he, h.fixed, fun hn => absurd rfl hn, h.calm, h.idle⟩

lemma Located.concluded {c d : Request} {r : Request × Ret} (h : Located c d)
    (hr : Effect S d r.1) (hn : r.2 ≠ .done → 6 ≤ r.1.status.rank ∧ d.method ≠ .post) :
    Concluded S c r := by
  have hmethod : r.1.method = d.method := (Request.of_kept (Request.of_fixed hr.fixed).1).2.2.2.1
  obtain ⟨es, ct, pn, sn, pi, pt, rfl, hes⟩ := h
  have h1 : Concluded S c ({ c with
      trace := c.trace ++ es, cgiType := ct, pathname := pn, scriptName := sn, pathInfo := pi,
      pathTranslated := pt }, .done) := by
    refine ⟨fun hs => ?_, ⟨es, rfl, fun e he => Event.of_locating (hes e he)⟩, rfl,
      fun hn => absurd rfl hn, id, .inl rfl⟩
    exact Out.logs_sound hs fun e he => Event.quiet_of_locating (hes e he)
  exact ⟨fun hs => hr.sound (h1.sound hs), h1.adds.trans (hr.adds.mono fun _ he => .inl he),
    hr.fixed.trans h1.fixed, fun hd => .inl (hmethod ▸ hn hd), fun hc => hr.calm (h1.calm hc),
    hr.idle⟩

namespace Request

/-- A child that `init_cgi` leaves running is read through a pipe. -/
lemma initCgi_more {env : Env} {c : Request} (h : (c.initCgi env).2 ≠ .done) :
    (c.initCgi env).1.status = .pipeRead := by
  have hspawn : ∀ d : Request, (d.spawn env).2 ≠ .done → (d.spawn env).1.status = .pipeRead := by
    intro d
    unfold spawn
    dsimp only
    split_ifs <;> simp [startPipe]
  revert h
  unfold initCgi
  dsimp only
  split_ifs
  · exact hspawn _
  · split
    · simp
    · exact hspawn _

/-- The POST branch: a temporary file, or an error response. -/
lemma openPostFile_concluded {env : Env} {c d : Request} (h : Located c d) (hm : d.method = .post) :
    Concluded S c (d.openPostFile env) := by
  obtain ⟨es, ct, pn, sn, pi, pt, rfl, hes⟩ := h
  -- the events so far, and the one of `post_data_fd` if that field was held
  let ow : List Event := if c.postDataFd ≠ 0 then [.overwrite .postDataFd] else []
  have how : ∀ e ∈ es ++ ow, e.quiet ∧ (e.answers ∨ e.overwrites c) := by
    intro e he
    rcases List.mem_append.mp he with he | he
    · exact ⟨Event.quiet_of_locating (hes e he), Event.of_locating (hes e he)⟩
    · simp only [ow] at he
      split_ifs at he with hfd
      · rw [List.mem_singleton.mp he]
        exact ⟨⟨fun _ => rfl, rfl⟩, .inr hfd⟩
      · cases he
  let d : Request := { c with
    trace := c.trace ++ (es ++ ow), cgiType := ct, pathname := pn, scriptName := sn, pathInfo := pi,
    pathTranslated := pt, postDataFd := env.tempFd }
  have hd : setPostDataFd { c with
      trace := c.trace ++ es, cgiType := ct, pathname := pn, scriptName := sn, pathInfo := pi,
      pathTranslated := pt } env.tempFd = d := by
    simp only [setPostDataFd, d, ow]
    split_ifs <;> simp [Request.log]
  have h1 : ∀ r : Request × Ret, Effect S d r.1 → (r.2 ≠ .done → r.2 = .more ∧
      r.1.status = c.status ∧ r.1.bufferEnd = c.bufferEnd ∧ r.1.piping = c.piping) →
      Concluded S c r := by
    intro r he hn
    refine ⟨fun hs => he.sound (Out.logs_sound hs fun e hm => (how e hm).1),
      Adds.trans ⟨es ++ ow, rfl, fun e hm => (how e hm).2⟩ (he.adds.mono fun _ h => .inl h),
      he.fixed, fun hr => .inr ⟨(hn hr).1, ?_, (hn hr).2⟩, he.calm, he.idle⟩
    exact (of_kept (of_fixed he.fixed).1).2.2.2.1.trans hm
  unfold openPostFile
  rw [hd]
  dsimp only
  split_ifs
  · exact h1 _ (sendRError_refused env d).effect (by simp)
  · refine h1 _ (((Effect.log d (.opened env.tempFd) rfl).trans (sendRError_refused env _).effect).trans
      ((Effect.log _ (.closed env.tempFd) rfl).trans (.of_out_eq rfl rfl rfl))) (by simp)
  · exact h1 _ (Effect.log d _ rfl) (fun _ => ⟨rfl, rfl, rfl, rfl⟩)

lemma dispatchUri_concluded (env : Env) (c : Request) (h0 : c.bufferStart = 0) :
    Concluded S c (c.dispatchUri env) := by
  unfold dispatchUri
  rcases translateUri_translated env c with ⟨hr, hl⟩ | ⟨hr, d, hl, href⟩
  · generalize c.translateUri env = r at hr hl
    obtain ⟨d, ok⟩ := r
    cases hr
    dsimp only at hl ⊢
    split_ifs with hm hc
    · exact openPostFile_concluded hl hm
    · refine hl.concluded (initCgi_effect env d) fun hn => ⟨?_, hm⟩
      rw [initCgi_more hn]
      decide
    · have hstart : d.bufferStart = 0 := hl.bufferStart.trans h0
      have h1 : Effect S d { d with status := .write } := .setStatus (by decide)
      have h2 := initGet_effect (S := S) env { d with status := .write } hstart
      exact hl.concluded (h1.trans h2) fun _ =>
        ⟨h2.late (show 6 ≤ Status.rank .write by decide), hm⟩
  · generalize c.translateUri env = r at hr href
    obtain ⟨e, ok⟩ := r
    cases hr
    exact hl.concluded (href.effect.trans (.squashKa e)) (by simp)

/-- Everything `process_header_end` can do, behind its mark in the trace. -/
lemma processHeaderEnd_concluded (env : Env) (c : Request) (h0 : c.bufferStart = 0) :
    Concluded S (c.log .headerEnd) (c.processHeaderEnd env) := by
  unfold processHeaderEnd
  obtain ⟨uri, query, host, he | ⟨d, he, hr⟩⟩ := acceptUri_cases env (c.log .headerEnd)
  · rw [he]
    have h1 := dispatchUri_concluded (S := S) env
      { c.log .headerEnd with requestUri := uri, queryString := query, host := host } h0
    exact ⟨h1.sound, h1.adds, h1.fixed, h1.next, h1.calm, h1.idle⟩
  · rw [he]
    have h1 := hr.effect (S := S)
    exact ⟨h1.sound, h1.adds.mono fun _ he => .inl he, h1.fixed, fun hn => absurd rfl hn, h1.calm, h1.idle⟩

end Request
end Boa
