import Boa.Handles
import Boa.Reload

/-! The redirect of a directory that is named without its final slash, over any number of
reloads: the length of the scheme is computed once and kept. -/
namespace Boa
open Memory

/-- The URL `init_get` passes to `send_r_moved_perm`, unless its local buffer is too small. -/
def Request.movedUrl (env : Env) (c : Request) : Option Bytes :=
  if 3 * maxPathLength + 128 < (c.directoryUrl env).length then none else some (cstr (c.directoryUrl env))

/-- The URL of the directory with its final slash. -/
def Request.slashUrl (env : Env) (c : Request) : Bytes :=
  (if env.cfg.hstsHeader.isSome then text "https" else text "http") ++ text "://" ++
    c.host.getD env.cfg.serverName ++
    (if env.cfg.serverPort ≠ 80 ∧ env.cfg.noRedirectPort = false then
      colon :: simpleItoa env.cfg.serverPort else []) ++
    c.requestUri ++ [slash]

def Server.secure (s : Server) : Bool := (s.settings.string .hstsHeader).isSome

/-- What the redirects of a server depend on: the settings and the static `l4`. -/
structure Redirector where
  server : Server
  l4 : ℕ

/-- What happens to a server in its life, as far as `l4` and the settings are concerned: a SIGHUP with
some file, or `init_get` for a directory named without its final slash. -/
inductive Visit
  | sighup (F : List Directive)
  | directory

/-- The text in front of the host. -/
def schemeText (secure : Bool) : Bytes := if secure then text "https://" else text "http://"

namespace Redirector

/-- `none` when the server exits. -/
def step (b : Boot) (r : Redirector) : Visit → Option Redirector
  | .sighup F => (sighupRun b F r.server).map fun s => { r with server := s }
  | .directory => some { r with l4 := if r.l4 = 0 then (schemeText r.server.secure).length else r.l4 }

/-- A server that was started with the file `F`. -/
def run (b : Boot) (F : List Directive) (vs : List Visit) : Option Redirector :=
  (startUp b F).bind fun s => vs.foldlM (step b) ⟨s, 0⟩

/-- A request is answered with the settings and the `l4` of this moment. -/
structure Serves (r : Redirector) (env : Env) : Prop where
  hsts : env.cfg.hstsHeader.map ConfText.val = r.server.settings.string .hstsHeader
  port : env.cfg.serverPort = (r.server.settings.int .serverPort % 2 ^ 32).toNat
  noPort : env.cfg.noRedirectPort = true ↔ r.server.settings.int .noRedirectPort ≠ 0
  name : some env.cfg.serverName.val = r.server.settings.string .serverName
  l4 : env.staticL4 = r.l4

lemma serves_iff (r : Redirector) (env : Env) : r.Serves env ↔
    env.cfg.hstsHeader.map ConfText.val = r.server.settings.string .hstsHeader ∧
      env.cfg.serverPort = (r.server.settings.int .serverPort % 2 ^ 32).toNat ∧
      (env.cfg.noRedirectPort = true ↔ r.server.settings.int .noRedirectPort ≠ 0) ∧
      some env.cfg.serverName.val = r.server.settings.string .serverName ∧ env.staticL4 = r.l4 :=
  ⟨fun ⟨h1, h2, h3, h4, h5⟩ => ⟨h1, h2, h3, h4, h5⟩, fun ⟨h1, h2, h3, h4, h5⟩ => ⟨h1, h2, h3, h4, h5⟩⟩

instance (r : Redirector) (env : Env) : Decidable (r.Serves env) := decidable_of_iff' _ (serves_iff r env)

/-- A directory was redirected while `hsts_header` was not set. -/
def RedirectedPlain (b : Boot) (F : List Directive) (vs : List Visit) : Prop :=
  ∃ before after r, vs = before ++ .directory :: after ∧ run b F before = some r ∧ r.server.secure = false

end Redirector

/-! ### One redirect -/

section Url

variable {env : Env} {c : Request}

lemma redirectDirectory_eq (env : Env) (c : Request) : c.redirectDirectory env =
    match c.movedUrl env with
    | none => c.boaPerror env
    | some url => c.sendRMovedPerm env url := by
  unfold Request.redirectDirectory Request.movedUrl
  dsimp only
  split_ifs <;> rfl

/-- The URL behind the scheme. -/
def Request.urlRest (env : Env) (c : Request) : Bytes :=
  c.host.getD env.cfg.serverName ++
    ((if env.cfg.serverPort ≠ 80 ∧ env.cfg.noRedirectPort = false then
      colon :: simpleItoa env.cfg.serverPort else []) ++
    (c.requestUri ++ [slash]))

lemma slashUrl_eq (env : Env) (c : Request) :
    c.slashUrl env = schemeText env.cfg.hstsHeader.isSome ++ c.urlRest env := by
  have hsecure : text "https" ++ text "://" = text "https://" := by decide +kernel
  have hplain : text "http" ++ text "://" = text "http://" := by decide +kernel
  unfold Request.slashUrl Request.urlRest schemeText
  split_ifs <;> simp only [hsecure, hplain, List.append_assoc]

lemma directoryUrl_eq (env : Env) (c : Request) : c.directoryUrl env =
    (schemeText env.cfg.hstsHeader.isSome ++ [0]).take
      (if env.staticL4 = 0 then (schemeText env.cfg.hstsHeader.isSome).length else env.staticL4) ++
      c.urlRest env := by
  have hport : (env.cfg.serverPort ≠ 80 ∧ (!env.cfg.noRedirectPort) = true) ↔
      env.cfg.serverPort ≠ 80 ∧ env.cfg.noRedirectPort = false := by rw [Bool.not_eq_true']
  unfold Request.directoryUrl Request.urlRest schemeText
  simp only [hport, List.append_assoc]

lemma urlRest_ne (env : Env) (c : Request) : c.urlRest env ≠ [] := by simp [Request.urlRest]

lemma urlRest_nul (hhost : 0 ∉ c.host.getD []) (huri : 0 ∉ c.requestUri) : 0 ∉ c.urlRest env := by
  have hdigits := (simpleItoa_digits env.cfg.serverPort).1
  have hname : 0 ∉ c.host.getD env.cfg.serverName := by
    cases hh : c.host with
    | none => exact env.cfg.serverName.noNul
    | some host => rwa [hh] at hhost
  have hport : 0 ∉ (if env.cfg.serverPort ≠ 80 ∧ env.cfg.noRedirectPort = false then
      colon :: simpleItoa env.cfg.serverPort else []) := by
    split_ifs
    · simp only [List.mem_cons, not_or]
      exact ⟨by decide, fun h => absurd (hdigits 0 h) (by decide)⟩
    · exact List.not_mem_nil
  unfold Request.urlRest
  simp only [List.mem_append, List.mem_singleton, not_or]
  exact ⟨hname, hport, huri, by decide⟩

/-- With the length of the other scheme a slash is missing, or the terminator of the scheme is copied. -/
lemma cstr_otherScheme {kept secure : Bool} {rest : Bytes} (hne : rest ≠ []) (hrest : 0 ∉ rest)
    (h : kept ≠ secure) :
    cstr ((schemeText secure ++ [0]).take (schemeText kept).length ++ rest) ≠ schemeText secure ++ rest := by
  intro heq
  have hlen := congrArg List.length heq
  cases secure with
  | true =>
    obtain rfl : kept = false := Bool.eq_false_iff.mpr h
    have hcut : (schemeText true ++ [0]).take (schemeText false).length = text "https:/" := by decide +kernel
    have hnul : 0 ∉ text "https:/" := by decide +kernel
    have hshort : (text "https:/").length < (schemeText true).length := by decide +kernel
    rw [hcut, cstr_of_not_mem fun hm => (List.mem_append.mp hm).elim hnul hrest] at hlen
    simp only [List.length_append] at hlen
    omega
  | false =>
    obtain rfl : kept = true := Bool.ne_false_iff.mp h
    have hall : (schemeText false ++ [0]).take (schemeText true).length = schemeText false ++ [0] := by
      decide +kernel
    have hnul : 0 ∉ schemeText false := by decide +kernel
    rw [hall, List.append_assoc, List.singleton_append, cstr_append_nul hnul] at hlen
    simp only [List.length_append] at hlen
    exact hne (List.length_eq_zero_iff.mp (by omega))

/-- The length that is kept is not set yet, or is that of the scheme, or the URL is wrong. -/
lemma cstr_directoryUrl (hhost : 0 ∉ c.host.getD []) (huri : 0 ∉ c.requestUri)
    (hl4 : env.staticL4 = 0 ∨ ∃ secure, env.staticL4 = (schemeText secure).length) :
    cstr (c.directoryUrl env) = c.slashUrl env ↔
      env.staticL4 = 0 ∨ env.staticL4 = (schemeText env.cfg.hstsHeader.isSome).length := by
  have hrest : 0 ∉ c.urlRest env := urlRest_nul hhost huri
  have hscheme : ∀ secure, 0 ∉ schemeText secure := by decide +kernel
  have hpos : ∀ secure, (schemeText secure).length ≠ 0 := by decide +kernel
  have hright : cstr (schemeText env.cfg.hstsHeader.isSome ++ c.urlRest env) = c.slashUrl env := by
    rw [slashUrl_eq]
    apply cstr_of_not_mem
    simp only [List.mem_append, not_or]
    exact ⟨hscheme _, hrest⟩
  have htake : ∀ s : Bytes, (s ++ [0]).take s.length = s := fun s => List.take_left
  rw [directoryUrl_eq]
  rcases hl4 with hl4 | ⟨kept, hl4⟩
  · rw [if_pos hl4, htake]
    exact iff_of_true hright (.inl hl4)
  · rw [if_neg (hl4 ▸ hpos kept), hl4]
    by_cases hsame : kept = env.cfg.hstsHeader.isSome
    · rw [hsame, htake]
      exact iff_of_true hright (.inr rfl)
    · refine iff_of_false ?_ ?_
      · rw [slashUrl_eq]
        exact cstr_otherScheme (urlRest_ne env c) hrest hsame
      · rintro (h | h)
        · exact hpos kept h
        · have hinj : ∀ a b, (schemeText a).length = (schemeText b).length → a = b := by decide +kernel
          exact hsame (hinj _ _ h)

end Url

/-! ### Reloads -/

section Settings

variable {b : Boot} {root : Bool} {s t : Server}

lemma Directive.apply_settings {d : Directive} (h : d.apply b root s = some t) :
    t.settings = d.assign s.settings := by
  cases d with
  | setInt v x => cases x <;> cases h <;> rfl
  | setUser known =>
    simp only [apply] at h
    split at h <;> cases h
    rfl
  | addMimeTypesFile f buf =>
    cases f <;> simp only [apply, reduceCtorEq, Option.map_eq_some_iff] at h
    obtain ⟨m, -, rfl⟩ := h
    rfl
  | addMimeType type extension =>
    cases extension <;> simp only [apply, reduceCtorEq, Option.map_eq_some_iff] at h
    obtain ⟨m, -, rfl⟩ := h
    rfl
  | addAlias fakename realname type =>
    cases realname <;> simp only [apply, reduceCtorEq, Option.map_eq_some_iff] at h
    obtain ⟨m, -, rfl⟩ := h
    rfl
  | addAccess pattern allow =>
    cases h
    split <;> rfl
  | addCgiEnv key value =>
    simp only [apply, Option.map_eq_some_iff] at h
    obtain ⟨m, -, rfl⟩ := h
    rfl
  | unknown => cases h
  | _ =>
    cases h
    rfl

/-- No directive takes the header back. -/
lemma Directive.apply_secure {d : Directive} (h : d.apply b root s = some t) (hs : s.secure = true) :
    t.secure = true := by
  unfold Server.secure at hs ⊢
  rw [d.apply_settings h, Directive.assign_string, Option.isSome_or, hs, Bool.or_true]

lemma foldlM_apply_secure {F : List Directive} (h : F.foldlM (Directive.apply b root) s = some t)
    (hs : s.secure = true) : t.secure = true := by
  induction F generalizing s with
  | nil =>
    cases h
    exact hs
  | cons d F ih =>
    rw [List.foldlM_cons] at h
    obtain ⟨u, hu, h⟩ := Option.bind_eq_some_iff.mp h
    exact ih h (d.apply_secure hu hs)

lemma Settings.check_hsts {x y : Settings} (h : x.check b = some y) :
    y.string .hstsHeader = x.string .hstsHeader := by
  unfold check at h
  dsimp only at h
  split at h
  · cases h
  · split_ifs at h
    cases h
    have hkept : (x.override b).string .hstsHeader = x.string .hstsHeader := override_string (by decide)
    simpa [fixup, setString] using hkept

/-- So a server that sends the header goes on to send it. -/
lemma sighupRun_secure {F : List Directive} (h : sighupRun b F s = some t) (hs : s.secure = true) :
    t.secure = true := by
  unfold sighupRun readConfigFiles at h
  split at h
  · cases h
  · rename_i u hu
    obtain ⟨x, hx, rfl⟩ := Option.map_eq_some_iff.mp h
    have hsecure : u.secure = true := by
      apply foldlM_apply_secure hu
      unfold Server.accessInit
      split_ifs <;> exact hs
    unfold Server.secure at hsecure ⊢
    rw [Settings.check_hsts hx]
    exact hsecure

end Settings

namespace Redirector

variable {b : Boot} {F : List Directive} {vs : List Visit} {r r' : Redirector}

/-- What `l4` says about the redirects so far. -/
structure Kept (b : Boot) (F : List Directive) (vs : List Visit) (r : Redirector) : Prop where
  plain : r.l4 = (schemeText false).length ↔ RedirectedPlain b F vs
  secure : r.l4 = (schemeText true).length → r.server.secure = true
  known : r.l4 = 0 ∨ ∃ secure, r.l4 = (schemeText secure).length

lemma run_snoc (v : Visit) : run b F (vs ++ [v]) = (run b F vs).bind fun r => r.step b v := by
  unfold run
  cases startUp b F with
  | none => rfl
  | some s => simp [List.foldlM_append]

lemma redirectedPlain_snoc (hrun : run b F vs = some r) (v : Visit) :
    RedirectedPlain b F (vs ++ [v]) ↔ RedirectedPlain b F vs ∨ v = .directory ∧ r.server.secure = false := by
  constructor
  · rintro ⟨before, after, q, heq, hq, hplain⟩
    rcases List.eq_nil_or_concat after with rfl | ⟨after, x, rfl⟩
    · obtain ⟨rfl, hv⟩ := List.append_inj' heq rfl
      cases hrun.symm.trans hq
      exact .inr ⟨(List.cons.inj hv).1, hplain⟩
    · rw [List.concat_eq_append, ← List.cons_append, ← List.append_assoc] at heq
      exact .inl ⟨before, after, q, (List.append_inj' heq rfl).1, hq, hplain⟩
  · rintro (⟨before, after, q, rfl, hq, hplain⟩ | ⟨rfl, hplain⟩)
    · exact ⟨before, after ++ [v], q, by rw [← List.cons_append, ← List.append_assoc], hq, hplain⟩
    · exact ⟨vs, [], r, rfl, hrun, hplain⟩

lemma Kept.sighup (h : r.Kept b F vs) (hrun : run b F vs = some r) {F' : List Directive} {s : Server}
    (hs : sighupRun b F' r.server = some s) : ({ r with server := s } : Redirector).Kept b F (vs ++ [.sighup F']) where
  plain := by
    rw [redirectedPlain_snoc hrun, ← h.plain]
    simp
  secure hl4 := sighupRun_secure hs (h.secure hl4)
  known := h.known

lemma Kept.directory (h : r.Kept b F vs) (hrun : run b F vs = some r) :
    ({ r with l4 := if r.l4 = 0 then (schemeText r.server.secure).length else r.l4 } : Redirector).Kept b F
      (vs ++ [.directory]) := by
  have hpos : ∀ secure, (schemeText secure).length ≠ 0 := by decide +kernel
  have hinj : ∀ a b, (schemeText a).length = (schemeText b).length ↔ a = b := by decide +kernel
  have hsnoc := redirectedPlain_snoc hrun .directory
  rcases h.known with h0 | ⟨kept, hkept⟩
  · -- the first redirect
    have hno : ¬ RedirectedPlain b F vs := fun hp => hpos false ((h.plain.mpr hp).symm.trans h0)
    refine ⟨?_, ?_, .inr ⟨r.server.secure, if_pos h0⟩⟩
    · simp only [if_pos h0, hsnoc, hno, hinj, false_or, true_and]
    · simp only [if_pos h0, hinj]
      exact id
  · have hne : r.l4 ≠ 0 := hkept ▸ hpos kept
    refine ⟨?_, ?_, .inr ⟨kept, by rw [if_neg hne, hkept]⟩⟩
    · simp only [if_neg hne, hsnoc, ← h.plain, true_and]
      refine (or_iff_left_of_imp fun hplain => ?_).symm
      cases kept with
      | false => exact hkept
      | true => exact absurd (h.secure hkept) (by rw [hplain]; exact Bool.false_ne_true)
    · simp only [if_neg hne]
      exact h.secure

lemma kept_run (hrun : run b F vs = some r) : r.Kept b F vs := by
  induction vs using List.reverseRecOn generalizing r with
  | nil =>
    obtain ⟨s, -, hr⟩ := Option.bind_eq_some_iff.mp hrun
    cases hr
    have hpos : ∀ secure, (0 : ℕ) ≠ (schemeText secure).length := by decide +kernel
    refine ⟨iff_of_false (hpos false) ?_, fun h => absurd h (hpos true), .inl rfl⟩
    rintro ⟨before, after, q, heq, -⟩
    exact absurd heq.symm (List.append_ne_nil_of_right_ne_nil before (List.cons_ne_nil _ _))
  | append_singleton vs v ih =>
    rw [run_snoc] at hrun
    obtain ⟨q, hq, hstep⟩ := Option.bind_eq_some_iff.mp hrun
    cases v with
    | sighup F' =>
      obtain ⟨s, hs, rfl⟩ := Option.map_eq_some_iff.mp hstep
      exact (ih hq).sighup hq hs
    | directory =>
      cases hstep
      exact (ih hq).directory hq

/-- The URL of a directory redirect is right, exactly unless `hsts_header` is set and some directory was
redirected when it was not. -/
theorem movedUrl_right_iff (hrun : run b F vs = some r) {env : Env} (hserves : r.Serves env) {c : Request}
    (hhost : 0 ∉ c.host.getD []) (huri : 0 ∉ c.requestUri) {url : Bytes} (hurl : c.movedUrl env = some url) :
    url = c.slashUrl env ↔ (env.cfg.hstsHeader.isSome = true → ¬ RedirectedPlain b F vs) := by
  have hkept := kept_run hrun
  have hinj : ∀ a b, (schemeText a).length = (schemeText b).length ↔ a = b := by decide +kernel
  have hsecure : r.server.secure = env.cfg.hstsHeader.isSome := by
    unfold Server.secure
    rw [← hserves.hsts, Option.isSome_map]
  have hpass : url = cstr (c.directoryUrl env) := by
    unfold Request.movedUrl at hurl
    split_ifs at hurl
    exact (Option.some.inj hurl).symm
  rw [hpass, cstr_directoryUrl hhost huri (hserves.l4 ▸ hkept.known), hserves.l4, ← hkept.plain, ← hsecure]
  have hpos : ∀ secure, (schemeText secure).length ≠ 0 := by decide +kernel
  rcases hkept.known with h0 | ⟨kept, hl4⟩
  · refine iff_of_true (.inl h0) fun _ h => ?_
    exact hpos false (h.symm.trans h0)
  · have hset : kept = true → r.server.secure = true := fun h => hkept.secure (h ▸ hl4)
    simp only [hl4, hpos kept, hinj, false_or]
    cases kept <;> cases hs : r.server.secure <;> simp_all

/-- A server without EnableHSTS. -/
def namedServer : List Directive :=
  [.setString .serverName (text "s"), .setString .defaultType (text "text/plain"),
    .setInt .serverPort (some 80)]

/-- It is told to send the header by a SIGHUP, when a directory has been redirected before. -/
def hstsLater : List Visit := [.directory, .sighup [.setString .hstsHeader (text "max-age=1")]]

/-- What a request finds then, and what it found before. -/
def hstsEnv : Env :=
  { tinyEnv with
    cfg := { tinyConfig with hstsHeader := some (confText "max-age=1" (by decide +kernel)) }
    staticL4 := 7 }

def plainEnv : Env := { tinyEnv with staticL4 := 7 }

def directoryRequest : Request := { requestUri := text "/d" }

theorem movedUrl_right_iff_plain : ∃ r, run plainBoot namedServer [.directory] = some r ∧
    (text "http://s/d/" = directoryRequest.slashUrl plainEnv ↔
      (plainEnv.cfg.hstsHeader.isSome = true → ¬ RedirectedPlain plainBoot namedServer [.directory])) := by
  have hrun : (run plainBoot namedServer [.directory]).any (fun r => decide (r.Serves plainEnv)) = true := by
    decide +kernel
  obtain ⟨r, hr, hserves⟩ := (Option.any_eq_true _ _).mp hrun
  exact ⟨r, hr, movedUrl_right_iff hr (of_decide_eq_true hserves) (by decide +kernel) (by decide +kernel)
    (by decide +kernel)⟩

/-- After the reload a slash of the scheme is missing. -/
theorem stale_scheme : ∃ r, run plainBoot namedServer hstsLater = some r ∧ r.Serves hstsEnv ∧
    directoryRequest.slashUrl hstsEnv = text "https://s/d/" ∧
    directoryRequest.movedUrl hstsEnv = some (text "https:/s/d/") ∧
    directoryRequest.movedUrl hstsEnv ≠ some (directoryRequest.slashUrl hstsEnv) := by
  have hrun : (run plainBoot namedServer hstsLater).any (fun r => decide (r.Serves hstsEnv)) = true := by
    decide +kernel
  obtain ⟨r, hr, hserves⟩ := (Option.any_eq_true _ _).mp hrun
  exact ⟨r, hr, of_decide_eq_true hserves, by decide +kernel, by decide +kernel, by decide +kernel⟩

end Redirector

end Boa
