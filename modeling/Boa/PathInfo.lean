import Boa.PathBuffer

/-! `path_translated`: init_script_alias translates the extra path of a script a second time,
by rules of its own. -/
namespace Boa
open Memory

/-- A rule puts `real` in the place of `fake` at the front of a path. -/
structure Rule where
  fake : Bytes
  real : Bytes

namespace Rule

variable {r s : Rule} {uri : Bytes}

def apply (r : Rule) (uri : Bytes) : Bytes := r.real ++ uri.drop r.fake.length

/-- `s` says the same as `r` of the paths it is for. -/
def Extends (r s : Rule) : Prop := ∃ t, s.fake = r.fake ++ t ∧ s.real = r.real ++ t

lemma apply_eq_iff_extends (h : r.fake <+: s.fake) (hs : s.fake <+: uri) :
    r.apply uri = s.apply uri ↔ r.Extends s := by
  obtain ⟨t, ht⟩ := h
  obtain ⟨u, rfl⟩ := hs
  have hrest : (s.fake ++ u).drop r.fake.length = t ++ u := by
    rw [← ht, List.append_assoc, List.drop_left]
  unfold apply
  rw [hrest, List.drop_left, ← List.append_assoc, List.append_cancel_right_eq]
  constructor
  · intro he
    exact ⟨t, ht.symm, he.symm⟩
  · rintro ⟨t', hfake, hreal⟩
    rw [← ht] at hfake
    rw [List.append_cancel_left hfake, hreal]

lemma Extends.flip (he : s.Extends r) (h : r.fake <+: s.fake) : r.Extends s := by
  obtain ⟨t, hfake, hreal⟩ := he
  have hle := h.length_le
  rw [hfake, List.length_append] at hle
  have ht : t = [] := List.length_eq_zero_iff.mp (by omega)
  rw [ht, List.append_nil] at hfake hreal
  exact ⟨[], by rw [hfake, List.append_nil], by rw [hreal, List.append_nil]⟩

/-- Two rules that are for the same path agree on it iff one of them extends the other. -/
lemma apply_eq_iff (hr : r.fake <+: uri) (hs : s.fake <+: uri) :
    r.apply uri = s.apply uri ↔ r.Extends s ∨ s.Extends r := by
  obtain hle | hle := List.prefix_or_prefix_of_prefix hr hs
  · rw [apply_eq_iff_extends hle hs]
    exact ⟨.inl, fun h => h.elim id fun he => he.flip hle⟩
  · rw [eq_comm, apply_eq_iff_extends hle hr]
    exact ⟨.inr, fun h => h.elim (fun he => he.flip hle) id⟩

end Rule

def Alias.rule (a : Alias) : Rule := ⟨a.fakename, a.realname⟩

/-- The first alias of the path's chain whose fake name it begins with. -/
def prefixAlias (cfg : Config) (info : Bytes) : Option Alias :=
  (cfg.aliasBucket info).find? (fun a => a.fakename.val.isPrefixOf info)

/-- The rule for the home directory of a `~name`. -/
def homeRule (env : Env) (userDir name : Bytes) : Option Rule :=
  (env.getHomeDir (name.takeWhile (· ≠ slash))).map fun home =>
    ⟨slash :: 126 :: name.takeWhile (· ≠ slash), home ++ [slash] ++ userDir⟩

/-- The rule by which `init_script_alias` translates `path_info`. -/
def infoRule (env : Env) (info : Bytes) : Option Rule :=
  match prefixAlias env.cfg info with
  | some a => if pathBufferSize < (a.expand info).length + 1 then none else some a.rule
  | none =>
    match env.cfg.userDir, info.drop 1 with
    | some userDir, 126 :: name => homeRule env userDir name
    | _, _ => env.cfg.documentRoot.map fun root => ⟨[], root.val⟩

/-- The rule by which `translate_uri` translates a URI that an Alias, UserDir or DocumentRoot
is for. -/
def uriRule (env : Env) (ip uri : Bytes) : Option Rule :=
  if uri.head? ≠ some slash then none
  else
    match findAlias env.cfg uri with
    | some a =>
      if a.type = .alias ∧ (a.expand uri).length + 1 ≤ pathBufferSize then some a.rule else none
    | none =>
      match env.cfg.userDir, uri.drop 1 with
      | some userDir, 126 :: name =>
        if name = [] then none
        else (homeRule env userDir name).filter fun r => (r.apply uri).length + 1 ≤ pathBufferSize
      | _, _ =>
        match env.cfg.vhostRoot, env.cfg.documentRoot with
        | none, some root =>
          let l3 := if env.cfg.virtualhost then ip.length else 0
          if root.val.length + 1 + uri.length + l3 + 1 ≤ pathBufferSize then
            some ⟨[], if env.cfg.virtualhost then root ++ [slash] ++ ip else root⟩
          else none
        | _, _ => none

/-- The branch of UserDir. -/
def UserDirUri (cfg : Config) (uri : Bytes) : Prop := cfg.userDir ≠ none ∧ (uri.drop 1).head? = some 126

/-- `translate_uri` gives `path` to the URI of `u` through an Alias, UserDir or DocumentRoot. -/
def Resolves (env : Env) (u : Request) (path : Bytes) : Prop :=
  (u.translateUri env).1.pathname = some path ∧
    match findAlias env.cfg u.requestUri with
    | some a => a.type = .alias
    | none => UserDirUri env.cfg u.requestUri ∨ env.cfg.vhostRoot = none

/-- A request of the same connection for `info`. -/
def Request.askFor (c : Request) (info : Bytes) : Request :=
  { c with requestUri := info, pathname := none }

/-- `path_translated` is what `translate_uri` gives for the extra path. -/
def TranslatedRight (env : Env) (c : Request) (a : Alias) (info : Bytes) : Prop :=
  ∀ path path', (c.initScriptAlias env a).1.pathTranslated = some path →
    Resolves env (c.askFor info) path' → path = path'

/-- Where the second translation goes like the first: the alias it takes ends at a component
border, or is at one with the rule of `translate_uri`; without an alias there is no VirtualHost. -/
def TranslatedAlike (env : Env) (ip info : Bytes) : Prop :=
  ∀ s, uriRule env ip info = some s → (infoRule env info).isSome →
    match prefixAlias env.cfg info with
    | some a => a.matchesUri info ∨ a.rule.Extends s ∨ s.Extends a.rule
    | none => UserDirUri env.cfg info ∨ env.cfg.virtualhost = false

section Rules

variable {env : Env} {c u : Request} {a : Alias} {info : Bytes}

lemma homeRule_none {userDir name : Bytes} (hh : env.getHomeDir (name.takeWhile (· ≠ slash)) = none) :
    homeRule env userDir name = none := by
  unfold homeRule
  rw [hh]
  rfl

lemma homeRule_some (userDir : Bytes) {name home : Bytes} (hhead : info.head? = some slash)
    (hd : info.drop 1 = 126 :: name) (hh : env.getHomeDir (name.takeWhile (· ≠ slash)) = some home) :
    ∃ r, homeRule env userDir name = some r ∧ r.fake <+: info ∧
      r.apply info = home ++ [slash] ++ userDir ++ name.dropWhile (· ≠ slash) := by
  obtain ⟨rest, rfl⟩ := List.head?_eq_some_iff.mp hhead
  rw [List.drop_one, List.tail_cons] at hd
  subst hd
  have hname := List.takeWhile_append_dropWhile (p := fun x => decide (x ≠ slash)) (l := name)
  refine ⟨⟨slash :: 126 :: name.takeWhile (· ≠ slash), home ++ [slash] ++ userDir⟩, ?_, ?_, ?_⟩
  · unfold homeRule
    rw [hh]
    rfl
  · exact ⟨name.dropWhile (· ≠ slash), by rw [List.cons_append, List.cons_append, hname]⟩
  · have hdrop : (name.takeWhile (· ≠ slash) ++ name.dropWhile (· ≠ slash)).drop
        (name.takeWhile (· ≠ slash)).length = name.dropWhile (· ≠ slash) := List.drop_left
    rw [hname] at hdrop
    unfold Rule.apply
    rw [List.length_cons, List.length_cons, List.drop_succ_cons, List.drop_succ_cons, hdrop]

lemma translateByAlias_eq (hc : c.pathTranslated = none) : c.translateByAlias env.cfg info =
    match prefixAlias env.cfg info with
    | none => some c
    | some a =>
      if pathBufferSize < (a.expand info).length + 1 then none
      else some { c with pathTranslated := some (a.expand info) } := by
  unfold Request.translateByAlias
  rw [hc]
  rfl

lemma refused_pathTranslated {d : Request} (h : Refused c d) : d.pathTranslated = c.pathTranslated := by
  obtain ⟨o, code, rfl, -⟩ := h
  rfl

/-- What the extra path is translated to. -/
lemma translatePathInfo_rule (hc : c.pathTranslated = none) (hhead : info.head? = some slash) :
    (c.translatePathInfo env info).1.pathTranslated = (infoRule env info).map (·.apply info) := by
  unfold Request.translatePathInfo infoRule
  rw [translateByAlias_eq hc]
  cases ha : prefixAlias env.cfg info with
  | some a =>
    dsimp only
    by_cases hbig : pathBufferSize < (a.expand info).length + 1
    · rw [if_pos hbig, if_pos hbig]
      exact (refused_pathTranslated (Request.sendRBadRequest_refused env c)).trans hc
    · rw [if_neg hbig, if_neg hbig]
      rfl
  | none =>
    have hnone : c.pathTranslated.isSome = false := by rw [hc]; rfl
    dsimp only
    rw [hnone, if_neg Bool.false_ne_true]
    apply Request.userDir_rel (r := fun (r : Request × Bool) (o : Option Rule) =>
      r.1.pathTranslated = o.map (·.apply info))
    · intro userDir name hu hd
      cases hh : env.getHomeDir (name.takeWhile (· ≠ slash)) with
      | none =>
        rw [homeRule_none hh]
        exact (refused_pathTranslated (Request.sendRNotFound_refused env c)).trans hc
      | some home =>
        obtain ⟨r, hrule, -, happly⟩ := homeRule_some userDir.val hhead hd hh
        rw [hrule]
        exact congrArg some happly.symm
    · intro _
      cases hr : env.cfg.documentRoot with
      | none => exact hc
      | some root => rfl

lemma refused_pathname {d : Request} (h : Refused c d) : d.pathname = c.pathname := by
  obtain ⟨o, code, rfl, -⟩ := h
  rfl

lemma setPathname_pathname (path : Bytes) : (u.setPathname path).pathname = some path := rfl

lemma buildPath_pathname (hu : u.pathname = none) (size : ℕ) (path : Bytes) :
    (u.buildPath env size path).1.pathname = if size ≤ pathBufferSize then some path else none := by
  unfold Request.buildPath
  by_cases hsize : size ≤ pathBufferSize
  · rw [if_neg (Nat.not_lt_of_le hsize), if_pos hsize]
    unfold Request.finishPath
    dsimp only
    split_ifs
    · exact Request.setScriptName_pathname (u.setPathname path) (u.setPathname path).requestUri
    · exact Request.setScriptName_pathname (u.setPathname path) (u.setPathname path).requestUri
    · exact refused_pathname (Request.sendRBadRequest_refused env _)
    · rfl
  · rw [if_pos (Nat.lt_of_not_le hsize), if_neg hsize]
    exact (refused_pathname (Request.sendRBadRequest_refused env u)).trans hu

lemma userDirUri_iff {cfg : Config} {uri : Bytes} :
    UserDirUri cfg uri ↔ ∃ userDir name, cfg.userDir = some userDir ∧ uri.drop 1 = 126 :: name := by
  unfold UserDirUri
  constructor
  · rintro ⟨hu, hd⟩
    obtain ⟨userDir, hu⟩ := Option.ne_none_iff_exists'.mp hu
    obtain ⟨name, hd⟩ := List.head?_eq_some_iff.mp hd
    exact ⟨userDir, name, hu, hd⟩
  · rintro ⟨userDir, name, hu, hd⟩
    rw [hu, hd]
    exact ⟨nofun, rfl⟩

/-- Without an alias. -/
lemma translatePlain_rule (hu : u.pathname = none) (hhead : u.requestUri.head? = some slash)
    (hnone : findAlias env.cfg u.requestUri = none) (path : Bytes) :
    (u.translatePlain env).1.pathname = some path ∧
        (UserDirUri env.cfg u.requestUri ∨ env.cfg.vhostRoot = none) ↔
      ∃ r, uriRule env u.localIpAddr u.requestUri = some r ∧ r.apply u.requestUri = path := by
  unfold Request.translatePlain uriRule
  rw [if_neg (not_not.mpr hhead), hnone]
  dsimp only
  apply Request.userDir_rel (r := fun (p : Request × Bool) (o : Option Rule) =>
    p.1.pathname = some path ∧ (UserDirUri env.cfg u.requestUri ∨ env.cfg.vhostRoot = none) ↔
      ∃ r, o = some r ∧ r.apply u.requestUri = path)
  · intro userDir name hud hd
    have hdir : UserDirUri env.cfg u.requestUri := userDirUri_iff.mpr ⟨userDir, name, hud, hd⟩
    unfold Request.userDirPath
    split_ifs with hname
    · have hbad := refused_pathname (Request.sendRBadRequest_refused env u)
      simp [hbad, hu]
    · cases hh : env.getHomeDir (name.takeWhile (· ≠ slash)) with
      | none =>
        have hbad := refused_pathname (Request.sendRNotFound_refused env u)
        rw [homeRule_none hh]
        simp [hbad, hu]
      | some home =>
        obtain ⟨r, hrule, -, happly⟩ := homeRule_some userDir.val hhead hd hh
        have hlen : (r.apply u.requestUri).length + 1 = home.length + 1 + userDir.val.length +
            (name.dropWhile (· ≠ slash)).length + 1 := by
          rw [happly]
          simp only [List.length_append, List.length_singleton]
        dsimp only
        rw [hrule, buildPath_pathname hu, and_iff_left (.inl hdir), ← hlen, ← happly]
        by_cases hfit : (r.apply u.requestUri).length + 1 ≤ pathBufferSize
        · simp [Option.filter, hfit]
        · simp [Option.filter, hfit]
  · intro hother
    have hdir : ¬ UserDirUri env.cfg u.requestUri := by
      rintro h
      obtain ⟨userDir, name, hud, hd⟩ := userDirUri_iff.mp h
      exact hother _ _ hud hd
    cases hv : env.cfg.vhostRoot with
    | some root => simp [hdir]
    | none =>
      cases hr : env.cfg.documentRoot with
      | none =>
        have hbad := refused_pathname (Request.sendRNotFound_refused env u)
        simp [hbad, hu]
      | some root =>
        have happly : (Rule.mk [] (if env.cfg.virtualhost then root.val ++ [slash] ++ u.localIpAddr
            else root.val)).apply u.requestUri = Request.documentPath env.cfg u root := by
          unfold Rule.apply Request.documentPath
          split_ifs <;> rfl
        dsimp only
        rw [buildPath_pathname hu, and_iff_left (.inr rfl)]
        by_cases hfit : root.val.length + 1 + u.requestUri.length +
            (if env.cfg.virtualhost then u.localIpAddr.length else 0) + 1 ≤ pathBufferSize
        · rw [if_pos hfit, if_pos hfit, ← happly]
          simp
        · rw [if_neg hfit, if_neg hfit]
          simp

lemma resolves_iff (hu : u.pathname = none) (path : Bytes) : Resolves env u path ↔
    ∃ r, uriRule env u.localIpAddr u.requestUri = some r ∧ r.apply u.requestUri = path := by
  unfold Resolves Request.translateUri
  by_cases hhead : u.requestUri.head? = some slash
  · rw [if_neg (not_not.mpr hhead)]
    cases ha : findAlias env.cfg u.requestUri with
    | none => exact translatePlain_rule hu hhead ha path
    | some a =>
      have hrule : uriRule env u.localIpAddr u.requestUri =
          if a.type = .alias ∧ (a.expand u.requestUri).length + 1 ≤ pathBufferSize then some a.rule
          else none := by
        unfold uriRule
        rw [if_neg (not_not.mpr hhead), ha]
      rw [hrule]
      dsimp only
      by_cases ht : a.type = .alias
      · have hscript : a.type ≠ .scriptalias := by rw [ht]; decide
        have hredirect : a.type ≠ .redirect := by rw [ht]; decide
        rw [if_neg hscript]
        by_cases hfit : (a.expand u.requestUri).length + 1 ≤ pathBufferSize
        · rw [if_neg (Nat.not_lt_of_le hfit), if_neg hredirect, if_pos ⟨ht, hfit⟩, and_iff_left ht]
          constructor
          · intro he
            exact ⟨a.rule, rfl, Option.some.inj he⟩
          · rintro ⟨r, hr, rfl⟩
            cases hr
            rfl
        · have hbad := refused_pathname (Request.sendRBadRequest_refused env u)
          rw [if_pos (Nat.lt_of_not_le hfit), if_neg fun h => hfit h.2]
          simp [hbad, hu]
      · rw [if_neg (fun h => ht h.1 : ¬ (a.type = .alias ∧ _))]
        simp [ht]
  · have hbad := refused_pathname (Request.sendRBadRequest_refused env u)
    unfold uriRule
    rw [if_pos hhead, if_pos hhead]
    simp [hbad, hu]

lemma infoRule_fake {r : Rule} (hhead : info.head? = some slash) (h : infoRule env info = some r) :
    r.fake <+: info := by
  unfold infoRule at h
  cases ha : prefixAlias env.cfg info with
  | some a =>
    rw [ha] at h
    dsimp only at h
    split_ifs at h
    cases h
    exact Request.prefix_of_find? ha
  | none =>
    rw [ha] at h
    dsimp only at h
    split at h
    · next userDir name hu hd =>
      cases hh : env.getHomeDir (name.takeWhile (· ≠ slash)) with
      | none =>
        rw [homeRule_none hh] at h
        cases h
      | some home =>
        obtain ⟨s, hs, hpre, -⟩ := homeRule_some userDir.val hhead hd hh
        rw [hs] at h
        cases h
        exact hpre
    · obtain ⟨root, -, rfl⟩ := Option.map_eq_some_iff.mp h
      exact List.nil_prefix

lemma uriRule_fake {ip uri : Bytes} {r : Rule} (h : uriRule env ip uri = some r) : r.fake <+: uri := by
  unfold uriRule at h
  by_cases hhead : uri.head? = some slash
  · rw [if_neg (not_not.mpr hhead)] at h
    cases ha : findAlias env.cfg uri with
    | some a =>
      rw [ha] at h
      dsimp only at h
      split_ifs at h
      cases h
      exact Request.prefix_of_findAlias ha
    | none =>
      rw [ha] at h
      dsimp only at h
      split at h
      · next userDir name hu hd =>
        split_ifs at h
        obtain ⟨h, -⟩ := Option.filter_eq_some_iff.mp h
        cases hh : env.getHomeDir (name.takeWhile (· ≠ slash)) with
        | none =>
          rw [homeRule_none hh] at h
          cases h
        | some home =>
          obtain ⟨s, hs, hpre, -⟩ := homeRule_some userDir.val hhead hd hh
          rw [hs] at h
          cases h
          exact hpre
      · split at h
        · split_ifs at h
          all_goals
            cases h
            exact List.nil_prefix
        · cases h
  · rw [if_pos hhead] at h
    cases h

/-! ### The two translations -/

lemma scanComponents_slash {fs : FileSys} {mem s : Bytes} {i j : ℕ} (hs : mem.drop i = s)
    (h : scanComponents fs mem i s = .slashAt j) : mem[j]? = some slash := by
  induction s generalizing i with
  | nil => simp [scanComponents] at h
  | cons x s ih =>
    have hx : mem[i]? = some x := by
      have hd : (mem.drop i)[0]? = some x := by rw [hs]; rfl
      simpa using hd
    have hnext : mem.drop (i + 1) = s := by
      rw [← List.drop_drop, hs]
      rfl
    unfold scanComponents at h
    split_ifs at h with h0 hslash
    · split at h
      · cases h
      · cases h
      · cases h
        rw [hx, hslash]
      · exact ih hnext h
    · exact ih hnext h

lemma setPathname_info (c : Request) (path : Bytes) : (c.setPathname path).pathInfo = c.pathInfo ∧
    (c.setPathname path).pathTranslated = c.pathTranslated := by
  unfold Request.setPathname
  split_ifs <;> exact ⟨rfl, rfl⟩

lemma setScriptName_info (c : Request) (name : Bytes) : (c.setScriptName name).pathInfo = c.pathInfo ∧
    (c.setScriptName name).pathTranslated = c.pathTranslated := by
  unfold Request.setScriptName
  split_ifs <;> exact ⟨rfl, rfl⟩

lemma cutScriptName_info (c : Request) (n : ℕ) : (c.cutScriptName n).pathInfo = c.pathInfo ∧
    (c.cutScriptName n).pathTranslated = c.pathTranslated := by
  unfold Request.cutScriptName
  split
  · exact ⟨rfl, rfl⟩
  · split_ifs <;> exact ⟨rfl, rfl⟩

lemma refused_pathInfo {d : Request} (h : Refused c d) : d.pathInfo = c.pathInfo := by
  obtain ⟨o, code, rfl, -⟩ := h
  rfl

lemma translatePathInfo_pathInfo (env : Env) (c : Request) (info : Bytes) :
    (c.translatePathInfo env info).1.pathInfo = c.pathInfo := by
  obtain ⟨pt, he⟩ | ⟨d, pt, he, hr⟩ := Request.translatePathInfo_cases env c info
  · rw [he]
  · rw [he]
    exact (refused_pathInfo hr).trans rfl

/-- The path is set behind a translation that went well, with nothing changed of what it found. -/
lemma setPathname_behind (path : Bytes) (r : Request × Bool) :
    (match r with
      | (c, false) => (c, false)
      | (c, true) => (c.setPathname path, true)).1.pathInfo = r.1.pathInfo ∧
    (match r with
      | (c, false) => (c, false)
      | (c, true) => (c.setPathname path, true)).1.pathTranslated = r.1.pathTranslated := by
  obtain ⟨e, _ | _⟩ := r
  · exact ⟨rfl, rfl⟩
  · exact setPathname_info e _

/-- With extra path, `path_translated` comes from the second translation. -/
lemma scanScript_info {mem : Bytes} (hi : c.pathInfo = none) (ht : c.pathTranslated = none)
    (h : (c.scanScript env a mem).1.pathInfo = some info) : info.head? = some slash ∧
      (c.scanScript env a mem).1.pathTranslated = (infoRule env info).map (·.apply info) := by
  unfold Request.scanScript at h ⊢
  dsimp only at h ⊢
  generalize (if ((text "nph-").isPrefixOf (cstr (List.drop a.realname.val.length mem)) ||
    decide (c.httpVersion = Version.http09)) = true then CgiType.nph else CgiType.cgi) = t at h ⊢
  have hscript : (Request.setScriptName { c with cgiType := t } c.requestUri).pathInfo = none :=
    (setScriptName_info { c with cgiType := t } c.requestUri).1.trans hi
  cases hs : scanComponents env.fs mem (a.realname.val.length + 1)
      (mem.drop (a.realname.val.length + 1)) with
  | notFound =>
    rw [hs] at h
    have hnone := refused_pathInfo (Request.sendRNotFound_refused env { c with cgiType := t })
    exact absurd (h.symm.trans (hnone.trans hi)) nofun
  | forbidden =>
    rw [hs] at h
    have hnone := refused_pathInfo (Request.sendRForbidden_refused env { c with cgiType := t })
    exact absurd (h.symm.trans (hnone.trans hi)) nofun
  | terminator =>
    rw [hs] at h
    dsimp only at h
    split at h
    · have hnone := (refused_pathInfo (Request.sendRNotFound_refused env _)).trans hscript
      exact absurd (h.symm.trans hnone) nofun
    · have hnone := (refused_pathInfo (Request.sendRForbidden_refused env _)).trans hscript
      exact absurd (h.symm.trans hnone) nofun
    · have hnone := (refused_pathInfo (Request.sendRForbidden_refused env _)).trans hscript
      exact absurd (h.symm.trans hnone) nofun
    · have hnone := (setPathname_info _ (cstr mem)).1.trans hscript
      exact absurd (h.symm.trans hnone) nofun
  | slashAt j =>
    rw [hs] at h
    dsimp only at h ⊢
    generalize hd : Request.cutScriptName { Request.setScriptName { c with cgiType := t } c.requestUri with
        pathInfo := some (cstr (mem.drop j)) } (cstr (mem.drop j)).length = d at h ⊢
    have hdi : d.pathInfo = some (cstr (mem.drop j)) := by
      rw [← hd]
      exact (cutScriptName_info _ _).1
    have hdt : d.pathTranslated = none := by
      rw [← hd]
      exact (cutScriptName_info _ _).2.trans
        ((setScriptName_info { c with cgiType := t } c.requestUri).2.trans ht)
    have hboth := setPathname_behind (cstr (mem.take j))
    have hinfo : info = cstr (mem.drop j) := by
      have hkeep := (hboth (d.translatePathInfo env (cstr (mem.drop j)))).1.trans
        ((translatePathInfo_pathInfo env d _).trans hdi)
      exact Option.some.inj (h.symm.trans hkeep)
    have hslash := scanComponents_slash rfl hs
    have hhead : info.head? = some slash := by
      obtain ⟨hlt, hj⟩ := List.getElem?_eq_some_iff.mp hslash
      rw [hinfo, List.drop_eq_getElem_cons hlt, hj]
      rfl
    refine ⟨hhead, ?_⟩
    rw [← hinfo]
    exact (hboth _).2.trans (translatePathInfo_rule hdt hhead)

lemma findAlias_of_prefixAlias {cfg : Config} (h : prefixAlias cfg info = some a)
    (hm : a.matchesUri info) : findAlias cfg info = some a := by
  obtain ⟨-, pre, post, has, hpre⟩ := List.find?_eq_some_iff_append.mp h
  refine List.find?_eq_some_iff_append.mpr ⟨hm, pre, post, has, fun b hb => ?_⟩
  have hno := hpre b hb
  unfold Alias.matchesUri
  simp only [Bool.not_eq_true'] at hno ⊢
  rw [hno, Bool.false_and]

lemma findAlias_none {cfg : Config} (h : prefixAlias cfg info = none) : findAlias cfg info = none := by
  refine List.find?_eq_none.mpr fun b hb hm => ?_
  have hno := List.find?_eq_none.mp h b hb
  unfold Alias.matchesUri at hm
  exact hno (Bool.and_eq_true _ _ ▸ hm : _ ∧ _).1

lemma infoRule_of_prefixAlias {r : Rule} (h : prefixAlias env.cfg info = some a)
    (hr : infoRule env info = some r) : r = a.rule := by
  unfold infoRule at hr
  rw [h] at hr
  dsimp only at hr
  split_ifs at hr
  exact (Option.some.inj hr).symm

lemma uriRule_of_findAlias {ip uri : Bytes} {s : Rule} (h : findAlias env.cfg uri = some a)
    (hs : uriRule env ip uri = some s) : s = a.rule := by
  unfold uriRule at hs
  rw [h] at hs
  by_cases hhead : uri.head? ≠ some slash
  · rw [if_pos hhead] at hs
    cases hs
  · rw [if_neg hhead] at hs
    dsimp only at hs
    split_ifs at hs
    exact (Option.some.inj hs).symm

/-- Without an alias both take the same rule, or they differ by the address of VirtualHost. -/
lemma rules_plain {ip : Bytes} (hnone : prefixAlias env.cfg info = none) {r s : Rule}
    (hr : infoRule env info = some r) (hs : uriRule env ip info = some s) :
    r.apply info = s.apply info ↔ UserDirUri env.cfg info ∨ env.cfg.virtualhost = false := by
  have hhead : info.head? = some slash := by
    by_contra hne
    unfold uriRule at hs
    rw [if_pos hne] at hs
    cases hs
  unfold infoRule at hr
  unfold uriRule at hs
  rw [hnone] at hr
  rw [if_neg (not_not.mpr hhead), findAlias_none hnone] at hs
  dsimp only at hr hs
  split at hr
  · next userDir name hu hd =>
    rw [hu, hd] at hs
    replace hs : (if name = [] then none else (homeRule env userDir name).filter fun r =>
      (r.apply info).length + 1 ≤ pathBufferSize) = some s := hs
    split_ifs at hs
    obtain ⟨hs, -⟩ := Option.filter_eq_some_iff.mp hs
    rw [hr] at hs
    cases hs
    exact ⟨fun _ => .inl (userDirUri_iff.mpr ⟨userDir, name, hu, hd⟩), fun _ => rfl⟩
  · next hother =>
    have hdir : ¬ UserDirUri env.cfg info := by
      intro h
      obtain ⟨userDir, name, hu, hd⟩ := userDirUri_iff.mp h
      exact hother _ _ hu hd
    split at hs
    · next hu hd => exact (hother _ _ hu hd).elim
    · split at hs
      · next root _ hroot =>
        rw [hroot] at hr
        obtain ⟨root', hroot', rfl⟩ := Option.map_eq_some_iff.mp hr
        cases hroot'
        rw [or_iff_right hdir]
        cases hvirtual : env.cfg.virtualhost with
        | false =>
          rw [hvirtual, if_neg Bool.false_ne_true, if_neg Bool.false_ne_true] at hs
          split_ifs at hs
          cases hs
          exact ⟨fun _ => rfl, fun _ => rfl⟩
        | true =>
          rw [hvirtual, if_pos rfl, if_pos rfl] at hs
          split_ifs at hs
          cases hs
          constructor
          · intro he
            have hlen := congrArg List.length he
            simp only [Rule.apply, List.length_append, List.length_singleton, List.length_drop] at hlen
            omega
          · nofun
      · cases hs

/-- The second translation gives what the first would, exactly where the rules are alike. -/
theorem translatedRight_iff (hi : c.pathInfo = none) (ht : c.pathTranslated = none)
    (h : (c.initScriptAlias env a).1.pathInfo = some info) :
    TranslatedRight env c a info ↔ TranslatedAlike env c.localIpAddr info := by
  have hrun : info.head? = some slash ∧
      (c.initScriptAlias env a).1.pathTranslated = (infoRule env info).map (·.apply info) := by
    unfold Request.initScriptAlias at h ⊢
    dsimp only at h ⊢
    by_cases hbig : pathBufferSize < (c.scriptPath env.cfg a).length + 1
    · rw [if_pos hbig] at h
      have hnone := refused_pathInfo (Request.sendRBadRequest_refused env c)
      exact absurd (h.symm.trans (hnone.trans hi)) nofun
    · rw [if_neg hbig] at h ⊢
      exact scanScript_info hi ht h
  obtain ⟨hhead, htranslated⟩ := hrun
  have hrules : TranslatedRight env c a info ↔ ∀ r s, infoRule env info = some r →
      uriRule env c.localIpAddr info = some s → r.apply info = s.apply info := by
    unfold TranslatedRight
    simp only [htranslated, resolves_iff (u := c.askFor info) rfl]
    constructor
    · intro hall r s hr hs
      exact hall _ _ (by rw [hr]; rfl) ⟨s, hs, rfl⟩
    · rintro hall path path' hpath ⟨s, hs, rfl⟩
      obtain ⟨r, hr, rfl⟩ := Option.map_eq_some_iff.mp hpath
      exact hall r s hr hs
  rw [hrules]
  unfold TranslatedAlike
  constructor
  · intro hall s hs hsome
    obtain ⟨r, hr⟩ := Option.isSome_iff_exists.mp hsome
    have heq := hall r s hr hs
    cases ha : prefixAlias env.cfg info with
    | none => exact (rules_plain ha hr hs).mp heq
    | some b =>
      rw [infoRule_of_prefixAlias ha hr] at heq
      exact .inr ((Rule.apply_eq_iff (Request.prefix_of_find? ha) (uriRule_fake hs)).mp heq)
  · intro hall r s hr hs
    have halike := hall s hs (by rw [hr]; rfl)
    cases ha : prefixAlias env.cfg info with
    | none =>
      rw [ha] at halike
      exact (rules_plain ha hr hs).mpr halike
    | some b =>
      rw [ha] at halike
      rw [infoRule_of_prefixAlias ha hr]
      rcases halike with hborder | hextends
      · rw [uriRule_of_findAlias (findAlias_of_prefixAlias ha hborder) hs]
      · exact (Rule.apply_eq_iff (Request.prefix_of_find? ha) (uriRule_fake hs)).mpr hextends

/-- A server with the script `/d/s`. -/
def infoEnv (virtualhost : Bool) : Env where
  cfg := { tinyConfig with documentRoot := some (confText "/w" (by decide +kernel)), virtualhost }
  fs := { tinyFiles with
    stat := fun p => if p = text "/d/s" then .ok .reg else .error .enoent, access := fun _ => true }
  gmtime := tinyEnv.gmtime
  staticPathname := List.replicate pathBufferSize 0

def infoRequest : Request := { requestUri := text "/c/s/x", localIpAddr := text "1.2.3.4" }

theorem translatedRight_document :
    (infoRequest.initScriptAlias (infoEnv false) Request.slashedScripts).1.pathInfo = some (text "/x") ∧
      TranslatedRight (infoEnv false) infoRequest Request.slashedScripts (text "/x") := by
  have hinfo : (infoRequest.initScriptAlias (infoEnv false) Request.slashedScripts).1.pathInfo = some (text "/x") := by
    decide +kernel
  refine ⟨hinfo, (translatedRight_iff rfl rfl hinfo).mpr fun s _ _ => ?_⟩
  have hnone : prefixAlias (infoEnv false).cfg (text "/x") = none := by decide +kernel
  rw [hnone]
  exact .inr rfl

/-- With VirtualHost the extra path `/x` is translated without the address. -/
theorem translatedRight_misses_virtual : infoRequest.pathInfo = none ∧ infoRequest.pathTranslated = none ∧
    (infoRequest.initScriptAlias (infoEnv true) Request.slashedScripts).1.pathInfo = some (text "/x") ∧
    (infoRequest.initScriptAlias (infoEnv true) Request.slashedScripts).1.pathTranslated = some (text "/w/x") ∧
    Resolves (infoEnv true) (infoRequest.askFor (text "/x")) (text "/w/1.2.3.4/x") ∧
    ¬ TranslatedRight (infoEnv true) infoRequest Request.slashedScripts (text "/x") := by
  have hpath : (infoRequest.initScriptAlias (infoEnv true) Request.slashedScripts).1.pathTranslated =
      some (text "/w/x") := by decide +kernel
  have hresolves : Resolves (infoEnv true) (infoRequest.askFor (text "/x")) (text "/w/1.2.3.4/x") := by
    have hnone : findAlias (infoEnv true).cfg (infoRequest.askFor (text "/x")).requestUri = none := by
      decide +kernel
    refine ⟨by decide +kernel, ?_⟩
    rw [hnone]
    exact .inr rfl
  refine ⟨rfl, rfl, by decide +kernel, hpath, hresolves, fun h => ?_⟩
  exact absurd (h _ _ hpath hresolves) (by decide +kernel)

end Rules
end Boa
