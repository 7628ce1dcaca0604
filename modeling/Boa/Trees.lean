import Boa.Access
import Boa.HostName
import Boa.LogCount
import Boa.Lookup
import Boa.PathBuffer
import Boa.PathSegments

/-! Which files answer a request: whatever a client asks for, they lie in the trees that the
configuration names. -/
namespace Boa
open Memory History Words

/-! ### Paths -/

/-- The segment that leads up. -/
def parentDir : Bytes := [dot, dot]

/-- No segment of a path leads up, the last one aside. -/
def Sinks (u : Bytes) : Prop := parentDir ∉ (u.splitOn slash).dropLast

/-- No segment of a path leads up. -/
def Descends (u : Bytes) : Prop := parentDir ∉ u.splitOn slash

def lastSegment (p : Bytes) : Bytes := (p.splitOn slash).getLast?.getD []

/-- Behind `base`, `u` starts with a segment of its own. -/
def Joins (base u : Bytes) : Prop := base.getLast? = some slash ∨ u = [] ∨ u.head? = some slash

/-- A path that goes down from `base`. -/
def Inside (base p : Bytes) : Prop := ∃ u, p = base ++ u ∧ 0 ∉ u ∧ Joins base u ∧ Descends u

/-- A request target in its normal form. -/
structure Polished (uri : Bytes) : Prop where
  absolute : uri.head? = some slash
  noNul : 0 ∉ uri
  sinks : Sinks uri

section Paths

variable {a u base x : Bytes}

lemma exists_of_head? (h : u.head? = some slash) : ∃ s, u = slash :: s := by
  cases u with
  | nil => cases h
  | cons b s => exact ⟨s, by rw [Option.some.inj h]⟩

lemma splitOn_slash (u : Bytes) : (slash :: u).splitOn slash = [] :: u.splitOn slash := by
  have h : ([] ++ slash :: u).splitOn slash = [].splitOn slash ++ u.splitOn slash := splitOn_append_sep [] u
  rwa [List.nil_append, List.splitOn_nil, List.singleton_append] at h

lemma sinks_nil : Sinks [] := by simp [Sinks]

/-- What stands behind a slash keeps its segments. -/
lemma Sinks.behind (h : Sinks (a ++ slash :: u)) : Sinks u := by
  unfold Sinks at h
  rw [splitOn_append_sep, List.dropLast_append_of_ne_nil (List.splitOn_ne_nil slash u)] at h
  exact fun hm => h (List.mem_append_right _ hm)

lemma Sinks.cons (h : Sinks u) : Sinks (slash :: u) := by
  unfold Sinks
  rw [splitOn_slash, List.dropLast_cons_of_ne_nil (List.splitOn_ne_nil _ u)]
  intro hm
  rcases List.mem_cons.mp hm with hm | hm
  · exact absurd hm (by decide)
  · exact h hm

lemma descends_iff : Descends u ↔ Sinks u ∧ lastSegment u ≠ parentDir := by
  obtain ⟨ws, w, hw⟩ := List.eq_nil_or_concat' (u.splitOn slash) |>.resolve_left (List.splitOn_ne_nil slash u)
  unfold Descends Sinks lastSegment
  rw [hw]
  simp [eq_comm]

/-- A longer last segment is not that of the parent directory. -/
lemma lastSegment_long (p : Bytes) (hx : slash ∉ x) (hlen : 2 < x.length) : lastSegment (p ++ x) ≠ parentDir := by
  intro h
  unfold lastSegment at h
  rw [splitOn_append_word hx, List.getLast?_concat] at h
  have hlong := congrArg List.length h
  simp [parentDir] at hlong
  omega

/-- It leads nowhere. -/
lemma Sinks.append (h : Sinks u) (hx : slash ∉ x) (hlen : 2 < x.length) : Descends (u ++ x) := by
  unfold Descends
  rw [splitOn_append_word hx]
  intro hm
  rcases List.mem_append.mp hm with hm | hm
  · exact h hm
  · have hlong := congrArg List.length (List.mem_singleton.mp hm)
    simp [parentDir] at hlong
    omega

lemma lastSegment_append (h : Joins base u) (hu : u ≠ []) : lastSegment (base ++ u) = lastSegment u := by
  have hlast (b s : Bytes) : lastSegment (b ++ slash :: s) = lastSegment s := by
    unfold lastSegment
    rw [splitOn_append_sep, List.getLast?_append_of_ne_nil _ (List.splitOn_ne_nil slash s)]
  rcases h with h | h | h
  · obtain ⟨b, rfl⟩ := List.getLast?_eq_some_iff.mp h
    rw [List.append_assoc]
    exact hlast b u
  · exact absurd h hu
  · obtain ⟨s, rfl⟩ := exists_of_head? h
    exact (hlast base s).trans (hlast [] s).symm

/-- A path that does not end in the parent directory goes down. -/
lemma inside_of_sinks (h0 : 0 ∉ u) (hj : Joins base u) (hs : Sinks u) (hlast : lastSegment (base ++ u) ≠ parentDir) :
    Inside base (base ++ u) := by
  refine ⟨u, rfl, h0, hj, descends_iff.mpr ⟨hs, ?_⟩⟩
  by_cases hu : u = []
  · subst hu
    decide
  · rwa [lastSegment_append hj hu] at hlast

lemma polished_normalForm {s : Bytes} (h0 : 0 ∉ normalForm s) (hh : (normalForm s).head? = some slash) :
    Polished (normalForm s) := by
  refine ⟨hh, h0, ?_⟩
  obtain ⟨t, ht⟩ := exists_of_head? hh
  cases hsplit : s.splitOn slash with
  | nil => exact absurd hsplit (List.splitOn_ne_nil slash s)
  | cons w ws =>
    have hseg := splitOn_normalForm hsplit
    have hw : w = [] := by
      rw [ht, splitOn_slash] at hseg
      exact (List.cons.inj hseg).1.symm
    unfold Sinks
    rw [hseg, hw]
    cases hk : kept ws with
    | nil => simp
    | cons k ks =>
      have hdrop : (k :: ks).dropLast = ws.dropLast.filter (fun w => !isIdle w) := by rw [← hk, dropLast_kept]
      rw [List.dropLast_cons_of_ne_nil (List.cons_ne_nil k ks), hdrop]
      simp [parentDir, isIdle]

lemma Polished.stripCaudium {uri : Bytes} (h : Polished uri) : Polished (stripCaudium uri) := by
  unfold Boa.stripCaudium
  split
  · next a b x rest =>
    split_ifs
    · have hbehind : Sinks (x :: rest) := Sinks.behind (a := [47, 40, a, b, 41]) h.sinks
      refine ⟨rfl, fun hm => h.noNul ?_, hbehind.cons⟩
      simp only [List.mem_cons] at hm ⊢
      tauto
    · exact h
  · exact h

end Paths

/-! ### Where `translate_uri` leads -/

/-- The two names of an alias end in a slash together, as far as the first one does. -/
def Alias.Level (a : Alias) : Prop :=
  a.fakename.val.getLast? = some slash → a.realname.val.getLast? = some slash

/-- The directories and files that a connection to the address `ip` may be answered from. -/
inductive Root (cfg : Config) (homes : Bytes → Option Bytes) (ip : Bytes) : Bytes → Prop
  | alias {a : Alias} {bucket : List Alias} (hb : bucket ∈ cfg.aliasHashtable) (ha : a ∈ bucket)
      (ht : a.type = .alias) (hl : a.Level) : Root cfg homes ip a.realname
  | user {dir : ConfText} {name home : Bytes} (hd : cfg.userDir = some dir) (hn : slash ∉ name)
      (hh : homes name = some home) : Root cfg homes ip (home ++ [slash] ++ dir.val)
  | vhost {root : ConfText} {host : Bytes} (hr : cfg.vhostRoot = some root) (hh : IsHost host) :
      Root cfg homes ip (root.val ++ [slash] ++ ip ++ [slash] ++ host ++ [slash] ++ text "htdocs")
  | document {root : ConfText} (hv : cfg.vhostRoot = none) (hr : cfg.documentRoot = some root) :
      Root cfg homes ip (if cfg.virtualhost then root.val ++ [slash] ++ ip else root.val)

/-- A path with the name of an alias in front whose slash is missing. -/
inductive Glued (cfg : Config) : Bytes → Prop
  | alias {a : Alias} {bucket : List Alias} {u : Bytes} (hb : bucket ∈ cfg.aliasHashtable) (ha : a ∈ bucket)
      (ht : a.type = .alias) (hl : ¬ a.Level) (h0 : 0 ∉ u) (hs : Sinks u) : Glued cfg (a.realname.val ++ u)

/-- What `translate_uri` makes of a request target. -/
inductive Leads (cfg : Config) (homes : Bytes → Option Bytes) (ip : Bytes) : Bytes → Prop
  | root {base u : Bytes} (hb : Root cfg homes ip base) (h0 : 0 ∉ u) (hj : Joins base u) (hs : Sinks u) :
      Leads cfg homes ip (base ++ u)
  | glued {path : Bytes} (h : Glued cfg path) : Leads cfg homes ip path

namespace Request

variable {env : Env} {c d : Request}

lemma path_setPathname (c : Request) (path : Bytes) : (c.setPathname path).path = path := by
  unfold setPathname
  split_ifs <;> rfl

/-- A script alias finds a script, and no file. -/
lemma cgiType_of_scriptAlias {a : Alias} (h : c.initScriptAlias env a = (d, true)) : d.cgiType ≠ .none := by
  unfold initScriptAlias at h
  dsimp only at h
  split_ifs at h
  · cases h
  · have htype := scanScript_cgiType env c a (store env.staticPathname 0 (c.scriptPath env.cfg a ++ [0]))
    rw [h] at htype
    rw [show d.cgiType = _ from htype]
    split_ifs <;> simp

lemma path_of_buildPath {size : ℕ} {path : Bytes} (h : c.buildPath env size path = (d, true)) (ht : d.cgiType = .none) :
    d.path = path := by
  unfold buildPath finishPath at h
  dsimp only at h
  split_ifs at h with hsize hmime hv hm
  · cases h
  · cases h
    cases ht
  · cases h
    cases ht
  · cases h
  · cases h
    exact path_setPathname c path

/-- The rest of a polished target behind a prefix. -/
lemma polished_behind {uri u : Bytes} (h : Polished uri) (hu : u <:+ uri) (hj : u = [] ∨ u.head? = some slash)
    (base : Bytes) : 0 ∉ u ∧ Joins base u ∧ Sinks u := by
  refine ⟨fun hm => h.noNul (hu.subset hm), .inr hj, ?_⟩
  obtain rfl | hhead := hj
  · exact sinks_nil
  · obtain ⟨s, rfl⟩ := exists_of_head? hhead
    obtain ⟨t, rfl⟩ := hu
    exact h.sinks.behind.cons

/-- What an alias makes of a request target. -/
lemma leads_of_alias {a : Alias} (ha : findAlias env.cfg c.requestUri = some a) (ht : a.type = .alias)
    (hp : Polished c.requestUri) : Leads env.cfg env.getHomeDir c.localIpAddr (a.expand c.requestUri) := by
  have hmem : a ∈ env.cfg.aliasBucket c.requestUri := List.mem_of_find?_eq_some ha
  have hfound : a.matchesUri c.requestUri = true := List.find?_some (p := fun b : Alias => b.matchesUri c.requestUri) ha
  obtain ⟨rest, huri, hrest⟩ := (Alias.matchesUri_iff a _).mp hfound
  have hbucket : env.cfg.aliasBucket c.requestUri ∈ env.cfg.aliasHashtable := by
    unfold Config.aliasBucket at hmem ⊢
    rw [List.getD_eq_getElem?_getD] at hmem ⊢
    cases hget : env.cfg.aliasHashtable[getAliasHashValue c.requestUri]? with
    | none => simp [hget] at hmem
    | some bucket => exact List.mem_of_getElem? hget
  have hexpand : a.expand c.requestUri = a.realname.val ++ rest := by rw [Alias.expand, huri, List.drop_left]
  have h0 : 0 ∉ rest := fun hm => hp.noNul (huri ▸ List.mem_append_right _ hm)
  have hsinks : Sinks rest := by
    obtain hfake | hborder := hrest
    · obtain ⟨f, hf⟩ := List.getLast?_eq_some_iff.mp hfake
      have hall := hp.sinks
      rw [huri, hf, List.append_assoc] at hall
      exact hall.behind
    · exact (polished_behind hp (huri ▸ List.suffix_append _ _) hborder []).2.2
  rw [hexpand]
  by_cases hlevel : a.Level
  · refine .root (.alias hbucket hmem ht hlevel) h0 ?_ hsinks
    exact hrest.imp hlevel id
  · exact .glued (.alias hbucket hmem ht hlevel h0 hsinks)

/-- What `translate_uri` makes of a target without an alias. -/
lemma leads_of_plain (hd : c.translatePlain env = (d, true)) (ht : d.cgiType = .none) (hp : Polished c.requestUri)
    (hh : env.cfg.vhostRoot.isSome → IsHost (c.host.getD [])) : Leads env.cfg env.getHomeDir c.localIpAddr d.path := by
  have hall := polished_behind hp List.suffix_rfl (.inr hp.absolute)
  unfold translatePlain at hd
  split at hd
  · next dir name hdir hname =>
    unfold userDirPath at hd
    split_ifs at hd with hempty
    · cases hd
    · split at hd
      · cases hd
      · next home hhome =>
        have hsuffix : name.dropWhile (· ≠ slash) <:+ c.requestUri :=
          (List.dropWhile_suffix _).trans ((List.suffix_cons 126 name).trans (hname ▸ List.drop_suffix 1 _))
        have hborder : name.dropWhile (· ≠ slash) = [] ∨ (name.dropWhile (· ≠ slash)).head? = some slash := by
          cases hrest : name.dropWhile (· ≠ slash) with
          | nil => exact .inl rfl
          | cons b s =>
            have hb := List.head?_dropWhile_not (· ≠ slash) name
            rw [hrest] at hb
            exact .inr (congrArg some (by simpa using hb))
        obtain ⟨h0, hj, hs⟩ := polished_behind hp hsuffix hborder (home ++ [slash] ++ dir.val)
        rw [path_of_buildPath hd ht]
        refine .root (.user hdir (fun hm => ?_) hhome) h0 hj hs
        simpa using List.mem_takeWhile_imp hm
  · split at hd
    · next root hroot =>
      obtain ⟨h0, hj, hs⟩ := hall (root.val ++ [slash] ++ c.localIpAddr ++ [slash] ++ c.host.getD [] ++ [slash] ++
        text "htdocs")
      rw [path_of_buildPath hd ht]
      exact .root (.vhost hroot (hh (by simp [hroot]))) h0 hj hs
    · next hnone =>
      split at hd
      · next root hroot =>
        have hbase : Root env.cfg env.getHomeDir c.localIpAddr _ := .document hnone hroot
        obtain ⟨h0, hj, hs⟩ := hall (if env.cfg.virtualhost then root.val ++ [slash] ++ c.localIpAddr else root.val)
        have hpath : c.documentPath env.cfg root =
            (if env.cfg.virtualhost then root.val ++ [slash] ++ c.localIpAddr else root.val) ++ c.requestUri := by
          unfold documentPath
          split_ifs <;> simp
        rw [path_of_buildPath hd ht, hpath]
        exact .root hbase h0 hj hs
      · cases hd

/-- The names that files are looked for under. -/
lemma translateUri_leads (hd : c.translateUri env = (d, true)) (ht : d.cgiType = .none) (hp : Polished c.requestUri)
    (hh : env.cfg.vhostRoot.isSome → IsHost (c.host.getD [])) : Leads env.cfg env.getHomeDir c.localIpAddr d.path := by
  unfold translateUri at hd
  rw [if_neg (by simp [hp.absolute])] at hd
  split at hd
  · exact leads_of_plain hd ht hp hh
  · next a ha =>
    split_ifs at hd with hscript hlong hredirect hpost
    · exact absurd ht (cgiType_of_scriptAlias hd)
    · cases hd
    · cases hd
    · cases hd
    · have htype : a.type = .alias := by
        cases hat : a.type <;> simp_all
      cases hd
      rw [path_setPathname]
      exact leads_of_alias ha htype hp

/-- What `process_header_end` accepts is in its normal form, and so is the host. -/
lemma acceptUri_polished (h : c.acceptUri env = (d, true)) : Polished d.requestUri ∧ d.localIpAddr = c.localIpAddr ∧
    (env.cfg.vhostRoot.isSome → IsHost (d.host.getD [])) ∧ d.trace = c.trace := by
  have hhost {e : Request} (he : e.acceptHost env = (d, true)) : d.requestUri = e.requestUri ∧
      d.localIpAddr = e.localIpAddr ∧ (env.cfg.vhostRoot.isSome → IsHost (d.host.getD [])) ∧ d.trace = e.trace := by
    unfold acceptHost at he
    dsimp only at he
    split_ifs at he with hv hcheck
    · cases he
    · cases he
      obtain ⟨n, hn⟩ := Option.ne_none_iff_exists'.mp hcheck
      exact ⟨rfl, rfl, fun _ => ((checkHost_iff _ n).mp hn).1, rfl⟩
    · cases he
      exact ⟨rfl, rfl, fun hsome => absurd hsome hv, rfl⟩
  unfold acceptUri at h
  dsimp only at h
  split_ifs at h with hlog hlegal hhead hhack
  · cases h
  · cases h
  · cases h
  all_goals
    have hclean : cleanPathname (unescapeUri c.requestUri).1 = normalForm (unescapeUri c.requestUri).1 :=
      cleanPathname_eq _
    have hpolished : Polished (cleanPathname (unescapeUri c.requestUri).1) := by
      have h0 := cleanPathname_nul (unescapeLoop c.requestUri).1
      have hslash : (cleanPathname (unescapeUri c.requestUri).1).head? = some slash := not_not.mp hhead
      rw [hclean] at hslash ⊢
      exact polished_normalForm (hclean ▸ h0) hslash
    obtain ⟨huri, hip, hh, htrace⟩ := hhost h
  · exact ⟨huri ▸ hpolished.stripCaudium, hip, hh, htrace⟩
  · exact ⟨huri ▸ hpolished, hip, hh, htrace⟩

end Request

/-! ### The file that answers -/

/-- A file of the configured trees. -/
inductive Tree (cfg : Config) (homes : Bytes → Option Bytes) (ip : Bytes) : Bytes → Prop
  | inside {base path : Bytes} (hb : Root cfg homes ip base) (h : Inside base path) : Tree cfg homes ip path
  /-- another form of a name that is configured -/
  | beside {base path : Bytes} (hb : Root cfg homes ip base)
      (h : (cfg.useLangRewrite = true ∧ langRewrite base = some path) ∨
        (cfg.gunzip = true ∧ path = base ++ text ".gz")) :
      Tree cfg homes ip path
  | glued {name path : Bytes} (hg : Glued cfg name)
      (h : path = name ∨ (cfg.useLangRewrite = true ∧ langRewrite name = some path))
      (hlast : lastSegment path ≠ parentDir) : Tree cfg homes ip path

/-- A file that may answer: one of the trees, the index file of a directory there, or the cache file
of a directory. -/
inductive Servable (cfg : Config) (homes : Bytes → Option Bytes) (ip : Bytes) : Bytes → Prop
  | file {path : Bytes} (h : Tree cfg homes ip path) : Servable cfg homes ip path
  | index {dir path : Bytes} {index : ConfText} (h : Tree cfg homes ip dir) (hd : dir.getLast? = some slash)
      (hi : cfg.directoryIndex = some index)
      (hp : path = dir ++ index.val ∨ (cfg.gunzip = true ∧ path = dir ++ index.val ++ text ".gz")) :
      Servable cfg homes ip path
  | cache {cachedir : ConfText} (hc : cfg.cachedir = some cachedir) (dir : File) :
      Servable cfg homes ip (cacheName cachedir dir)

/-- A name that ends in `.` or `..` is that of a directory. -/
def FileSys.DotDirs (fs : FileSys) : Prop :=
  ∀ path f, fs.openFile path = .ok f → lastSegment path = [dot] ∨ lastSegment path = parentDir → f.kind = .dir

section Names

variable {cfg : Config} {homes : Bytes → Option Bytes} {ip path p : Bytes} {env : Env}

lemma suffix_texts : text ".html" = dot :: text "html" ∧ slash ∉ text ".html" ∧ slash ∉ text ".gz" ∧
    0 ∉ text ".html" ∧ 0 ∉ text ".gz" ∧ 2 < (text ".html").length ∧ 2 < (text ".gz").length := by
  decide +kernel

/-- The language is cut out of the last eight characters. -/
lemma langRewrite_spec (h : langRewrite path = some p) :
    ∃ x e, path = x ++ e ∧ p = x ++ text ".html" ∧ slash ∉ e ∧ e ≠ [] := by
  obtain ⟨hhtml, hslash, -⟩ := suffix_texts
  unfold langRewrite at h
  dsimp only at h
  split_ifs at h with hshort hlang
  obtain ⟨hlen, hend⟩ := not_or.mp hshort
  have hend : path.drop (path.length - 5) = text ".html" := not_not.mp hend
  obtain ⟨h8, hdot, hl1, hl2⟩ := hlang
  obtain ⟨n, hn⟩ : ∃ n, path.length = n + 8 := ⟨path.length - 8, by omega⟩
  have hget (i : ℕ) (hi : i < path.length) : path.drop i = path.getD i 0 :: path.drop (i + 1) := by
    rw [List.drop_eq_getElem_cons hi, List.getD_eq_getElem _ _ hi]
  rw [show path.length - 8 = n by omega] at hdot
  rw [show path.length - 7 = n + 1 by omega] at hl1 h
  rw [show path.length - 6 = n + 2 by omega] at hl2
  have htail : path.drop n = dot :: path.getD (n + 1) 0 :: path.getD (n + 2) 0 :: text ".html" := by
    rw [hget n (by omega), hget (n + 1) (by omega), hget (n + 2) (by omega), hdot, ← hend,
      show path.length - 5 = n + 2 + 1 by omega]
  have hlower (b : UInt8) (hb : decide (97 ≤ b.toNat ∧ b.toNat ≤ 122) = true) : slash ≠ b := by
    rintro rfl
    exact absurd hb (by decide)
  refine ⟨path.take n, path.drop n, (List.take_append_drop n path).symm, ?_, ?_, by simp [htail]⟩
  · obtain rfl := Option.some.inj h
    have htake : path.take (n + 1) = path.take n ++ [dot] := by
      rw [List.take_succ_eq_append_getElem (show n < path.length by omega), ← List.getD_eq_getElem path 0, hdot]
    rw [htake, hhtml, List.append_assoc]
    rfl
  · rw [htail]
    simp only [List.mem_cons, not_or]
    exact ⟨by decide, hlower _ hl1, hlower _ hl2, hslash⟩

lemma Sinks.of_append {u e : Bytes} (h : Sinks (u ++ e)) (he : slash ∉ e) : Sinks u := by
  unfold Sinks at h ⊢
  rwa [splitOn_append_word he, List.dropLast_concat] at h

lemma Joins.append {base u x : Bytes} (h : Joins base u) (hu : u ≠ []) : Joins base (u ++ x) := by
  obtain h | h | h := h
  · exact .inl h
  · exact absurd h hu
  · exact .inr (.inr (by rw [List.head?_append_of_ne_nil _ hu, h]))

lemma tree_of_leads (h : Leads cfg homes ip path) (hlast : lastSegment path ≠ parentDir) : Tree cfg homes ip path := by
  cases h with
  | root hb h0 hj hs => exact .inside hb (inside_of_sinks h0 hj hs hlast)
  | glued hg => exact .glued hg (.inl rfl) hlast

/-- The directory itself. -/
lemma tree_of_slash (h : Leads cfg homes ip path) (hd : path.getLast? = some slash) : Tree cfg homes ip path := by
  refine tree_of_leads h ?_
  obtain ⟨b, rfl⟩ := List.getLast?_eq_some_iff.mp hd
  unfold lastSegment
  rw [splitOn_append_sep, List.getLast?_append_of_ne_nil _ (List.splitOn_ne_nil slash [])]
  decide

/-- The name without its language. -/
lemma tree_of_lang (h : Leads cfg homes ip path) (hc : cfg.useLangRewrite = true) (hl : langRewrite path = some p) :
    Tree cfg homes ip p := by
  obtain ⟨-, hslash, -, h0html, -, hlen, -⟩ := suffix_texts
  cases h with
  | glued hg =>
    obtain ⟨x, e, -, rfl, -, -⟩ := langRewrite_spec hl
    exact .glued hg (.inr ⟨hc, hl⟩) (lastSegment_long x hslash hlen)
  | @root base u hb h0 hj hs =>
    by_cases hu : u = []
    · subst hu
      rw [List.append_nil] at hl
      exact .beside hb (.inl ⟨hc, hl⟩)
    obtain ⟨x, e, hpath, rfl, hse, he⟩ := langRewrite_spec hl
    obtain ⟨v, rfl, rfl⟩ : ∃ v, x = base ++ v ∧ u = v ++ e := by
      obtain ⟨v, hx, hv⟩ | ⟨w, hx, hw⟩ := List.append_eq_append_iff.mp hpath
      · exact ⟨v, hx, hv⟩
      · -- the slash in front of `u` is none of the last characters
        obtain hbase | hnil | hhead := hj
        · obtain rfl : w = [] := by
            by_contra hne
            rw [hx, List.getLast?_append_of_ne_nil _ hne] at hbase
            exact hse (hw ▸ List.mem_append_left _ (List.mem_of_getLast? hbase))
          exact ⟨[], by simpa using hx.symm, by simpa using hw.symm⟩
        · exact absurd hnil hu
        · exact absurd (hw ▸ List.mem_append_right _ (List.mem_of_mem_head? hhead)) hse
    refine .inside hb ⟨v ++ text ".html", by rw [List.append_assoc], ?_, ?_, (hs.of_append hse).append hslash hlen⟩
    · intro hm
      rcases List.mem_append.mp hm with hm | hm
      · exact h0 (List.mem_append_left _ hm)
      · exact h0html hm
    · obtain hbase | hnil | hhead := hj
      · exact .inl hbase
      · exact absurd hnil hu
      · cases v with
        | nil => exact absurd (List.mem_of_mem_head? hhead) hse
        | cons b v => exact .inr (.inr hhead)

/-- The compressed form. -/
lemma tree_of_gz (h : Leads cfg homes ip path) (hg : cfg.gunzip = true) : Tree cfg homes ip (path ++ text ".gz") := by
  obtain ⟨-, -, hslash, -, h0gz, -, hlen⟩ := suffix_texts
  have hnul {u : Bytes} (h0 : 0 ∉ u) : 0 ∉ u ++ text ".gz" := fun hm => (List.mem_append.mp hm).elim h0 h0gz
  cases h with
  | glued hglued =>
    have hlast := lastSegment_long path hslash hlen
    obtain ⟨hb, ha, ht, hl, h0, hs⟩ := hglued
    rw [List.append_assoc] at hlast ⊢
    exact .glued (.alias hb ha ht hl (hnul h0) (descends_iff.mp (hs.append hslash hlen)).1) (.inl rfl) hlast
  | @root base u hb h0 hj hs =>
    by_cases hu : u = []
    · subst hu
      exact .beside hb (.inr ⟨hg, by rw [List.append_nil]⟩)
    · exact .inside hb ⟨u ++ text ".gz", List.append_assoc .., hnul h0, hj.append hu, hs.append hslash hlen⟩

lemma openedName_cases {name : Bytes} {f : File} (h : openedName env path = .ok (name, f)) :
    (name = path ∧ env.fs.openFile path = .ok f) ∨ (env.cfg.useLangRewrite = true ∧ langRewrite path = some name) := by
  unfold openedName at h
  split at h
  · next g hg =>
    cases h
    exact .inl ⟨rfl, hg⟩
  · split at h
    · next hl =>
      split_ifs at h with hc
      unfold Except.map at h
      split at h
      · cases h
      · cases h
        exact .inr ⟨hc.1, hl⟩
    · cases h

lemma regularName_eq {f : File} {name : Bytes} (h : regularName f name = some p) : f.kind = .reg ∧ name = p := by
  unfold regularName at h
  split_ifs at h with hk
  exact ⟨hk, Option.some.inj h⟩

/-- The names that `get_dir` tries. -/
lemma dirChoice_cases {dir : File} (h : dirChoice env path dir = some p) :
    (∃ index, env.cfg.directoryIndex = some index ∧
      (p = path ++ index.val ∨ (env.cfg.gunzip = true ∧ p = path ++ index.val ++ text ".gz"))) ∨
    ∃ cachedir, env.cfg.cachedir = some cachedir ∧ p = cacheName cachedir dir := by
  have hrebuilt {name : Bytes} (hc : rebuiltChoice env name = some p) : p = name := by
    unfold rebuiltChoice at hc
    split_ifs at hc
    split at hc
    · exact (regularName_eq hc).2.symm
    · cases hc
  have hmake (hc : makeChoice env dir = some p) :
      ∃ cachedir, env.cfg.cachedir = some cachedir ∧ p = cacheName cachedir dir := by
    unfold makeChoice at hc
    split at hc
    · next cachedir _ hcache =>
      refine ⟨cachedir, hcache, ?_⟩
      unfold cacheChoice at hc
      dsimp only at hc
      split at hc
      · split_ifs at hc
        · exact (regularName_eq hc).2.symm
        · exact hrebuilt hc
      · exact hrebuilt hc
    · cases hc
  unfold dirChoice at h
  split at h
  · exact .inr (hmake h)
  · next index hindex =>
    dsimp only at h
    generalize (if env.cfg.gunzip then 3 else 0) = k at h
    by_cases hlong : maxPathLength < (path ++ index.val).length + k + 1
    · rw [if_pos hlong] at h
      cases h
    · rw [if_neg hlong] at h
      split at h
      · exact .inl ⟨index, hindex, .inl (regularName_eq h).2.symm⟩
      · split_ifs at h with hg
        · exact .inl ⟨index, hindex, .inr ⟨hg.1, (Option.some.inj h).symm⟩⟩
        · exact .inr (hmake h)
      · cases h

/-- What `init_get` chooses is in the trees. -/
lemma servable_of_choice (hl : Leads env.cfg env.getHomeDir ip path) (hlaw : env.fs.DotDirs)
    (h : namedChoice env path = some p ∨ fallbackChoice env path = some p) :
    Servable env.cfg env.getHomeDir ip p := by
  obtain h | h := h
  · unfold namedChoice at h
    split at h
    · next name f ho =>
      split_ifs at h
      obtain ⟨hk, rfl⟩ := regularName_eq h
      obtain ⟨rfl, hopen⟩ | ⟨hc, hlang⟩ := openedName_cases ho
      · refine .file (tree_of_leads hl fun hlast => ?_)
        rw [hlaw _ f hopen (.inr hlast)] at hk
        cases hk
      · exact .file (tree_of_lang hl hc hlang)
    · cases h
  · unfold fallbackChoice at h
    split at h
    · next name f ho =>
      split_ifs at h with hdir
      have htree : Tree env.cfg env.getHomeDir ip name := by
        obtain ⟨rfl, -⟩ | ⟨hc, hlang⟩ := openedName_cases ho
        · exact tree_of_slash hl hdir.2.2
        · exact tree_of_lang hl hc hlang
      obtain ⟨index, hi, hp⟩ | ⟨cachedir, hc, rfl⟩ := dirChoice_cases h
      · exact .index htree hdir.2.2 hi hp
      · exact .cache hc f
    · unfold gunzipChoice at h
      split_ifs at h with hg
      obtain rfl := Option.some.inj h
      exact .file (tree_of_gz hl hg.1)
    · cases h

end Names

namespace Request

section Choice
variable {env : Env} {c : Request} {p : Bytes}

/-! Whatever the method, nothing but the choice is served. -/

lemma serve_of_gunzipIndex {f : File} {index gz : Bytes}
    (h : .serve p ∈ (finishDir env (c.gunzipIndex env f index gz)).1.choices) : .serve p ∈ c.choices ∨ gz = p := by
  by_cases hm : c.method = .head
  · have hc : ({ ((c.log (.opened f.fd)).log (.closed f.fd)).squashKa with
        responseStatus := 200, pathname := some gz } : Request).choices = c.choices :=
      (choices_closed _ _).trans (choices_opened _ _)
    unfold gunzipIndex at h
    dsimp only at h
    rw [if_pos (by rw [method_streamHeader]; exact hm)] at h
    simp only [finishDir, choices_streamHeader, hc] at h
    exact .inl h
  · exact (serve_mem_gunzipIndex hm f index gz).mp h

lemma serve_of_getDir {dir : File} (h : .serve p ∈ (finishDir env (c.getDir env dir)).1.choices) :
    .serve p ∈ c.choices ∨ dirChoice env c.path dir = some p := by
  unfold getDir at h
  unfold dirChoice
  cases hi : env.cfg.directoryIndex with
  | none =>
    rw [hi] at h
    exact (serve_mem_makeDir dir).mp h
  | some index =>
    rw [hi] at h
    dsimp only at h ⊢
    generalize (if env.cfg.gunzip then 3 else 0) = k at h ⊢
    by_cases hlong : maxPathLength < (c.path ++ index.val).length + k + 1
    · rw [if_pos hlong] at h
      exact .inl (by simpa [finishDir] using h)
    · rw [if_neg hlong] at h ⊢
      cases ho : env.fs.openFile (c.path ++ index.val) with
      | ok f =>
        have hc : ({ c.log (.opened f.fd) with requestUri := index } : Request).choices = c.choices :=
          choices_opened _ _
        simpa [ho, finishDir, serve_mem_serveFile, hc] using h
      | error e =>
        cases e with
        | eacces => exact .inl (by simpa [ho, finishDir] using h)
        | other => exact .inl (by simpa [ho, finishDir] using h)
        | enoent =>
          rw [ho] at h
          dsimp only at h ⊢
          by_cases hg : env.cfg.gunzip
          · rw [if_pos hg] at h
            cases hz : env.fs.openFile (c.path ++ index.val ++ text ".gz") with
            | ok f =>
              rw [hz] at h
              refine (serve_of_gunzipIndex h).imp id fun he => ?_
              rw [if_pos ⟨hg, by simp [Except.toOption]⟩, he]
            | error e =>
              rw [hz] at h
              rw [if_neg (by simp [Except.toOption])]
              exact (serve_mem_makeDir dir).mp h
          · rw [if_neg hg] at h
            rw [if_neg fun hc => hg hc.1]
            exact (serve_mem_makeDir dir).mp h

lemma serve_of_serveOpened {f : File} (h : .serve p ∈ (c.serveOpened env f).1.choices) :
    .serve p ∈ c.choices ∨ (RulesPass env c.path ∧ if f.kind = .dir
      then c.path.getLast? = some slash ∧ dirChoice env c.path f = some p else regularName f c.path = some p) := by
  have hrule : (env.cfg.accessControl ∧ !accessAllow env c.path) ↔ ¬ RulesPass env c.path := by
    simp [RulesPass]
  have hclosed : (c.log (.closed f.fd)).path = c.path := rfl
  unfold serveOpened at h
  simp only [hrule] at h
  by_cases ha : RulesPass env c.path
  · rw [if_neg (not_not.mpr ha)] at h
    by_cases hk : f.kind = .dir
    · rw [if_pos hk] at h
      unfold serveDirectory at h
      dsimp only at h
      rw [hclosed] at h
      by_cases hs : c.path.getLast? = some slash
      · rw [if_neg (not_not.mpr hs)] at h
        have hdir := @serve_of_getDir env (c.log (.closed f.fd)) p f h
        rw [choices_closed, hclosed] at hdir
        simpa [ha, hk, hs] using hdir
      · rw [if_pos hs] at h
        exact .inl (by simpa using h)
    · rw [if_neg hk] at h
      simpa [ha, hk] using (serve_mem_serveFile f c.path).mp h
  · rw [if_pos ha] at h
    exact .inl (by simpa using h)

lemma choices_gunzipHead {r : Request × Ret} (hm : c.method = .head) (hr : c.gunzipDocument env = some r) :
    r.1.choices = c.choices := by
  have hc (f : File) : ({ (c.log (.opened f.fd)).log (.closed f.fd) with
      responseStatus := 200, pathname := some (c.path ++ text ".gz") } : Request).choices = c.choices :=
    (choices_closed _ _).trans (choices_opened _ _)
  unfold gunzipDocument at hr
  split_ifs at hr
  · cases hr
    exact choices_sendRBadRequest env c
  · dsimp only at hr
    split at hr
    · cases hr
    · next f _ =>
      rw [if_pos (by rw [method_streamHeader]; exact hm)] at hr
      cases hr
      exact (choices_streamHeader env _ _ _).trans (hc f)

lemma serve_of_notOpened {e e' : Errno} (h : .serve p ∈ (if env.cfg.gunzip ∧ e' = .enoent then
      match c.gunzipDocument env with
      | some r => r
      | none => (c.openFailed env e, .done)
    else (c.openFailed env e, .done)).1.choices) :
    .serve p ∈ c.choices ∨ (e' = .enoent ∧ gunzipChoice env c.path = some p) := by
  by_cases hm : c.method = .head
  · refine .inl ?_
    split_ifs at h
    · split at h
      · next r hr => rwa [choices_gunzipHead hm hr] at h
      · simpa using h
    · simpa using h
  · exact (serve_mem_notOpened hm e e').mp h

/-- Nothing is served but the choice of `init_get`. -/
lemma serve_of_initGet (h : .serve p ∈ (c.initGet env).1.choices) :
    .serve p ∈ c.choices ∨ namedChoice env c.path = some p ∨ fallbackChoice env c.path = some p := by
  by_cases hm : c.method = .head
  · have key (d : Request) (name : Bytes) (f : File) (hd : d.path = name) (hdc : d.choices = c.choices)
        (ho : openedName env c.path = .ok (name, f)) (hs : .serve p ∈ (d.serveOpened env f).1.choices) :
        .serve p ∈ c.choices ∨ namedChoice env c.path = some p ∨ fallbackChoice env c.path = some p := by
      obtain hs | ⟨hr, hc⟩ := serve_of_serveOpened hs
      · exact .inl (hdc ▸ hs)
      right
      rw [hd] at hr hc
      simp only [namedChoice, fallbackChoice, ho]
      by_cases hk : f.kind = .dir
      · rw [if_pos hk] at hc
        exact .inr (by rw [if_pos ⟨hr, hk, hc.1⟩, hc.2])
      · rw [if_neg hk] at hc
        exact .inl (by rw [if_pos ⟨hr, hk⟩, hc])
    unfold initGet at h
    cases ho : env.fs.openFile c.path with
    | ok f =>
      rw [ho] at h
      exact key (c.log (.opened f.fd)) c.path f rfl (choices_opened _ _) (by simp [openedName, ho]) h
    | error e =>
      rw [ho] at h
      obtain ⟨name, f, hw, hn⟩ | ⟨e', hw, hn⟩ := openRewritten_cases ho
      · simp only [hw] at h
        exact key { c.log (.opened f.fd) with pathname := some name } name f rfl (choices_opened _ _) hn h
      · simp only [hw] at h
        obtain h | ⟨he, hc⟩ := serve_of_notOpened h
        · exact .inl h
        · exact .inr (.inr (by simp only [fallbackChoice, hn, he, hc]))
  · exact (serve_mem_initGet env c hm).mp h

end Choice

end Request

end Boa
