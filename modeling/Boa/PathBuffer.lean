import Boa.Script

/-! The static buffers of alias.c: the room that a branch asks for before it puts a path
together, and the copies that put it together. -/
namespace Boa
open Memory

/-- The difference of two `unsigned int`. -/
def unsignedSub (a b : ℕ) : ℕ := (2 ^ 32 + a - b) % 2 ^ 32

lemma unsignedSub_of_le {a b : ℕ} (hab : b ≤ a) (ha : a < 2 ^ 32) : unsignedSub a b = a - b := by
  unfold unsignedSub
  omega

/-- How a branch builds a path: the size it compares with that of the buffer, its copies with
their offsets, and the differences of two lengths that it computes. -/
structure PathBuild where
  size : ℕ
  copies : List (ℕ × Bytes)
  differences : List (ℕ × ℕ) := []

namespace PathBuild

/-- The `n` bytes at `&s[i]`, with the terminator of `s`. -/
def behind (s : Bytes) (i n : ℕ) : Bytes := ((s ++ [0]).drop i).take n

/-- Alias and Redirect, `init_script_alias` without VHostRoot, and `path_translated`. -/
def ofAlias (a : Alias) (uri : Bytes) : PathBuild :=
  let fakeLen := a.fakename.val.length
  let realLen := a.realname.val.length
  let uriLen := uri.length
  { size := unsignedSub (realLen + uriLen) fakeLen + 1
    copies := [(0, a.realname), (realLen, behind uri fakeLen (unsignedSub uriLen fakeLen + 1))]
    differences := [(uriLen, fakeLen)] }

/-- `init_script_alias` with VHostRoot. -/
def ofVhostScript (root ip host : Bytes) (a : Alias) (uri : Bytes) : PathBuild :=
  let fakeLen := a.fakename.val.length
  let realLen := a.realname.val.length
  let uriLen := uri.length
  let l1 := root.length
  let l2 := ip.length
  let l3 := host.length
  { size := l1 + 1 + l2 + 1 + l3 + 1 + realLen + unsignedSub uriLen fakeLen + 1
    copies := [(0, root), (l1, [slash]), (l1 + 1, ip), (l1 + 1 + l2, [slash]),
      (l1 + 1 + l2 + 1, host), (l1 + 1 + l2 + 1 + l3, [slash]),
      (l1 + 1 + l2 + 1 + l3 + 1, a.realname),
      (l1 + 1 + l2 + 1 + l3 + 1 + realLen, behind uri fakeLen (unsignedSub uriLen fakeLen + 1))]
    differences := [(uriLen, fakeLen)] }

/-- UserDir; `p` is the URI from the `/` behind the name on, if there is one. -/
def ofUserDir (home userDir p uri : Bytes) : PathBuild :=
  let l1 := home.length
  let l2 := userDir.length
  let l3 := p.length
  { size := l1 + 1 + l2 + l3 + 1
    copies := [(0, home), (l1, [slash]), (l1 + 1, userDir ++ [0])] ++
      if p = [] then [] else [(l1 + 1 + l2, p ++ [0])]
    differences := [(uri.length, 2)] }

/-- VHostRoot. -/
def ofVhost (root ip host uri : Bytes) : PathBuild :=
  let l1 := root.length
  let l2 := ip.length
  let l3 := host.length
  let l4 := (text "htdocs").length
  let l5 := uri.length
  { size := l1 + 1 + l2 + 1 + l3 + 1 + l4 + l5 + 1
    copies := [(0, root), (l1, [slash]), (l1 + 1, ip), (l1 + 1 + l2, [slash]),
      (l1 + 1 + l2 + 1, host), (l1 + 1 + l2 + 1 + l3, [slash]),
      (l1 + 1 + l2 + 1 + l3 + 1, text "htdocs"),
      (l1 + 1 + l2 + 1 + l3 + 1 + l4, uri ++ [0])] }

/-- DocumentRoot, with or without VirtualHost. -/
def ofDocument (virtual : Bool) (root ip uri : Bytes) : PathBuild :=
  let l1 := root.length
  let l2 := uri.length
  let l3 := if virtual then ip.length else 0
  { size := l1 + 1 + l2 + l3 + 1
    copies := if virtual
      then [(0, root), (l1, [slash]), (l1 + 1, ip), (l1 + 1 + l3, uri ++ [0])]
      else [(0, root), (l1, uri ++ [0])] }

/-- The buffer after the copies, if the size passes the test: the sum of the lengths is an
`unsigned int`. -/
def run (b : PathBuild) (mem : Bytes) : Option Bytes :=
  if pathBufferSize < b.size % 2 ^ 32 then none
  else some (b.copies.foldl (fun m w => store m w.1 w.2) mem)

/-- The build is refused for its size, or it stays inside the buffer and leaves `path` there
with its terminator; its differences are not negative. -/
structure Exact (b : PathBuild) (path : Bytes) : Prop where
  differences : ∀ d ∈ b.differences, d.2 ≤ d.1
  built : (pathBufferSize < b.size % 2 ^ 32 ∧ pathBufferSize ≤ path.length + 1) ∨
    (¬ pathBufferSize < b.size % 2 ^ 32 ∧
      (∀ w ∈ b.copies, w.1 + w.2.length ≤ pathBufferSize) ∧
      ∀ mem, b.copies.foldl (fun m w => store m w.1 w.2) mem = store mem 0 (path ++ [0]))

end PathBuild

namespace Request

/-- The build of `init_script_alias`. -/
def scriptBuild (cfg : Config) (c : Request) (a : Alias) : PathBuild :=
  match cfg.vhostRoot with
  | some root => .ofVhostScript root c.localIpAddr (c.host.getD []) a c.requestUri
  | none => .ofAlias a c.requestUri

/-- `init_script_alias` with the copies into its static buffer. -/
def initScriptAliasIn (env : Env) (c : Request) (a : Alias) : Request × Bool :=
  match (c.scriptBuild env.cfg a).run env.staticPathname with
  | none => (c.sendRBadRequest env, false)
  | some mem => c.scanScript env a mem

def buildPathIn (env : Env) (mem : Bytes) (c : Request) (b : PathBuild) : Request × Bool :=
  match b.run mem with
  | none => (c.sendRBadRequest env, false)
  | some mem => c.finishPath env (cstr mem)

/-- The `~user` branch with its copies, for the text behind the `~`. -/
def userDirPathIn (env : Env) (mem : Bytes) (c : Request) (userDir name : Bytes) : Request × Bool :=
  if name = [] then (c.sendRBadRequest env, false)
  else
    match env.getHomeDir (name.takeWhile (· ≠ slash)) with
    | none => (c.sendRNotFound env, false)
    | some home =>
      c.buildPathIn env mem (.ofUserDir home userDir (name.dropWhile (· ≠ slash)) c.requestUri)

/-- `translate_uri` without an alias, with the copies into its static buffer `mem`. -/
def translatePlainIn (env : Env) (mem : Bytes) (c : Request) : Request × Bool :=
  match env.cfg.userDir, c.requestUri.drop 1 with
  | some userDir, 126 :: name => c.userDirPathIn env mem userDir name
  | _, _ =>
    match env.cfg.vhostRoot with
    | some root => c.buildPathIn env mem (.ofVhost root c.localIpAddr (c.host.getD []) c.requestUri)
    | none =>
      match env.cfg.documentRoot with
      | some root =>
        c.buildPathIn env mem (.ofDocument env.cfg.virtualhost root c.localIpAddr c.requestUri)
      | none => (c.sendRNotFound env, false)

/-- `translate_uri` with the copies into its static buffer `mem`. -/
def translateUriIn (env : Env) (mem : Bytes) (c : Request) : Request × Bool :=
  if c.requestUri.head? ≠ some slash then (c.sendRBadRequest env, false)
  else
    match findAlias env.cfg c.requestUri with
    | none => c.translatePlainIn env mem
    | some a =>
      if a.type = .scriptalias then c.initScriptAliasIn env a
      else
        match (PathBuild.ofAlias a c.requestUri).run mem with
        | none => (c.sendRBadRequest env, false)
        | some mem =>
          if a.type = .redirect then
            if c.method = .post then (c.sendRBadRequest env, false)
            else (c.sendRMovedTemp env (cstr mem) [], false)
          else (c.setPathname (cstr mem), true)

/-- The re-aliasing of `path_info`, with the copies into its static buffer `mem`. -/
def translateByAliasIn (cfg : Config) (mem : Bytes) (c : Request) (info : Bytes) : Option Request :=
  if c.pathTranslated.isSome then some c
  else
    match (cfg.aliasBucket info).find? (fun a => a.fakename.val.isPrefixOf info) with
    | none => some c
    | some a =>
      match (PathBuild.ofAlias a info).run mem with
      | none => none
      | some mem => some { c with pathTranslated := some (cstr mem) }

/-- A string without a NUL that is shorter than the array it lies in. -/
def Holds (size : ℕ) (s : Bytes) : Prop := 0 ∉ s ∧ s.length < size

instance (size : ℕ) (s : Bytes) : Decidable (Holds size s) := inferInstanceAs (Decidable (_ ∧ _))

/-- The strings that paths are made of, besides those of the configuration: the arrays of the
request and the stream have the sizes of the source, and a home directory comes from the user
database. -/
structure Texts (env : Env) (c : Request) : Prop where
  uri : Holds (maxHeaderLength + 1) c.requestUri
  ip : Holds 1025 c.localIpAddr
  host : Holds (clientStreamSize + 1) (c.host.getD [])
  home : ∀ name home, env.getHomeDir name = some home → Holds (2 ^ 31) home

/-- The builds of translate_uri and init_script_alias, each with the branch it stands in and
the path it is for. -/
inductive Builds (env : Env) (c : Request) : PathBuild → Bytes → Prop
  | aliased {a : Alias} (h : findAlias env.cfg c.requestUri = some a) (ht : a.type ≠ .scriptalias) :
    Builds env c (.ofAlias a c.requestUri) (a.expand c.requestUri)
  | script {a : Alias} (h : findAlias env.cfg c.requestUri = some a) :
    Builds env c (c.scriptBuild env.cfg a) (c.scriptPath env.cfg a)
  | userDir {userDir : ConfText} {name home : Bytes} (hu : env.cfg.userDir = some userDir)
    (hd : c.requestUri.drop 1 = 126 :: name) (hn : name ≠ [])
    (hh : env.getHomeDir (name.takeWhile (· ≠ slash)) = some home) :
    Builds env c (.ofUserDir home userDir (name.dropWhile (· ≠ slash)) c.requestUri)
      (home ++ [slash] ++ userDir.val ++ name.dropWhile (· ≠ slash))
  | vhost {root : ConfText} (hv : env.cfg.vhostRoot = some root) :
    Builds env c (.ofVhost root c.localIpAddr (c.host.getD []) c.requestUri)
      (c.vhostPrefix root ++ text "htdocs" ++ c.requestUri)
  | document {root : ConfText} (hr : env.cfg.documentRoot = some root) :
    Builds env c (.ofDocument env.cfg.virtualhost root c.localIpAddr c.requestUri)
      (c.documentPath env.cfg root)
  | pathTranslated {a : Alias} {info : Bytes} (hi : Holds pathBufferSize info)
    (h : (env.cfg.aliasBucket info).find? (fun a => a.fakename.val.isPrefixOf info) = some a) :
    Builds env c (.ofAlias a info) (a.expand info)

end Request

/-! ### The builds are exact -/

namespace PathBuild

variable {b : PathBuild} {path : Bytes} {a : Alias} {uri : Bytes}

/-- Copies that abut, for a size that leaves one byte at most. -/
lemma Exact.of_abut (hd : ∀ d ∈ b.differences, d.2 ≤ d.1) (hlow : path.length + 1 ≤ b.size)
    (hhigh : b.size ≤ path.length + 2) (hlt : b.size < 2 ^ 32) (habut : Abut 0 b.copies)
    (htext : b.copies.flatMap Prod.snd = path ++ [0]) : b.Exact path := by
  refine ⟨hd, ?_⟩
  rw [Nat.mod_eq_of_lt hlt]
  by_cases hbig : pathBufferSize < b.size
  · exact .inl ⟨hbig, by omega⟩
  · refine .inr ⟨hbig, fun w hw => ?_, fun mem => ?_⟩
    · have hend := habut.end_le hw
      rw [htext, List.length_append, List.length_singleton] at hend
      omega
    · have hrun := foldl_store_abut mem [] habut
      rwa [store_zero, List.length_nil, List.drop_zero, List.nil_append, List.nil_append, htext] at hrun

lemma behind_eq {s : Bytes} {i : ℕ} (hi : i ≤ s.length) : behind s i (s.length - i + 1) = s.drop i ++ [0] := by
  unfold behind
  rw [List.drop_append_of_le_length hi, List.take_of_length_le]
  simp

lemma ofAlias_exact (h : a.fakename.val <+: uri) (huri : uri.length < pathBufferSize) :
    (ofAlias a uri).Exact (a.expand uri) := by
  have hfake := h.length_le
  have hreal := a.realname.short
  have hbuf : pathBufferSize = 1537 := rfl
  have hlen : (a.expand uri).length = a.realname.val.length + uri.length - a.fakename.val.length := by
    unfold Alias.expand
    rw [List.length_append, List.length_drop]
    omega
  have hsize : (ofAlias a uri).size = (a.expand uri).length + 1 := by
    rw [hlen]
    exact congrArg (· + 1) (unsignedSub_of_le (by omega) (by omega))
  have hrest : behind uri a.fakename.val.length (unsignedSub uri.length a.fakename.val.length + 1) =
      uri.drop a.fakename.val.length ++ [0] := by
    rw [unsignedSub_of_le hfake (by omega), behind_eq hfake]
  refine .of_abut ?_ hsize.ge (by omega) (by omega) ?_ ?_
  · simpa [ofAlias] using hfake
  · simp [ofAlias, Abut]
  · simp [ofAlias, hrest, Alias.expand]

lemma ofVhostScript_exact {root ip host : Bytes} (h : a.fakename.val <+: uri)
    (huri : uri.length < pathBufferSize) (hroot : root.length < 2 ^ 20) (hip : ip.length < 2 ^ 20)
    (hhost : host.length < 2 ^ 20) : (ofVhostScript root ip host a uri).Exact
      (root ++ [slash] ++ ip ++ [slash] ++ host ++ [slash] ++ a.expand uri) := by
  have hfake := h.length_le
  have hreal := a.realname.short
  have hbuf : pathBufferSize = 1537 := rfl
  have hsub := unsignedSub_of_le hfake (by omega)
  have hrest : behind uri a.fakename.val.length (unsignedSub uri.length a.fakename.val.length + 1) =
      uri.drop a.fakename.val.length ++ [0] := by
    rw [hsub, behind_eq hfake]
  have hsize : (ofVhostScript root ip host a uri).size =
      (root ++ [slash] ++ ip ++ [slash] ++ host ++ [slash] ++ a.expand uri).length + 1 := by
    simp only [ofVhostScript, Alias.expand, hsub, List.length_append, List.length_singleton, List.length_drop]
    omega
  have hlt : (ofVhostScript root ip host a uri).size < 2 ^ 32 := by
    simp only [ofVhostScript, hsub]
    omega
  refine .of_abut ?_ hsize.ge (by omega) hlt ?_ ?_
  · simpa [ofVhostScript] using hfake
  · simp [ofVhostScript, Abut]
  · simp [ofVhostScript, hrest, Alias.expand]

lemma ofVhost_exact {root ip host : Bytes} (huri : uri.length < pathBufferSize)
    (hroot : root.length < 2 ^ 20) (hip : ip.length < 2 ^ 20) (hhost : host.length < 2 ^ 20) :
    (ofVhost root ip host uri).Exact
      (root ++ [slash] ++ ip ++ [slash] ++ host ++ [slash] ++ text "htdocs" ++ uri) := by
  have hbuf : pathBufferSize = 1537 := rfl
  have hdocs : (text "htdocs").length = 6 := by decide +kernel
  have hsize : (ofVhost root ip host uri).size =
      (root ++ [slash] ++ ip ++ [slash] ++ host ++ [slash] ++ text "htdocs" ++ uri).length + 1 := by
    simp only [ofVhost, List.length_append, List.length_singleton]
  have hlt : (ofVhost root ip host uri).size < 2 ^ 32 := by
    simp only [ofVhost]
    omega
  refine .of_abut (by simp [ofVhost]) hsize.ge (by omega) hlt ?_ ?_
  · simp [ofVhost, Abut]
  · simp [ofVhost]

lemma ofDocument_exact {virtual : Bool} {root ip : Bytes} (huri : uri.length < pathBufferSize)
    (hroot : root.length < 2 ^ 20) (hip : ip.length < 2 ^ 20) :
    (ofDocument virtual root ip uri).Exact
      (if virtual then root ++ [slash] ++ ip ++ uri else root ++ uri) := by
  have hbuf : pathBufferSize = 1537 := rfl
  have hlt : (ofDocument virtual root ip uri).size < 2 ^ 32 := by
    simp only [ofDocument]
    split_ifs <;> omega
  cases virtual with
  | false =>
    refine .of_abut (by simp [ofDocument]) ?_ ?_ hlt ?_ ?_
    · simp [ofDocument]
    · simp [ofDocument]
      omega
    · simp [ofDocument, Abut]
    · simp [ofDocument]
  | true =>
    refine .of_abut (by simp [ofDocument]) ?_ ?_ hlt ?_ ?_
    · simp [ofDocument]
      omega
    · simp [ofDocument]
      omega
    · simp [ofDocument, Abut]
    · simp [ofDocument]

lemma ofUserDir_exact {home userDir p : Bytes} (hhome : home.length < 2 ^ 31)
    (huser : userDir.length < 2 ^ 20) (hp : p.length < pathBufferSize) (huri : 2 ≤ uri.length) :
    (ofUserDir home userDir p uri).Exact (home ++ [slash] ++ userDir ++ p) := by
  have hbuf : pathBufferSize = 1537 := rfl
  have hsize : (ofUserDir home userDir p uri).size = (home ++ [slash] ++ userDir ++ p).length + 1 := by
    simp only [ofUserDir, List.length_append, List.length_singleton]
  have hlt : (ofUserDir home userDir p uri).size < 2 ^ 32 := by
    simp only [ofUserDir]
    omega
  by_cases hnil : p = []
  · subst hnil
    refine .of_abut ?_ hsize.ge (by omega) hlt ?_ ?_
    · simpa [ofUserDir] using huri
    · simp [ofUserDir, Abut]
    · simp [ofUserDir]
  · -- the last copy overwrites the terminator of the one before
    let first : List (ℕ × Bytes) := [(0, home), (home.length, [slash]), (home.length + 1, userDir ++ [0])]
    have hcopies : (ofUserDir home userDir p uri).copies =
        first ++ [(home.length + 1 + userDir.length, p ++ [0])] := by
      simp [ofUserDir, first, hnil]
    have hfirst : Abut 0 first := by simp [first, Abut]
    have htext : first.flatMap Prod.snd = home ++ [slash] ++ userDir ++ [0] := by simp [first]
    have hlen : (home ++ [slash] ++ userDir).length = home.length + 1 + userDir.length := by
      rw [List.length_append, List.length_append, List.length_singleton]
    refine ⟨by simpa [ofUserDir] using huri, ?_⟩
    rw [Nat.mod_eq_of_lt hlt, hcopies]
    by_cases hbig : pathBufferSize < (ofUserDir home userDir p uri).size
    · exact .inl ⟨hbig, by omega⟩
    · rw [List.length_append, hlen] at hsize
      refine .inr ⟨hbig, fun w hw => ?_, fun mem => ?_⟩
      · rcases List.mem_append.mp hw with hw | hw
        · have hend := hfirst.end_le hw
          rw [htext, List.length_append, hlen, List.length_singleton] at hend
          omega
        · rw [List.mem_singleton.mp hw, List.length_append, List.length_singleton]
          show home.length + 1 + userDir.length + (p.length + 1) ≤ pathBufferSize
          omega
      · have hrun := foldl_store_abut mem [] hfirst
        rw [store_zero, List.length_nil, List.drop_zero, List.nil_append, List.nil_append, htext] at hrun
        have hlast : [(0 : UInt8)].length ≤ (p ++ [0]).length := by simp
        rw [List.foldl_append, hrun, List.foldl_cons, List.foldl_nil, ← hlen, store_store hlast,
          List.append_assoc _ p]

/-- What an exact build leaves for the caller. -/
lemma Exact.run_eq (h : b.Exact path) (hnul : 0 ∉ path) (mem : Bytes) :
    (b.run mem).map cstr = if pathBufferSize < b.size % 2 ^ 32 then none else some path := by
  unfold run
  obtain ⟨hbig, -⟩ | ⟨hfit, -, hrun⟩ := h.built
  · rw [if_pos hbig, if_pos hbig]
    rfl
  · have hstr : store mem 0 (path ++ [0]) = path ++ 0 :: mem.drop (path ++ [0]).length := by
      rw [store_zero, List.append_assoc]
      rfl
    rw [if_neg hfit, if_neg hfit, hrun, Option.map_some, hstr, cstr_append_nul hnul]

end PathBuild

lemma ConfText.short_bound (t : ConfText) : t.val.length < 2 ^ 20 := t.short.trans (by decide)

namespace Request

variable {env : Env} {c : Request} {b : PathBuild} {path : Bytes} {a : Alias}

lemma prefix_of_findAlias {cfg : Config} {uri : Bytes} (h : findAlias cfg uri = some a) :
    a.fakename.val <+: uri := by
  have hm := List.find?_some (p := fun a : Alias => a.matchesUri uri) h
  unfold Alias.matchesUri at hm
  rw [Bool.and_eq_true, List.isPrefixOf_iff_prefix] at hm
  exact hm.1

lemma prefix_of_find? {as : List Alias} {info : Bytes}
    (h : as.find? (fun a => a.fakename.val.isPrefixOf info) = some a) : a.fakename.val <+: info :=
  List.isPrefixOf_iff_prefix.mp (List.find?_some (p := fun a : Alias => a.fakename.val.isPrefixOf info) h)

/-- Every build is exact. -/
lemma Builds.exact (h : c.Builds env b path) (hc : c.Texts env) : b.Exact path := by
  have hbuf : pathBufferSize = 1537 := rfl
  have hmax : maxHeaderLength = 1536 := rfl
  have hstream : clientStreamSize = 8192 := rfl
  have huri : c.requestUri.length < pathBufferSize := hc.uri.2
  have hip := hc.ip.2
  have hhost := hc.host.2
  cases h with
  | aliased h ht => exact PathBuild.ofAlias_exact (prefix_of_findAlias h) huri
  | script h =>
    unfold scriptBuild scriptPath
    cases hv : env.cfg.vhostRoot with
    | none => exact PathBuild.ofAlias_exact (prefix_of_findAlias h) huri
    | some root =>
      exact PathBuild.ofVhostScript_exact (prefix_of_findAlias h) huri root.short_bound (by omega) (by omega)
  | @userDir _ name _ hu hd hn hh =>
    have hlen := congrArg List.length hd
    have hpos := List.length_pos_iff.mpr hn
    have hrest : (name.dropWhile (· ≠ slash)).length ≤ name.length := (List.dropWhile_suffix _).length_le
    rw [List.length_drop, List.length_cons] at hlen
    exact PathBuild.ofUserDir_exact (hc.home _ _ hh).2 (ConfText.short_bound _) (by omega) (by omega)
  | vhost hv => exact PathBuild.ofVhost_exact huri (ConfText.short_bound _) (by omega) (by omega)
  | document hr => exact PathBuild.ofDocument_exact huri (ConfText.short_bound _) (by omega)
  | pathTranslated hi h => exact PathBuild.ofAlias_exact (prefix_of_find? h) hi.2

lemma Holds.not_mem {n : ℕ} {s : Bytes} (h : Holds n s) : 0 ∉ s := h.1

lemma not_mem_expand {uri : Bytes} (h : 0 ∉ uri) : 0 ∉ a.expand uri := by
  unfold Alias.expand
  rw [List.mem_append, not_or]
  exact ⟨a.realname.noNul, not_mem_drop h _⟩

/-- The three document branches. -/
lemma buildPathIn_eq (mem : Bytes) (h : b.Exact path) (hnul : 0 ∉ path) (hlt : b.size < 2 ^ 32) :
    c.buildPathIn env mem b = c.buildPath env b.size path := by
  have hrun := h.run_eq hnul mem
  unfold buildPathIn buildPath
  rw [Nat.mod_eq_of_lt hlt] at hrun
  split_ifs at hrun ⊢ with hbig
  · rw [Option.map_eq_none_iff] at hrun
    rw [hrun]
  · obtain ⟨m, hm, hstr⟩ := Option.map_eq_some_iff.mp hrun
    rw [hm]
    dsimp only
    rw [hstr]

lemma not_mem_vhostPrefix (hc : c.Texts env) (root : ConfText) : 0 ∉ c.vhostPrefix root := by
  have hslash : (0 : UInt8) ≠ slash := by decide
  simp [vhostPrefix, root.noNul, hc.ip.not_mem, hc.host.not_mem, hslash]

lemma userDirPathIn_eq (mem : Bytes) (hc : c.Texts env) {userDir : ConfText} {name : Bytes}
    (hu : env.cfg.userDir = some userDir) (hd : c.requestUri.drop 1 = 126 :: name) :
    c.userDirPathIn env mem userDir name = c.userDirPath env userDir name := by
  unfold userDirPathIn userDirPath
  split_ifs with hname
  · rfl
  · cases hh : env.getHomeDir (name.takeWhile (· ≠ slash)) with
    | none => rfl
    | some home =>
      have hbuild := Builds.userDir (c := c) hu hd hname hh
      have hhome := hc.home _ _ hh
      have hsuffix := List.dropWhile_suffix (p := fun x => decide (x ≠ slash)) (l := name)
      have hrest : 0 ∉ name.dropWhile (· ≠ slash) := by
        intro hmem
        have hin : (0 : UInt8) ∈ c.requestUri.drop 1 := by
          rw [hd]
          exact List.mem_cons_of_mem _ (hsuffix.subset hmem)
        exact hc.uri.not_mem (List.mem_of_mem_drop hin)
      refine buildPathIn_eq mem (hbuild.exact hc) ?_ ?_
      · have hslash : (0 : UInt8) ≠ slash := by decide
        simp only [List.mem_append, List.mem_singleton, not_or]
        exact ⟨⟨⟨hhome.not_mem, hslash⟩, userDir.noNul⟩, hrest⟩
      · have hmax : maxHeaderLength = 1536 := rfl
        have huri := hc.uri.2
        have hlen := userDir.short_bound
        have hlong := hhome.2
        have hle := hsuffix.length_le
        have hdrop := congrArg List.length hd
        rw [List.length_drop, List.length_cons] at hdrop
        simp only [PathBuild.ofUserDir]
        omega

lemma vhostPathIn_eq (mem : Bytes) (hc : c.Texts env) {root : ConfText}
    (hv : env.cfg.vhostRoot = some root) :
    c.buildPathIn env mem (.ofVhost root c.localIpAddr (c.host.getD []) c.requestUri) =
      c.buildPath env ((c.vhostPrefix root ++ text "htdocs" ++ c.requestUri).length + 1)
        (c.vhostPrefix root ++ text "htdocs" ++ c.requestUri) := by
  have hsize : (PathBuild.ofVhost root c.localIpAddr (c.host.getD []) c.requestUri).size =
      (c.vhostPrefix root ++ text "htdocs" ++ c.requestUri).length + 1 := by
    simp only [PathBuild.ofVhost, vhostPrefix, List.length_append, List.length_singleton]
  have hpath : 0 ∉ c.vhostPrefix root ++ text "htdocs" ++ c.requestUri := by
    have hdocs : (0 : UInt8) ∉ text "htdocs" := by decide +kernel
    simp only [List.mem_append, not_or]
    exact ⟨⟨not_mem_vhostPrefix hc root, hdocs⟩, hc.uri.not_mem⟩
  rw [← hsize]
  refine buildPathIn_eq mem ((Builds.vhost hv).exact hc) hpath ?_
  have hdocs : (text "htdocs").length = 6 := by decide +kernel
  have hmax : maxHeaderLength = 1536 := rfl
  have hstream : clientStreamSize = 8192 := rfl
  have huri := hc.uri.2
  have hip := hc.ip.2
  have hhost := hc.host.2
  have hlen := root.short_bound
  simp only [PathBuild.ofVhost]
  omega

lemma documentPathIn_eq (mem : Bytes) (hc : c.Texts env) {root : ConfText}
    (hr : env.cfg.documentRoot = some root) :
    c.buildPathIn env mem (.ofDocument env.cfg.virtualhost root c.localIpAddr c.requestUri) =
      c.buildPath env (root.val.length + 1 + c.requestUri.length +
        (if env.cfg.virtualhost then c.localIpAddr.length else 0) + 1) (c.documentPath env.cfg root) := by
  have hpath : 0 ∉ c.documentPath env.cfg root := by
    have hslash : (0 : UInt8) ≠ slash := by decide
    unfold documentPath
    split_ifs <;> simp [root.noNul, hslash, hc.ip.not_mem, hc.uri.not_mem]
  refine buildPathIn_eq mem ((Builds.document hr).exact hc) hpath ?_
  have hmax : maxHeaderLength = 1536 := rfl
  have huri := hc.uri.2
  have hip := hc.ip.2
  have hlen := root.short_bound
  simp only [PathBuild.ofDocument]
  split_ifs <;> omega

/-- Two computations that branch alike at a `~`. -/
lemma userDir_rel {α β : Type} {r : α → β → Prop} {o : Option ConfText} {s : Bytes}
    {f : ConfText → Bytes → α} {f' : ConfText → Bytes → β} {g : α} {g' : β} :
    (∀ u name, o = some u → s = 126 :: name → r (f u name) (f' u name)) →
    ((∀ u name, o = some u → s = 126 :: name → False) → r g g') →
    r (match o, s with
      | some u, 126 :: name => f u name
      | _, _ => g) (match o, s with
      | some u, 126 :: name => f' u name
      | _, _ => g') := by
  intro hf hg
  split
  · exact hf _ _ rfl rfl
  · next hother => exact hg hother

lemma translatePlainIn_eq (mem : Bytes) (hc : c.Texts env) : c.translatePlainIn env mem = c.translatePlain env := by
  unfold translatePlainIn translatePlain
  apply userDir_rel (r := Eq)
  · intro userDir name hu hd
    exact userDirPathIn_eq mem hc hu hd
  · intro _
    cases hv : env.cfg.vhostRoot with
    | some root => exact vhostPathIn_eq mem hc hv
    | none =>
      cases hr : env.cfg.documentRoot with
      | some root => exact documentPathIn_eq mem hc hr
      | none => rfl

lemma aliasIn_eq {β : Type} {uri : Bytes} (h : a.fakename.val <+: uri) (huri : Holds pathBufferSize uri)
    (mem : Bytes) (z : β) (f : Bytes → β) :
    (match (PathBuild.ofAlias a uri).run mem with
      | none => z
      | some mem => f (cstr mem)) =
      if pathBufferSize < (a.expand uri).length + 1 then z else f (a.expand uri) := by
  have hbuf : pathBufferSize = 1537 := rfl
  have hfake := h.length_le
  have hlen := a.realname.short_bound
  have hshort := huri.2
  have hlong : (a.expand uri).length = a.realname.val.length + uri.length - a.fakename.val.length := by
    unfold Alias.expand
    rw [List.length_append, List.length_drop]
    omega
  have hsize : (PathBuild.ofAlias a uri).size = (a.expand uri).length + 1 := by
    rw [hlong]
    exact congrArg (· + 1) (unsignedSub_of_le (by omega) (by omega))
  have hrun := (PathBuild.ofAlias_exact h hshort).run_eq (not_mem_expand huri.not_mem) mem
  rw [hsize, Nat.mod_eq_of_lt (by omega)] at hrun
  split_ifs at hrun ⊢ with hbig
  · rw [Option.map_eq_none_iff] at hrun
    rw [hrun]
  · obtain ⟨m, hm, hstr⟩ := Option.map_eq_some_iff.mp hrun
    rw [hm]
    dsimp only
    rw [hstr]

lemma scriptBuild_size (hc : c.Texts env) (h : findAlias env.cfg c.requestUri = some a) :
    (c.scriptBuild env.cfg a).size = (c.scriptPath env.cfg a).length + 1 ∧
      (c.scriptBuild env.cfg a).size < 2 ^ 32 := by
  have hmax : maxHeaderLength = 1536 := rfl
  have hstream : clientStreamSize = 8192 := rfl
  have hfake := (prefix_of_findAlias h).length_le
  have huri := hc.uri.2
  have hip := hc.ip.2
  have hhost := hc.host.2
  have hlen := a.realname.short_bound
  have hsub := unsignedSub_of_le hfake (by omega)
  have hsum : unsignedSub (a.realname.val.length + c.requestUri.length) a.fakename.val.length = _ :=
    unsignedSub_of_le (by omega) (by omega)
  unfold scriptBuild scriptPath
  cases hv : env.cfg.vhostRoot with
  | none =>
    simp only [PathBuild.ofAlias, hsum, Alias.expand, List.length_append, List.length_drop]
    omega
  | some root =>
    have hroot := root.short_bound
    simp only [PathBuild.ofVhostScript, vhostPrefix, hsub, Alias.expand, List.length_append,
      List.length_drop, List.length_singleton]
    omega

lemma initScriptAliasIn_eq (hc : c.Texts env) (h : findAlias env.cfg c.requestUri = some a) :
    c.initScriptAliasIn env a = c.initScriptAlias env a := by
  obtain ⟨hsize, hlt⟩ := scriptBuild_size hc h
  have hbuilt := ((Builds.script h).exact hc).built
  unfold initScriptAliasIn initScriptAlias PathBuild.run
  rw [Nat.mod_eq_of_lt hlt] at hbuilt ⊢
  obtain ⟨hbig, -⟩ | ⟨hfit, -, hrun⟩ := hbuilt
  · rw [if_pos hbig]
    rw [hsize] at hbig
    dsimp only
    rw [if_pos hbig]
  · rw [if_neg hfit, hrun]
    rw [hsize] at hfit
    dsimp only
    rw [if_neg hfit]

lemma translateUriIn_eq (mem : Bytes) (hc : c.Texts env) : c.translateUriIn env mem = c.translateUri env := by
  unfold translateUriIn translateUri
  by_cases hhead : c.requestUri.head? ≠ some slash
  · rw [if_pos hhead, if_pos hhead]
  · rw [if_neg hhead, if_neg hhead]
    cases h : findAlias env.cfg c.requestUri with
    | none => exact translatePlainIn_eq mem hc
    | some a =>
      dsimp only
      by_cases ht : a.type = .scriptalias
      · rw [if_pos ht, if_pos ht]
        exact initScriptAliasIn_eq hc h
      · rw [if_neg ht, if_neg ht]
        exact aliasIn_eq (prefix_of_findAlias h) hc.uri mem _ fun path =>
          if a.type = .redirect then
            if c.method = .post then (c.sendRBadRequest env, false)
            else (c.sendRMovedTemp env path [], false)
          else (c.setPathname path, true)

/-- In each branch the size is that of the path with its terminator, or one more; the copies
stay inside the buffer and leave the path there; no difference of lengths is negative. The
branches with their copies are those of the model. -/
theorem paths_exact (hc : c.Texts env) :
    (∀ b path, c.Builds env b path → b.Exact path) ∧
      (∀ mem, c.translateUriIn env mem = c.translateUri env) ∧
      ∀ mem info, Holds pathBufferSize info →
        c.translateByAliasIn env.cfg mem info = c.translateByAlias env.cfg info := by
  refine ⟨fun b path hb => hb.exact hc, fun mem => translateUriIn_eq mem hc, fun mem info hi => ?_⟩
  unfold translateByAliasIn translateByAlias
  split_ifs
  · rfl
  · cases h : (env.cfg.aliasBucket info).find? (fun a => a.fakename.val.isPrefixOf info) with
    | none => rfl
    | some a =>
      exact aliasIn_eq (prefix_of_find? h) hi mem none fun path =>
        some { c with pathTranslated := some path }

/-- A user with a home directory. -/
def homeEnv : Env where
  cfg := { tinyConfig with userDir := some (confText "web" (by decide +kernel)) }
  fs := tinyFiles
  gmtime := tinyEnv.gmtime
  getHomeDir := fun name => if name = text "ann" then some (text "/home/ann") else none

def homeRequest : Request := { requestUri := text "/~ann/f", host := some [] }

lemma homeRequest_texts : homeRequest.Texts homeEnv := by
  refine ⟨by decide +kernel, by decide +kernel, by decide +kernel, fun name home h => ?_⟩
  have hhome : Holds (2 ^ 31) (text "/home/ann") := by decide +kernel
  unfold homeEnv at h
  dsimp only at h
  split_ifs at h
  exact Option.some.inj h ▸ hhome

theorem paths_exact_home :
    (PathBuild.ofUserDir (text "/home/ann") (text "web") (text "/f") (text "/~ann/f")).Exact
        (text "/home/ann/web/f") ∧
      ∀ mem, homeRequest.translateUriIn homeEnv mem = homeRequest.translateUri homeEnv := by
  obtain ⟨hexact, htranslate, -⟩ := paths_exact homeRequest_texts
  have huri : homeRequest.requestUri.drop 1 = 126 :: text "ann/f" := by decide +kernel
  have hhome : homeEnv.getHomeDir ((text "ann/f").takeWhile (· ≠ slash)) = some (text "/home/ann") := by
    decide +kernel
  have hbuild := Builds.userDir rfl huri (by decide +kernel) hhome
  have hname : (text "ann/f").dropWhile (· ≠ slash) = text "/f" := by decide +kernel
  have hpath : text "/home/ann" ++ [slash] ++ text "web" ++ text "/f" = text "/home/ann/web/f" := by
    decide +kernel
  rw [hname] at hbuild
  refine ⟨?_, htranslate⟩
  rw [← hpath]
  exact hexact _ _ hbuild

/-! ### NPH scripts -/

/-- What the URI has behind the alias begins with a script's name `nph-`. -/
def nphName (rest : Bytes) : Prop :=
  text "nph-" <+: if rest.head? = some slash then rest.tail else rest

/-- The type of the script follows from its name, unless the URI is too long. -/
def CgiTypeRight (env : Env) (c : Request) (a : Alias) : Prop :=
  pathBufferSize < (c.scriptPath env.cfg a).length + 1 ∨
    ((c.initScriptAlias env a).1.cgiType = .nph ↔ nphName (c.requestUri.drop a.fakename.val.length)) ∧
    ((c.initScriptAlias env a).1.cgiType = .cgi ↔ ¬ nphName (c.requestUri.drop a.fakename.val.length))

/-- Where the name is looked for: at the length of the real name from the start of the path. -/
def NphSeen (cfg : Config) (c : Request) (a : Alias) : Prop :=
  let rest := c.requestUri.drop a.fakename.val.length
  match cfg.vhostRoot with
  | none => ¬ text "/nph-" <+: rest
  | some root =>
    (nphName rest ↔ text "nph-" <+: (c.vhostPrefix root ++ a.realname.val).drop a.realname.val.length ++ rest)

instance (rest : Bytes) : Decidable (nphName rest) := inferInstanceAs (Decidable (_ <+: _))

lemma refused_cgiType {d d' : Request} (h : Refused d d') : d'.cgiType = d.cgiType := by
  obtain ⟨o, code, rfl, -⟩ := h
  rfl

lemma setPathname_cgiType (c : Request) (path : Bytes) : (c.setPathname path).cgiType = c.cgiType := by
  unfold setPathname
  split_ifs <;> rfl

lemma setScriptName_cgiType (c : Request) (name : Bytes) : (c.setScriptName name).cgiType = c.cgiType := by
  unfold setScriptName
  split_ifs <;> rfl

lemma cutScriptName_cgiType (c : Request) (n : ℕ) : (c.cutScriptName n).cgiType = c.cgiType := by
  unfold cutScriptName
  split
  · rfl
  · split_ifs <;> rfl

lemma translatePathInfo_cgiType (env : Env) (c : Request) (info : Bytes) :
    (c.translatePathInfo env info).1.cgiType = c.cgiType := by
  obtain ⟨pt, he⟩ | ⟨d, pt, he, hr⟩ := translatePathInfo_cases env c info
  · rw [he]
  · rw [he]
    exact (refused_cgiType hr).trans rfl

/-- The type is set once, before the scan. -/
lemma scanScript_cgiType (env : Env) (c : Request) (a : Alias) (mem : Bytes) :
    (c.scanScript env a mem).1.cgiType =
      if (text "nph-").isPrefixOf (cstr (mem.drop a.realname.val.length)) ||
        decide (c.httpVersion = .http09) then .nph else .cgi := by
  unfold scanScript
  dsimp only
  generalize (if ((text "nph-").isPrefixOf (cstr (List.drop a.realname.val.length mem)) ||
    decide (c.httpVersion = Version.http09)) = true then CgiType.nph else CgiType.cgi) = t
  split
  · exact refused_cgiType (sendRNotFound_refused env _)
  · exact refused_cgiType (sendRForbidden_refused env _)
  · split
    · exact (refused_cgiType (sendRNotFound_refused env _)).trans (setScriptName_cgiType _ _)
    · exact (refused_cgiType (sendRForbidden_refused env _)).trans (setScriptName_cgiType _ _)
    · exact (refused_cgiType (sendRForbidden_refused env _)).trans (setScriptName_cgiType _ _)
    · exact (setPathname_cgiType _ _).trans (setScriptName_cgiType _ _)
  · next i _ =>
    have hscript : (cutScriptName { setScriptName { c with cgiType := t } c.requestUri with
        pathInfo := some (cstr (mem.drop i)) } (cstr (mem.drop i)).length).cgiType = t :=
      (cutScriptName_cgiType _ _).trans (setScriptName_cgiType { c with cgiType := t } c.requestUri)
    have hinfo := (translatePathInfo_cgiType env _ (cstr (mem.drop i))).trans hscript
    split
    · next heq => rwa [heq] at hinfo
    · next heq =>
      rw [heq] at hinfo
      exact (setPathname_cgiType _ _).trans hinfo

/-- For a pattern without a NUL nothing behind the terminator matters. -/
lemma isPrefix_cstr {p : Bytes} (hp : 0 ∉ p) (s tail : Bytes) : p <+: cstr (s ++ 0 :: tail) ↔ p <+: s := by
  induction p generalizing s with
  | nil => simp
  | cons x p ih =>
    have hx : x ≠ 0 := fun he => hp (he ▸ List.mem_cons_self)
    have hrest : 0 ∉ p := fun hm => hp (List.mem_cons_of_mem _ hm)
    cases s with
    | nil => simp [cstr]
    | cons y s =>
      by_cases hy : y = 0
      · simp [cstr, hy, hx]
      · have hcstr : cstr ((y :: s) ++ 0 :: tail) = y :: cstr (s ++ 0 :: tail) := by
          simp [cstr, hy]
        rw [hcstr, List.cons_prefix_cons, List.cons_prefix_cons, ih hrest]

lemma nphName_iff (rest : Bytes) : nphName rest ↔ text "nph-" <+: rest ∨ text "/nph-" <+: rest := by
  have hname : text "nph-" = [110, 112, 104, 45] := by decide +kernel
  have hslash : text "/nph-" = slash :: text "nph-" := by decide +kernel
  unfold nphName
  rcases rest with _ | ⟨b, rest⟩
  · simp [hname, hslash]
  · by_cases hb : b = slash
    · subst hb
      have hne : (110 : UInt8) ≠ slash := by decide
      simp [hname, hslash, hne]
    · have hne : slash ≠ b := fun he => hb he.symm
      simp [hslash, hb, hne]

lemma initScriptAlias_cgiType (env : Env) (c : Request) (a : Alias) (hv : c.httpVersion ≠ .http09)
    (hfit : ¬ pathBufferSize < (c.scriptPath env.cfg a).length + 1) :
    (c.initScriptAlias env a).1.cgiType =
      if text "nph-" <+: (c.scriptPath env.cfg a).drop a.realname.val.length then .nph else .cgi := by
  have hnul : 0 ∉ text "nph-" := by decide +kernel
  have hlen : a.realname.val.length ≤ (c.scriptPath env.cfg a).length := by
    unfold scriptPath Alias.expand
    split <;> simp only [List.length_append] <;> omega
  have hmem : store env.staticPathname 0 (c.scriptPath env.cfg a ++ [0]) =
      c.scriptPath env.cfg a ++ 0 :: env.staticPathname.drop (c.scriptPath env.cfg a ++ [0]).length := by
    rw [store_zero, List.append_assoc]
    rfl
  unfold initScriptAlias
  dsimp only
  rw [if_neg hfit, scanScript_cgiType, hmem, List.drop_append_of_le_length hlen, decide_eq_false hv,
    Bool.or_false]
  simp only [List.isPrefixOf_iff_prefix, isPrefix_cstr hnul]

/-- The test is right exactly where a name behind a `/` does not begin with `nph-`, and with
VHostRoot where the text at that offset happens to agree. -/
theorem cgiType_right_iff (env : Env) (c : Request) (a : Alias) (hv : c.httpVersion ≠ .http09) :
    CgiTypeRight env c a ↔
      pathBufferSize < (c.scriptPath env.cfg a).length + 1 ∨ NphSeen env.cfg c a := by
  by_cases hbig : pathBufferSize < (c.scriptPath env.cfg a).length + 1
  · exact ⟨fun _ => .inl hbig, fun _ => .inl hbig⟩
  · unfold CgiTypeRight
    rw [or_iff_right hbig, or_iff_right hbig, initScriptAlias_cgiType env c a hv hbig]
    generalize hrest : c.requestUri.drop a.fakename.val.length = rest
    have hseen : NphSeen env.cfg c a ↔
        (text "nph-" <+: (c.scriptPath env.cfg a).drop a.realname.val.length ↔ nphName rest) := by
      unfold NphSeen scriptPath Alias.expand
      dsimp only
      rw [hrest]
      cases env.cfg.vhostRoot with
      | none =>
        dsimp only
        rw [List.drop_left, nphName_iff]
        have hone : text "/nph-" <+: rest → ¬ text "nph-" <+: rest := by
          intro h1 h2
          have hpre := List.prefix_of_prefix_length_le h2 h1 (by decide +kernel)
          exact absurd hpre (by decide +kernel)
        constructor
        · intro hnot
          exact ⟨.inl, fun h => h.resolve_right hnot⟩
        · intro hiff h1
          exact hone h1 (hiff.mpr (.inr h1))
      | some root =>
        dsimp only
        have hle : a.realname.val.length ≤ (c.vhostPrefix root ++ a.realname.val).length := by
          rw [List.length_append]
          omega
        have hdrop : (c.vhostPrefix root ++ (a.realname.val ++ rest)).drop a.realname.val.length =
            (c.vhostPrefix root ++ a.realname.val).drop a.realname.val.length ++ rest := by
          rw [← List.append_assoc, List.drop_append_of_le_length hle]
        rw [hdrop]
        exact Iff.comm
    rw [hseen]
    split_ifs with hp <;> simp [hp]

/-- With VHostRoot the test does not look at the script's name at all: where it looks, there are only
VHostRoot, the server's address, the host and the real name. Unless `nph-` is there, it is right exactly
for the names without it. -/
theorem nphSeen_vhost {cfg : Config} {c : Request} {a : Alias} {root : ConfText} (hr : cfg.vhostRoot = some root)
    (hip : c.localIpAddr ≠ []) :
    (NphSeen cfg c a ↔ (nphName (c.requestUri.drop a.fakename.val.length) ↔
      text "nph-" <+: (c.vhostPrefix root ++ a.realname.val).drop a.realname.val.length)) ∧
    (¬ text "nph-" <:+: c.vhostPrefix root ++ a.realname.val →
      (NphSeen cfg c a ↔ ¬ nphName (c.requestUri.drop a.fakename.val.length))) := by
  have hlong : (text "nph-").length ≤ ((c.vhostPrefix root ++ a.realname.val).drop a.realname.val.length).length := by
    have hfour : (text "nph-").length = 4 := by decide +kernel
    have hpos := List.length_pos_of_ne_nil hip
    simp only [vhostPrefix, List.length_drop, List.length_append, List.length_singleton]
    omega
  have hwithin (s : Bytes) : text "nph-" <+: (c.vhostPrefix root ++ a.realname.val).drop a.realname.val.length ++ s ↔
      text "nph-" <+: (c.vhostPrefix root ++ a.realname.val).drop a.realname.val.length :=
    ⟨fun h => List.prefix_of_prefix_length_le h (List.prefix_append _ _) hlong, fun h => h.trans (List.prefix_append _ _)⟩
  have hseen : NphSeen cfg c a ↔ (nphName (c.requestUri.drop a.fakename.val.length) ↔
      text "nph-" <+: (c.vhostPrefix root ++ a.realname.val).drop a.realname.val.length) := by
    unfold NphSeen
    rw [hr]
    exact iff_congr Iff.rfl (hwithin _)
  refine ⟨hseen, fun hno => hseen.trans ?_⟩
  have hnot : ¬ text "nph-" <+: (c.vhostPrefix root ++ a.realname.val).drop a.realname.val.length :=
    fun h => hno (h.isInfix.trans (List.drop_suffix _ _).isInfix)
  rw [iff_false_right hnot]

/-- Script directories, named with and without a `/` at the end. -/
def slashedScripts : Alias := ⟨confText "/c/" (by decide +kernel), confText "/d/" (by decide +kernel),
  .scriptalias, by decide +kernel, by decide +kernel⟩

def plainScripts : Alias := ⟨confText "/c" text_c, confText "/d" text_d, .scriptalias, by decide +kernel,
  by decide +kernel⟩

def nphRequest : Request := { requestUri := text "/c/nph-a", httpVersion := .http10 }

theorem cgiType_right_slashed : nphRequest.httpVersion ≠ .http09 ∧
    CgiTypeRight tinyEnv nphRequest slashedScripts := by
  have hv : nphRequest.httpVersion ≠ .http09 := by decide
  have hseen : ¬ text "/nph-" <+: nphRequest.requestUri.drop slashedScripts.fakename.val.length := by
    decide +kernel
  exact ⟨hv, (cgiType_right_iff tinyEnv nphRequest slashedScripts hv).mpr (.inr hseen)⟩

/-- The `nph-` of `/c/nph-a` is missed with `ScriptAlias /c /d`. -/
theorem cgiType_misses_plain : plainScripts.type = .scriptalias ∧
    plainScripts.matchesUri nphRequest.requestUri ∧ nphRequest.httpVersion ≠ .http09 ∧
    nphName (nphRequest.requestUri.drop plainScripts.fakename.val.length) ∧
    (nphRequest.initScriptAlias tinyEnv plainScripts).1.cgiType = .cgi ∧
    ¬ CgiTypeRight tinyEnv nphRequest plainScripts := by
  have hname : nphName (nphRequest.requestUri.drop plainScripts.fakename.val.length) := by decide +kernel
  have hcgi : (nphRequest.initScriptAlias tinyEnv plainScripts).1.cgiType = .cgi := by decide +kernel
  have hfit : ¬ pathBufferSize < (nphRequest.scriptPath tinyEnv.cfg plainScripts).length + 1 := by
    decide +kernel
  refine ⟨rfl, by decide +kernel, by decide, hname, hcgi, ?_⟩
  rintro (hbig | ⟨hnph, -⟩)
  · exact hfit hbig
  · rw [hcgi] at hnph
    exact absurd (hnph.mpr hname) nofun

end Request
end Boa
