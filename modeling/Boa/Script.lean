import Boa.Delivery

/-! `init_script_alias` and its static buffer: which leftovers of earlier requests it can
see, and where it cuts `script_name`. -/
namespace Boa
open Memory History

/-- What the static `pathname` can hold: every string copied to it fits with its terminator,
so that the last byte stays a NUL. -/
def Scratch (m : Bytes) : Prop := m.length = pathBufferSize ∧ m[maxHeaderLength]? = some 0

instance (m : Bytes) : Decidable (Scratch m) := inferInstanceAs (Decidable (_ ∧ _))

/-- The server with `m` left in the static buffer. -/
def Env.leftWith (env : Env) (m : Bytes) : Env := { env with staticPathname := m }

/-- What `init_script_alias` hands to its callers. -/
def scriptOutcome (r : Request × Bool) :=
  (r.2, r.1.responseStatus, r.1.cgiType, r.1.pathname, r.1.pathInfo, r.1.scriptName,
    r.1.pathTranslated)

/-- The part of `path` before its `/` at `j` is the first one from `lo` on that is no
directory, and it is a script. -/
structure FirstScript (fs : FileSys) (path : Bytes) (lo j : ℕ) : Prop where
  le : lo ≤ j
  at_slash : path[j]? = some slash
  script : fs.scriptCheck (path.take j) = .ok
  dirs : ∀ k, lo ≤ k → k < j → path[k]? = some slash → fs.scriptCheck (path.take k) = .dir

section Scan

variable {fs : FileSys} {path tail : Bytes}

lemma not_mem_take (h : 0 ∉ path) (i : ℕ) : 0 ∉ path.take i := fun hm => h (List.mem_of_mem_take hm)

lemma not_mem_drop (h : 0 ∉ path) (i : ℕ) : 0 ∉ path.drop i := fun hm => h (List.mem_of_mem_drop hm)

/-- The scan stops at the terminator of its own path at the latest. -/
lemma scanComponents_append (s : Bytes) (i : ℕ) (hs : path.drop i = s)
    (hi : i ≤ path.length) :
    scanComponents fs (path ++ 0 :: tail) i (s ++ 0 :: tail) = scanComponents fs path i s := by
  induction s generalizing i with
  | nil => simp [scanComponents]
  | cons x s ih =>
    have hlt : i < path.length := by
      have hlen := congrArg List.length hs
      simp only [List.length_drop, List.length_cons] at hlen
      omega
    have hnext : path.drop (i + 1) = s := by
      rw [← List.drop_drop, hs]
      rfl
    have htake : (path ++ 0 :: tail).take i = path.take i := List.take_append_of_le_length hi
    simp only [List.cons_append, scanComponents, htake]
    rw [ih (i + 1) hnext hlt]

/-- Where the scan of a path without NUL ends. -/
lemma scanComponents_slashAt (h : 0 ∉ path) (s : Bytes) (i : ℕ) (hs : path.drop i = s) (j : ℕ) :
    scanComponents fs path i s = .slashAt j ↔ FirstScript fs path i j := by
  induction s generalizing i with
  | nil =>
    refine ⟨nofun, fun hf => ?_⟩
    have hj := hf.le
    have hlen := (List.getElem?_eq_some_iff.mp hf.at_slash).1
    have hdrop := congrArg List.length hs
    simp only [List.length_drop, List.length_nil] at hdrop
    omega
  | cons x s ih =>
    have hx : path[i]? = some x := by
      have hd : (path.drop i)[0]? = some x := by rw [hs]; rfl
      simpa using hd
    have hnext : path.drop (i + 1) = s := by
      rw [← List.drop_drop, hs]
      rfl
    have hne : x ≠ 0 := by
      rintro rfl
      exact h (List.mem_of_getElem? hx)
    have hcstr : cstr (path.take i) = path.take i := cstr_of_not_mem (not_mem_take h i)
    have hstep : (path[i]? = some slash → fs.scriptCheck (path.take i) = .dir) →
        (FirstScript fs path (i + 1) j ↔ FirstScript fs path i j) := by
      intro hdir
      constructor
      · intro hf
        refine ⟨by have := hf.le; omega, hf.at_slash, hf.script, fun k hk hkj hks => ?_⟩
        obtain rfl | hlt := Nat.eq_or_lt_of_le hk
        · exact hdir hks
        · exact hf.dirs k hlt hkj hks
      · intro hf
        refine ⟨?_, hf.at_slash, hf.script, fun k hk => hf.dirs k (Nat.le_of_succ_le hk)⟩
        obtain he | hlt := Nat.eq_or_lt_of_le hf.le
        · subst he
          have hok := hf.script
          rw [hdir hf.at_slash] at hok
          exact absurd hok nofun
        · exact hlt
    unfold scanComponents
    rw [if_neg hne, hcstr]
    by_cases hslash : x = slash
    · subst hslash
      rw [if_pos rfl]
      have hnot : ∀ k, fs.scriptCheck (path.take i) = k → k ≠ .dir → k ≠ .ok →
          ¬ FirstScript fs path i j := by
        intro k hk hd ho hf
        obtain he | hlt := Nat.eq_or_lt_of_le hf.le
        · subst he
          exact ho (hk.symm.trans hf.script)
        · exact hd (hk.symm.trans (hf.dirs i le_rfl hlt hx))
      cases hc : fs.scriptCheck (path.take i) with
      | missing => exact ⟨nofun, fun hf => absurd hf (hnot _ hc nofun nofun)⟩
      | refused => exact ⟨nofun, fun hf => absurd hf (hnot _ hc nofun nofun)⟩
      | dir => exact (ih (i + 1) hnext).trans (hstep fun _ => hc)
      | ok =>
        constructor
        · intro he
          cases he
          exact ⟨le_rfl, hx, hc, fun k h1 h2 => absurd h1 (Nat.not_le_of_lt h2)⟩
        · intro hf
          obtain he | hlt := Nat.eq_or_lt_of_le hf.le
          · rw [he]
          · have hd := hf.dirs i le_rfl hlt hx
            rw [hc] at hd
            exact absurd hd nofun
    · rw [if_neg hslash]
      refine (ih (i + 1) hnext).trans (hstep fun hs => ?_)
      rw [hx] at hs
      exact absurd (Option.some.inj hs) hslash

end Scan

section Outcome

variable {env : Env} {c : Request} {a : Alias} {path tail : Bytes}

/-- With something of the URI behind the real name, nothing behind the path is looked at. -/
lemma scanScript_append (h : 0 ∉ path) (hlen : a.realname.val.length < path.length) :
    c.scanScript env a (path ++ 0 :: tail) = c.scanScript env a path := by
  have hdrop : ∀ i ≤ path.length, (path ++ 0 :: tail).drop i = path.drop i ++ 0 :: tail :=
    fun i hi => List.drop_append_of_le_length hi
  have hcut : ∀ i ≤ path.length, cstr ((path ++ 0 :: tail).drop i) = cstr (path.drop i) := by
    intro i hi
    rw [hdrop i hi, cstr_append_nul (not_mem_drop h i), cstr_of_not_mem (not_mem_drop h i)]
  have hwhole : cstr (path ++ 0 :: tail) = cstr path := by
    rw [cstr_append_nul h, cstr_of_not_mem h]
  have hscan : scanComponents env.fs (path ++ 0 :: tail) (a.realname.val.length + 1)
      ((path ++ 0 :: tail).drop (a.realname.val.length + 1)) =
        scanComponents env.fs path (a.realname.val.length + 1) (path.drop (a.realname.val.length + 1)) := by
    rw [hdrop _ hlen]
    exact scanComponents_append _ _ rfl hlen
  unfold Request.scanScript
  dsimp only
  rw [hscan, hcut _ hlen.le, hwhole]
  cases hs : scanComponents env.fs path (a.realname.val.length + 1)
      (path.drop (a.realname.val.length + 1)) with
  | notFound => rfl
  | forbidden => rfl
  | terminator => rfl
  | slashAt j =>
    have hf := (scanComponents_slashAt h _ _ rfl j).mp hs
    have hj := (List.getElem?_eq_some_iff.mp hf.at_slash).1
    dsimp only
    rw [hcut j hj.le, List.take_append_of_le_length hj.le]

lemma setScriptName_wilds (d : Request) (name : Bytes) :
    (d.setScriptName name).trace.count .wild = d.trace.count .wild := by
  unfold Request.setScriptName
  split_ifs
  · simp [Request.log, List.count_append]
  · rfl

lemma setPathname_wilds (d : Request) (name : Bytes) :
    (d.setPathname name).trace.count .wild = d.trace.count .wild := by
  unfold Request.setPathname
  split_ifs
  · simp [Request.log, List.count_append]
  · rfl

lemma setScriptName_requestUri (d : Request) (name : Bytes) :
    (d.setScriptName name).scriptName = some name := by
  unfold Request.setScriptName
  rfl

/-- Behind the `/` of a script: `path_info` is set, and `script_name` is cut in range exactly
when it is no longer than the URI. -/
lemma scanScript_slashAt {mem : Bytes} {j : ℕ}
    (hs : scanComponents env.fs mem (a.realname.val.length + 1) (mem.drop (a.realname.val.length + 1)) =
      .slashAt j) :
    (c.scanScript env a mem).1.pathInfo = some (cstr (mem.drop j)) ∧
      (c.scanScript env a mem).1.trace.count .wild =
        c.trace.count .wild + if c.requestUri.length < (cstr (mem.drop j)).length then 1 else 0 := by
  unfold Request.scanScript
  dsimp only
  rw [hs]
  dsimp only
  generalize cstr (mem.drop j) = info
  generalize hd : Request.setScriptName { c with cgiType := _ } c.requestUri = d
  have hd1 : d.scriptName = some c.requestUri := by
    rw [← hd]
    rfl
  have hd2 : d.trace.count .wild = c.trace.count .wild := by
    rw [← hd, setScriptName_wilds]
  have hcut : (Request.cutScriptName { d with pathInfo := some info } info.length).pathInfo = some info ∧
      (Request.cutScriptName { d with pathInfo := some info } info.length).trace.count .wild =
        c.trace.count .wild + if c.requestUri.length < info.length then 1 else 0 := by
    unfold Request.cutScriptName
    dsimp only
    rw [hd1]
    dsimp only
    split_ifs
    · refine ⟨rfl, ?_⟩
      simp [Request.log, List.count_append, hd2]
    · exact ⟨rfl, hd2⟩
  obtain ⟨h1, h2⟩ := hcut
  generalize Request.cutScriptName { d with pathInfo := some info } info.length = e at h1 h2
  obtain ⟨pt, he⟩ | ⟨x, pt, he, hr⟩ := Request.translatePathInfo_cases env e info
  · rw [he]
    dsimp only
    constructor
    · unfold Request.setPathname
      split_ifs <;> exact h1
    · rw [setPathname_wilds]
      exact h2
  · rw [he]
    constructor
    · obtain ⟨o, code, rfl, -, -⟩ := hr
      exact h1
    · exact hr.wilds.trans h2

/-- Without a script before a `/`, `script_name` is not cut. -/
lemma scanScript_wilds {mem : Bytes}
    (hs : ∀ j, scanComponents env.fs mem (a.realname.val.length + 1)
      (mem.drop (a.realname.val.length + 1)) ≠ .slashAt j) :
    (c.scanScript env a mem).1.trace.count .wild = c.trace.count .wild := by
  unfold Request.scanScript
  dsimp only
  generalize (if ((text "nph-").isPrefixOf (cstr (List.drop a.realname.val.length mem)) ||
    decide (c.httpVersion = Version.http09)) = true then CgiType.nph else CgiType.cgi) = t
  split
  · exact (Request.sendRNotFound_refused env _).wilds
  · exact (Request.sendRForbidden_refused env _).wilds
  · split
    · rw [(Request.sendRNotFound_refused env _).wilds, setScriptName_wilds]
    · rw [(Request.sendRForbidden_refused env _).wilds, setScriptName_wilds]
    · rw [(Request.sendRForbidden_refused env _).wilds, setScriptName_wilds]
    · rw [setPathname_wilds, setScriptName_wilds]
  · next j hj => exact absurd hj (hs j)

/-! ### The URI that is the alias itself -/

lemma cstr_take_stale {real : Bytes} (h : 0 ∉ real) {i : ℕ} (hi : real.length < i) :
    cstr ((real ++ 0 :: tail).take i) = real := by
  obtain ⟨k, rfl⟩ := Nat.exists_eq_add_of_lt hi
  rw [Nat.add_assoc, List.take_length_add_append, List.take_succ_cons]
  exact cstr_append_nul h _

/-- Behind the real name the scan runs over leftovers, and asks about the real name only. -/
lemma scanComponents_stale (fs : FileSys) {real : Bytes} (h : 0 ∉ real) (tail s : Bytes) (i : ℕ)
    (hi : real.length < i) :
    scanComponents fs (real ++ 0 :: tail) i s = .terminator ∨
      (fs.scriptCheck real = .missing ∧ scanComponents fs (real ++ 0 :: tail) i s = .notFound) ∨
      (fs.scriptCheck real = .refused ∧ scanComponents fs (real ++ 0 :: tail) i s = .forbidden) ∨
      fs.scriptCheck real = .ok := by
  induction s generalizing i with
  | nil => exact .inl rfl
  | cons x s ih =>
    have hnext := ih (i + 1) (Nat.lt_succ_of_lt hi)
    unfold scanComponents
    rw [cstr_take_stale h hi]
    split_ifs
    · exact .inl rfl
    · cases hc : fs.scriptCheck real with
      | missing => exact .inr (.inl ⟨rfl, rfl⟩)
      | refused => exact .inr (.inr (.inl ⟨rfl, rfl⟩))
      | ok => exact .inr (.inr (.inr rfl))
      | dir => simpa [hc] using hnext
    · exact hnext

/-- The two ways to say that there is no such script: `script_name` is set before the second
one only. -/
lemma scriptOutcome_notFound (d : Request) : scriptOutcome (d.sendRNotFound env, false) =
    (false, 404, d.cgiType, d.pathname, d.pathInfo, d.scriptName, d.pathTranslated) := by
  unfold Request.sendRNotFound Request.sendR
  dsimp only
  split_ifs <;> rfl

lemma scriptOutcome_forbidden (d : Request) : scriptOutcome (d.sendRForbidden env, false) =
    (false, 403, d.cgiType, d.pathname, d.pathInfo, d.scriptName, d.pathTranslated) := by
  unfold Request.sendRForbidden Request.sendR
  dsimp only
  split_ifs <;> rfl

/-- The kind of CGI for a URI that is the alias itself. -/
def Request.plainCgi (c : Request) : Request :=
  { c with cgiType := if c.httpVersion = .http09 then .nph else .cgi }

lemma nph_stale (c : Request) (real : Bytes) :
    ((text "nph-").isPrefixOf (cstr ((real ++ 0 :: tail).drop real.length)) ||
      decide (c.httpVersion = .http09)) = decide (c.httpVersion = .http09) := by
  have hnil : cstr ((real ++ 0 :: tail).drop real.length) = [] := by
    rw [List.drop_left]
    rfl
  have hne : (text "nph-").isPrefixOf [] = false := by decide +kernel
  rw [hnil, hne, Bool.false_or]

/-- What `init_script_alias` does once the scan has reached a terminator. -/
def Request.wholeScript (env : Env) (c : Request) (path : Bytes) : Request × Bool :=
  let c := c.plainCgi.setScriptName c.requestUri
  match env.fs.scriptCheck path with
  | .missing => (c.sendRNotFound env, false)
  | .dir | .refused => (c.sendRForbidden env, false)
  | .ok => (c.setPathname path, true)

/-- The URI that is the alias itself, by how the scan over the leftovers ends. -/
lemma scanScript_stale (env : Env) (c : Request) (a : Alias) (tail : Bytes) :
    c.scanScript env a (a.realname.val ++ 0 :: tail) =
      match scanComponents env.fs (a.realname.val ++ 0 :: tail) (a.realname.val.length + 1)
        ((a.realname.val ++ 0 :: tail).drop (a.realname.val.length + 1)) with
      | .notFound => (c.plainCgi.sendRNotFound env, false)
      | .forbidden => (c.plainCgi.sendRForbidden env, false)
      | .terminator => c.wholeScript env a.realname
      | .slashAt _ => c.scanScript env a (a.realname.val ++ 0 :: tail) := by
  have hwhole : cstr (a.realname.val ++ 0 :: tail) = a.realname.val := cstr_append_nul a.realname.noNul _
  cases hscan : scanComponents env.fs (a.realname.val ++ 0 :: tail) (a.realname.val.length + 1)
    ((a.realname.val ++ 0 :: tail).drop (a.realname.val.length + 1)) with
  | slashAt j => rfl
  | _ =>
    unfold Request.scanScript Request.wholeScript
    dsimp only
    rw [nph_stale c a.realname.val, hwhole, hscan]
    simp only [decide_eq_true_eq]
    rfl

/-! ### Leftovers -/

/-- A buffer in which `s` was left at `n`. -/
def leftover (n : ℕ) (s : Bytes) : Bytes :=
  List.replicate n 0 ++ s ++ List.replicate (pathBufferSize - (n + s.length)) 0

lemma leftover_scratch {n : ℕ} {s : Bytes} (h : n + s.length < pathBufferSize) : Scratch (leftover n s) := by
  have hsize : pathBufferSize = maxHeaderLength + 1 := rfl
  have hlen : (List.replicate n 0 ++ s).length = n + s.length := by simp
  constructor
  · simp only [leftover, List.length_append, List.length_replicate]
    omega
  · unfold leftover
    rw [List.getElem?_append_right (by omega), hlen, List.getElem?_replicate, if_pos (by omega)]

lemma store_leftover {real s : Bytes} :
    store (leftover (real.length + 1) s) 0 (real ++ [0]) =
      real ++ 0 :: (s ++ List.replicate (pathBufferSize - (real.length + 1 + s.length)) 0) := by
  rw [store_of_le _ (Nat.zero_le _)]
  unfold leftover
  rw [List.take_zero, List.nil_append, Nat.zero_add, List.append_assoc (List.replicate _ _),
    List.drop_left' (by simp)]
  simp

lemma store_path (m path : Bytes) : store m 0 (path ++ [0]) = path ++ 0 :: m.drop (path.length + 1) := by
  rw [store_of_le _ (Nat.zero_le _)]
  simp

/-- The path `init_script_alias` works on fits its buffer when it is the real name alone. -/
lemma realname_fits (a : Alias) : a.realname.val.length + 1 < pathBufferSize := by
  have hshort := a.realname.short
  have hsize : pathBufferSize = 1537 := rfl
  omega

lemma scanScript_zero (env : Env) (c : Request) (a : Alias) (t : Bytes) :
    c.scanScript env a (a.realname.val ++ 0 :: 0 :: t) = c.wholeScript env a.realname := by
  have hdrop : (a.realname.val ++ 0 :: 0 :: t).drop (a.realname.val.length + 1) = 0 :: t := by
    rw [List.drop_length_add_append]
    rfl
  rw [scanScript_stale, hdrop]
  simp only [scanComponents, if_true]

/-- A `/` left right behind the real name. -/
lemma scan_slash (env : Env) (a : Alias) (t : Bytes) :
    scanComponents env.fs (a.realname.val ++ 0 :: slash :: t) (a.realname.val.length + 1)
        ((a.realname.val ++ 0 :: slash :: t).drop (a.realname.val.length + 1)) =
      match env.fs.scriptCheck a.realname with
      | .missing => .notFound
      | .refused => .forbidden
      | .ok => .slashAt (a.realname.val.length + 1)
      | .dir => scanComponents env.fs (a.realname.val ++ 0 :: slash :: t) (a.realname.val.length + 2) t := by
  have hdrop : (a.realname.val ++ 0 :: slash :: t).drop (a.realname.val.length + 1) = slash :: t := by
    rw [List.drop_length_add_append]
    rfl
  have hcheck : cstr ((a.realname.val ++ 0 :: slash :: t).take (a.realname.val.length + 1)) =
      a.realname.val := cstr_take_stale a.realname.noNul (Nat.lt_succ_self _)
  have hslash : slash ≠ 0 := by decide
  rw [hdrop]
  conv_lhs => unfold scanComponents
  rw [if_neg hslash, if_pos rfl]
  cases hsc : env.fs.scriptCheck a.realname.val <;> simp only [hcheck, hsc]

lemma initScriptAlias_leftWith (env : Env) (c : Request) (a : Alias) (m : Bytes) :
    c.initScriptAlias (env.leftWith m) a =
      if pathBufferSize < (c.scriptPath env.cfg a).length + 1 then (c.sendRBadRequest env, false)
      else c.scanScript env a
        (c.scriptPath env.cfg a ++ 0 :: m.drop ((c.scriptPath env.cfg a).length + 1)) := by
  rw [← store_path]
  rfl

/-- Two runs give the same, and `script_name` is cut in range, whatever was left behind. -/
def Clean (env : Env) (c : Request) (a : Alias) : Prop :=
  (∀ m m', Scratch m → Scratch m' → scriptOutcome (c.initScriptAlias (env.leftWith m) a) =
    scriptOutcome (c.initScriptAlias (env.leftWith m') a)) ∧
  ∀ m, Scratch m → (c.initScriptAlias (env.leftWith m) a).1.trace.count .wild = c.trace.count .wild

/-- A path that goes on behind the real name hides the leftovers. -/
lemma clean_of_long (hnul : 0 ∉ c.scriptPath env.cfg a)
    (hlen : a.realname.val.length < (c.scriptPath env.cfg a).length) :
    Clean env c a ↔ pathBufferSize < (c.scriptPath env.cfg a).length + 1 ∨
      ∀ j, FirstScript env.fs (c.scriptPath env.cfg a) (a.realname.val.length + 1) j →
        (c.scriptPath env.cfg a).length ≤ j + c.requestUri.length := by
  by_cases hfit : pathBufferSize < (c.scriptPath env.cfg a).length + 1
  · have he : ∀ m, c.initScriptAlias (env.leftWith m) a = (c.sendRBadRequest env, false) := by
      intro m
      rw [initScriptAlias_leftWith, if_pos hfit]
    refine ⟨fun _ => .inl hfit, fun _ => ⟨fun m m' _ _ => by rw [he, he], fun m _ => ?_⟩⟩
    rw [he]
    exact (Request.sendRBadRequest_refused env c).wilds
  · have he : ∀ m, c.initScriptAlias (env.leftWith m) a = c.scanScript env a (c.scriptPath env.cfg a) := by
      intro m
      rw [initScriptAlias_leftWith, if_neg hfit]
      exact scanScript_append hnul hlen
    have hcount : Clean env c a ↔
        (c.scanScript env a (c.scriptPath env.cfg a)).1.trace.count .wild = c.trace.count .wild := by
      constructor
      · intro h
        have h0 := h.2 (leftover 0 []) (leftover_scratch (by decide))
        rwa [he] at h0
      · intro h
        refine ⟨fun m m' _ _ => by rw [he, he], fun m _ => ?_⟩
        rw [he]
        exact h
    rw [hcount]
    generalize c.scriptPath env.cfg a = path at hnul hfit
    constructor
    · intro h
      refine .inr fun j hj => ?_
      have hs := (scanComponents_slashAt hnul _ _ rfl j).mpr hj
      have hw := (scanScript_slashAt (c := c) hs).2
      rw [h, cstr_of_not_mem (not_mem_drop hnul j), List.length_drop] at hw
      split_ifs at hw <;> omega
    · intro h
      have hj := h.resolve_left hfit
      cases hs : scanComponents env.fs path (a.realname.val.length + 1)
          (path.drop (a.realname.val.length + 1)) with
      | slashAt j =>
        have hle := hj j ((scanComponents_slashAt hnul _ _ rfl j).mp hs)
        rw [(scanScript_slashAt hs).2, cstr_of_not_mem (not_mem_drop hnul j), List.length_drop,
          if_neg (by omega), Nat.add_zero]
      | _ => exact scanScript_wilds fun j => by rw [hs]; exact nofun

/-- The URI that is the alias itself: the copied path is the real name. -/
lemma initScriptAlias_short (hpath : c.scriptPath env.cfg a = a.realname.val) (m : Bytes) :
    c.initScriptAlias (env.leftWith m) a =
      c.scanScript env a (a.realname.val ++ 0 :: m.drop (a.realname.val.length + 1)) := by
  have hfit := realname_fits a
  rw [initScriptAlias_leftWith, hpath, if_neg (by omega)]

/-- `s` left right behind the real name. -/
lemma initScriptAlias_leftover (hpath : c.scriptPath env.cfg a = a.realname.val) {s : Bytes}
    (hs : s.length ≤ 2) :
    Scratch (leftover (a.realname.val.length + 1) s) ∧
      c.initScriptAlias (env.leftWith (leftover (a.realname.val.length + 1) s)) a =
        c.scanScript env a (a.realname.val ++
          0 :: (s ++ List.replicate (pathBufferSize - (a.realname.val.length + 1 + s.length)) 0)) := by
  have hsize : pathBufferSize = 1537 := rfl
  have hshort := a.realname.short
  refine ⟨leftover_scratch (by omega), ?_⟩
  rw [initScriptAlias_short hpath, ← store_path, store_leftover]

/-- A leftover `/` behind a script becomes its `path_info`. -/
lemma scanScript_slash_pathInfo (hc : env.fs.scriptCheck a.realname = .ok) (t : Bytes) :
    (c.scanScript env a (a.realname.val ++ 0 :: slash :: t)).1.pathInfo = some (cstr (slash :: t)) := by
  have hscan := scan_slash env a t
  rw [hc] at hscan
  rw [(scanScript_slashAt hscan).1, List.drop_length_add_append]
  rfl

/-- Leftovers show, unless the real name is a directory or `script_name` hides them. -/
lemma dir_of_clean (hpath : c.scriptPath env.cfg a = a.realname.val) (h : Clean env c a) :
    env.fs.scriptCheck a.realname = .dir ∨
      (env.fs.scriptCheck a.realname ≠ .ok ∧ c.scriptName = some c.requestUri) := by
  obtain ⟨hz, hzero⟩ := initScriptAlias_leftover hpath (s := [0]) (by decide)
  obtain ⟨h1, hone⟩ := initScriptAlias_leftover hpath (s := [slash]) (by decide)
  obtain ⟨h2, htwo⟩ := initScriptAlias_leftover hpath (s := [slash, 120]) (by decide)
  have hzs := h.1 _ _ hz h1
  have hss := h.1 _ _ h1 h2
  rw [hzero, hone, List.singleton_append, List.singleton_append, scanScript_zero, scanScript_stale env c a
    (slash :: _), scan_slash] at hzs
  rw [hone, htwo] at hss
  unfold Request.wholeScript at hzs
  cases hc : env.fs.scriptCheck a.realname with
  | dir => exact .inl rfl
  | missing =>
    rw [hc] at hzs
    dsimp only at hzs
    rw [scriptOutcome_notFound, scriptOutcome_notFound] at hzs
    simp only [Prod.mk.injEq] at hzs
    exact .inr ⟨nofun, hzs.2.2.2.2.2.1.symm⟩
  | refused =>
    rw [hc] at hzs
    dsimp only at hzs
    rw [scriptOutcome_forbidden, scriptOutcome_forbidden] at hzs
    simp only [Prod.mk.injEq] at hzs
    exact .inr ⟨nofun, hzs.2.2.2.2.2.1.symm⟩
  | ok =>
    have hinfo := congrArg (fun o => o.2.2.2.2.1) hss
    change (c.scanScript env a (a.realname.val ++ 0 :: slash :: _)).1.pathInfo =
      (c.scanScript env a (a.realname.val ++ 0 :: slash :: 120 :: _)).1.pathInfo at hinfo
    rw [scanScript_slash_pathInfo hc, scanScript_slash_pathInfo hc] at hinfo
    simp [cstr, slash] at hinfo

/-- With the name it has anyway, setting `script_name` changes nothing of the outcome. -/
lemma setScriptName_same {d : Request} {name : Bytes} (h : d.scriptName = some name) :
    (d.setScriptName name).cgiType = d.cgiType ∧ (d.setScriptName name).pathname = d.pathname ∧
      (d.setScriptName name).pathInfo = d.pathInfo ∧ (d.setScriptName name).scriptName = d.scriptName ∧
      (d.setScriptName name).pathTranslated = d.pathTranslated := by
  unfold Request.setScriptName
  split_ifs <;> exact ⟨rfl, rfl, rfl, h.symm, rfl⟩

lemma clean_of_dir (hpath : c.scriptPath env.cfg a = a.realname.val)
    (hcond : env.fs.scriptCheck a.realname = .dir ∨
      (env.fs.scriptCheck a.realname ≠ .ok ∧ c.scriptName = some c.requestUri)) : Clean env c a := by
  have hok : env.fs.scriptCheck a.realname ≠ .ok := by
    obtain hd | ⟨hn, -⟩ := hcond
    · rw [hd]
      exact nofun
    · exact hn
  have hset : env.fs.scriptCheck a.realname ≠ .dir → c.plainCgi.scriptName = some c.requestUri :=
    fun hd => (hcond.resolve_left hd).2
  have hcase : ∀ m, scriptOutcome (c.initScriptAlias (env.leftWith m) a) =
        scriptOutcome (c.wholeScript env a.realname) ∧
      (c.initScriptAlias (env.leftWith m) a).1.trace.count .wild = c.trace.count .wild := by
    intro m
    rw [initScriptAlias_short hpath]
    generalize m.drop (a.realname.val.length + 1) = tail
    have hstale := scanScript_stale env c a tail
    obtain hs | ⟨hc, hs⟩ | ⟨hc, hs⟩ | hc := scanComponents_stale env.fs a.realname.noNul tail
      ((a.realname.val ++ 0 :: tail).drop (a.realname.val.length + 1)) _ (Nat.lt_succ_self _)
    · refine ⟨?_, scanScript_wilds fun j => ?_⟩
      · rw [hstale, hs]
      · rw [hs]
        exact nofun
    · refine ⟨?_, scanScript_wilds fun j => ?_⟩
      · obtain ⟨e1, e2, e3, e4, e5⟩ := setScriptName_same (hset (by rw [hc]; exact nofun))
        rw [hstale, hs]
        unfold Request.wholeScript
        rw [hc]
        dsimp only
        rw [scriptOutcome_notFound, scriptOutcome_notFound, e1, e2, e3, e4, e5]
      · rw [hs]
        exact nofun
    · refine ⟨?_, scanScript_wilds fun j => ?_⟩
      · obtain ⟨e1, e2, e3, e4, e5⟩ := setScriptName_same (hset (by rw [hc]; exact nofun))
        rw [hstale, hs]
        unfold Request.wholeScript
        rw [hc]
        dsimp only
        rw [scriptOutcome_forbidden, scriptOutcome_forbidden, e1, e2, e3, e4, e5]
      · rw [hs]
        exact nofun
    · exact absurd hc hok
  exact ⟨fun m m' _ _ => (hcase m).1.trans (hcase m').1.symm, fun m _ => (hcase m).2⟩

end Outcome

/-- When `init_script_alias` neither shows leftovers of earlier requests nor cuts
`script_name` out of range. Without VHostRoot: the URI goes on behind the alias, or the real
name is a directory, or it is no script and `script_name` was set before. With VHostRoot: no
script is found so early in the path that more than the URI lies behind it. -/
theorem scriptAlias_clean_iff (env : Env) (c : Request) (a : Alias) (huri : 0 ∉ c.requestUri)
    (hip : 0 ∉ c.localIpAddr) (hhost : 0 ∉ c.host.getD []) (hm : a.matchesUri c.requestUri = true) :
    ((∀ m m', Scratch m → Scratch m' → scriptOutcome (c.initScriptAlias (env.leftWith m) a) =
        scriptOutcome (c.initScriptAlias (env.leftWith m') a)) ∧
      ∀ m, Scratch m →
        (c.initScriptAlias (env.leftWith m) a).1.trace.count .wild = c.trace.count .wild) ↔
    match env.cfg.vhostRoot with
    | none => a.fakename.val.length < c.requestUri.length ∨ env.fs.scriptCheck a.realname = .dir ∨
        (env.fs.scriptCheck a.realname ≠ .ok ∧ c.scriptName = some c.requestUri)
    | some _ => pathBufferSize < (c.scriptPath env.cfg a).length + 1 ∨
        ∀ j, FirstScript env.fs (c.scriptPath env.cfg a) (a.realname.val.length + 1) j →
          (c.scriptPath env.cfg a).length ≤ j + c.requestUri.length := by
  change Clean env c a ↔ _
  have hprefix : a.fakename.val.length ≤ c.requestUri.length := by
    unfold Alias.matchesUri at hm
    rw [Bool.and_eq_true, List.isPrefixOf_iff_prefix] at hm
    exact hm.1.length_le
  have hrest : 0 ∉ a.expand c.requestUri := by
    unfold Alias.expand
    intro h0
    obtain h0 | h0 := List.mem_append.mp h0
    · exact a.realname.noNul h0
    · exact huri (List.mem_of_mem_drop h0)
  have hlen : (a.expand c.requestUri).length =
      a.realname.val.length + (c.requestUri.length - a.fakename.val.length) := by
    unfold Alias.expand
    rw [List.length_append, List.length_drop]
  cases hv : env.cfg.vhostRoot with
  | some root =>
    have hpath : c.scriptPath env.cfg a = c.vhostPrefix root ++ a.expand c.requestUri := by
      unfold Request.scriptPath
      rw [hv]
    refine clean_of_long ?_ ?_
    · rw [hpath]
      have hroot := root.noNul
      simp [Request.vhostPrefix, hrest, hip, hhost, hroot, slash]
    · rw [hpath, List.length_append, hlen]
      simp only [Request.vhostPrefix, List.length_append, List.length_singleton]
      omega
  | none =>
    have hpath : c.scriptPath env.cfg a = a.expand c.requestUri := by
      unfold Request.scriptPath
      rw [hv]
    dsimp only
    by_cases hlong : a.fakename.val.length < c.requestUri.length
    · refine iff_of_true ?_ (.inl hlong)
      refine (clean_of_long (hpath ▸ hrest) ?_).mpr (.inr fun j hj => ?_)
      · rw [hpath, hlen]
        omega
      · have hle := hj.le
        rw [hpath, hlen]
        omega
    · have hreal : c.scriptPath env.cfg a = a.realname.val := by
        rw [hpath]
        unfold Alias.expand
        rw [List.drop_eq_nil_of_le (Nat.le_of_not_lt hlong), List.append_nil]
      have hiff : Clean env c a ↔ _ := ⟨dir_of_clean hreal, clean_of_dir hreal⟩
      rw [hiff]
      exact ⟨.inr, fun h => h.resolve_left hlong⟩

/-- An alias for one script and an alias for a directory of them. -/
def scriptAlias (fake real : String) (hf : (text fake).length < 1024 ∧ lf ∉ text fake ∧ 0 ∉ text fake)
    (hr : (text real).length < 1024 ∧ lf ∉ text real ∧ 0 ∉ text real)
    (hne : text fake ≠ [] ∧ text real ≠ []) : Alias :=
  ⟨confText fake hf, confText real hr, .scriptalias, hne.1, hne.2⟩

def oneScript : Alias :=
  scriptAlias "/c" "/r" text_c text_r (by decide +kernel)

def manyScripts : Alias :=
  scriptAlias "/d" "/e" text_d (by decide +kernel) (by decide +kernel)

/-- `/r` is a script and `/e/x` a directory. -/
def scriptEnv : Env :=
  { tinyEnv with
    fs := {
      openFile := fun _ => .error .enoent
      stat := fun p => if p = text "/r" then .ok .reg else if p = text "/e/x" then .ok .dir else .error .enoent
      access := fun _ => true } }

def askFor (uri : String) : Request := { requestUri := text uri }

/-- What the request for `/d/x/yz` leaves in the buffer. -/
def usedBuffer : Bytes :=
  store (leftover 0 []) 0 ((askFor "/d/x/yz").scriptPath scriptEnv.cfg manyScripts ++ [0])

/-- A second request finds the path of the first one behind its own: it becomes `path_info`,
and as it is longer than the URI, `script_name` is cut before its start. -/
theorem scriptAlias_leftover_shows :
    oneScript.matchesUri (askFor "/c").requestUri = true ∧ Scratch (leftover 0 []) ∧ Scratch usedBuffer ∧
      scriptOutcome ((askFor "/c").initScriptAlias (scriptEnv.leftWith (leftover 0 [])) oneScript) ≠
        scriptOutcome ((askFor "/c").initScriptAlias (scriptEnv.leftWith usedBuffer) oneScript) ∧
      ((askFor "/c").initScriptAlias (scriptEnv.leftWith usedBuffer) oneScript).1.pathInfo =
        some (text "/yz") ∧
      ((askFor "/c").initScriptAlias (scriptEnv.leftWith usedBuffer) oneScript).1.trace.count .wild ≠
        (askFor "/c").trace.count .wild := by
  refine ⟨by decide +kernel, by decide +kernel, by decide +kernel, fun he => ?_, by decide +kernel,
    by decide +kernel⟩
  have hinfo := congrArg (fun o => o.2.2.2.2.1) he
  revert hinfo
  decide +kernel

/-- Behind the alias of a directory nothing shows. -/
theorem scriptAlias_clean_iff_longer :
    manyScripts.fakename.val.length < (askFor "/d/x/yz").requestUri.length ∧
    ∀ m m', Scratch m → Scratch m' →
      scriptOutcome ((askFor "/d/x/yz").initScriptAlias (scriptEnv.leftWith m) manyScripts) =
        scriptOutcome ((askFor "/d/x/yz").initScriptAlias (scriptEnv.leftWith m') manyScripts) := by
  have hlong : manyScripts.fakename.val.length < (askFor "/d/x/yz").requestUri.length := by
    decide +kernel
  have hiff := scriptAlias_clean_iff scriptEnv (askFor "/d/x/yz") manyScripts (by decide +kernel)
    (by decide) (by decide) (by decide +kernel)
  exact ⟨hlong, (hiff.mpr (Or.inl hlong)).1⟩

end Boa
