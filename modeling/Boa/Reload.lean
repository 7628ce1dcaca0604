import Boa.Lookup
import Boa.MimeFile

/-! Reading the configuration again: the tables after any number of SIGHUPs. -/
namespace Boa

/-- The server after start-up and `n` signals, if the readings find the directives `F 0`, `F 1` and so on. -/
def serverRun (b : Boot) (F : ℕ → List Directive) : ℕ → Option Server
  | 0 => startUp b (F 0)
  | n + 1 => (serverRun b F n).bind (sighupRun b (F (n + 1)))

/-- The directive as the file has it, without what the stack holds when it is read. -/
def Directive.written : Directive → Directive
  | .addMimeTypesFile f _ => .addMimeTypesFile f []
  | d => d

/-- The mime-types file of the directive is read as it stands. -/
def Directive.Settled : Directive → Prop
  | .addMimeTypesFile (some f) _ => SettledFile f
  | _ => True

/-- The environment variable a directive defines. -/
def Directive.cgiEnv? : Directive → Option Bytes
  | .addCgiEnv key value => some (envGenExtra key (value.getD []) false)
  | _ => none

/-- The variables of the CGIEnv directives, in the order of the file. -/
def cgiEnvs (F : List Directive) : List Bytes := F.filterMap Directive.cgiEnv?

/-- The MIME types a directive defines, as extensions with their type. -/
def Directive.types : Directive → List (Bytes × Bytes)
  | .addMimeTypesFile (some f) _ => fileTypes f
  | .addMimeType type (some extension) => [(extension, type)]
  | _ => []

def Directive.alias? : Directive → Option Alias
  | .addAlias fakename (some realname) type =>
    if hfake : fakename.val ≠ [] then
      if hreal : realname.val ≠ [] then some ⟨fakename, realname, type, hfake, hreal⟩ else none
    else none
  | _ => none

def Directive.rule? : Directive → Option (ConfText × Bool)
  | .addAccess pattern allow => some (pattern, allow)
  | _ => none

/-- The tables have what the file defines and nothing else: in each chain what belongs there in the order of
the file, the first definition of a name in any case, and the access rules one after the other. -/
structure Tables.Lists (b : Boot) (F : List Directive) (t : Tables) : Prop where
  aliases : Chains.Holds Alias.chain Alias.name aliasHashtableSize (F.filterMap Directive.alias?)
    t.aliasHashtable
  mime : Chains.Holds (fun e : Bytes × Bytes => getMimeHashValue e.1) Prod.fst mimeHashtableSize
    (F.flatMap Directive.types) t.mimeHashtable
  access : t.accessRules = if b.accessControl then F.filterMap Directive.rule? else []

/-- What a directive does to the settings. -/
def Directive.assign (s : Settings) : Directive → Settings
  | .setString v x => s.setString v x
  | .setInt v (some x) => s.setInt v x
  | .setUnity v => s.setInt v 1
  | _ => s

/-- The tables are those that the file defines: the entries of `create_common_env` with one entry per CGIEnv
directive, and what `Tables.Lists` says of the others. -/
structure Tables.AsDefined (b : Boot) (F : List Directive) (t : Tables) : Prop extends t.Lists b F where
  environ : ∃ x, (F.foldl Directive.assign b.settings).check b = some x ∧
    t.commonCgiEnv = createCommonEnv b x ++ cgiEnvs F

def Directive.string? (v : StringVar) : Directive → Option Bytes
  | .setString w x => if v = w then some x else none
  | _ => none

def Directive.int? (v : IntVar) : Directive → Option ℤ
  | .setInt w (some x) => if v = w then some x else none
  | .setUnity w => if v = w then some 1 else none
  | _ => none

lemma Directive.assign_string (s : Settings) (d : Directive) (v : StringVar) :
    (d.assign s).string v = (d.string? v).or (s.string v) := by
  cases d with
  | setString w x => simp only [assign, string?, Settings.setString, Function.update_apply]; split <;> rfl
  | setInt w x => cases x <;> rfl
  | _ => rfl

lemma Directive.assign_int (s : Settings) (d : Directive) (v : IntVar) :
    (d.assign s).int v = (d.int? v).getD (s.int v) := by
  cases d with
  | setInt w x =>
    cases x with
    | none => rfl
    | some x => simp only [assign, int?, Settings.setInt, Function.update_apply]; split <;> rfl
  | setUnity w => simp only [assign, int?, Settings.setInt, Function.update_apply]; split <;> rfl
  | _ => rfl

lemma foldl_assign_string (F : List Directive) (s : Settings) (v : StringVar) :
    (F.foldl Directive.assign s).string v =
      ((F.filterMap (Directive.string? v)).getLast?).or (s.string v) := by
  induction F using List.reverseRecOn with
  | nil => rfl
  | append_singleton F d ih =>
    rw [List.foldl_append, List.foldl_cons, List.foldl_nil, Directive.assign_string, ih,
      List.filterMap_append]
    cases h : d.string? v <;> simp [h]

lemma foldl_assign_int (F : List Directive) (s : Settings) (v : IntVar) :
    (F.foldl Directive.assign s).int v =
      ((F.filterMap (Directive.int? v)).getLast?).getD (s.int v) := by
  induction F using List.reverseRecOn with
  | nil => rfl
  | append_singleton F d ih =>
    rw [List.foldl_append, List.foldl_cons, List.foldl_nil, Directive.assign_int, ih,
      List.filterMap_append]
    cases h : d.int? v <;> simp [h]

/-- Reading the same file again assigns the same strings. -/
lemma foldl_assign_string_again {F : List Directive} {s s' : Settings} {v : StringVar}
    (h : s'.string v = (F.foldl Directive.assign s).string v) :
    (F.foldl Directive.assign s').string v = s'.string v := by
  rw [foldl_assign_string] at h ⊢
  cases hl : (F.filterMap (Directive.string? v)).getLast? <;> simp [hl] at h ⊢
  exact h.symm

lemma foldl_assign_int_again {F : List Directive} {s s' : Settings} {v : IntVar}
    (h : s'.int v = (F.foldl Directive.assign s).int v) :
    (F.foldl Directive.assign s').int v = s'.int v := by
  rw [foldl_assign_int] at h ⊢
  cases hl : (F.filterMap (Directive.int? v)).getLast? <;> simp [hl] at h ⊢
  exact h.symm

/-- A directive does the same to the three other tables whatever the common environment
and the settings are. -/
lemma Directive.apply_again {b : Boot} {root root' : Bool} {s t : Server} {d : Directive}
    (h : d.apply b root s = some t) (hroot : root' = true → root = true) (e : List Bytes)
    (x : Settings) :
    d.apply b root' { s with commonCgiEnv := e, settings := x } =
      if d.cgiEnv?.toList = [] ∨ e.length + d.cgiEnv?.toList.length ≤ cgiEnvMax then
        some { t with commonCgiEnv := e ++ d.cgiEnv?.toList, settings := d.assign x }
      else none := by
  cases d with
  | setString v y => cases h; simp [apply, assign, cgiEnv?]
  | setInt v y => cases y <;> cases h <;> simp [apply, assign, cgiEnv?]
  | setUnity v => cases h; simp [apply, assign, cgiEnv?]
  | setUser known =>
    have hk : (!known && root') = false := by cases known <;> simp_all [apply]
    cases known <;> cases root <;> cases h <;> simp_all [apply, assign, cgiEnv?]
  | addMimeTypesFile f buf =>
    cases f with
    | none => cases h
    | some f =>
      simp only [apply, Option.map_eq_some_iff] at h ⊢
      obtain ⟨m, hm, rfl⟩ := h
      simp [hm, assign, cgiEnv?]
  | addMimeType type extension =>
    cases extension with
    | none => cases h
    | some extension =>
      simp only [apply, Option.map_eq_some_iff] at h ⊢
      obtain ⟨m, hm, rfl⟩ := h
      simp [hm, assign, cgiEnv?]
  | addAlias fakename realname type =>
    cases realname with
    | none => cases h
    | some realname =>
      simp only [apply, Option.map_eq_some_iff] at h ⊢
      obtain ⟨m, hm, rfl⟩ := h
      simp [hm, assign, cgiEnv?]
  | addAccess pattern allow =>
    cases h
    cases hb : b.accessControl <;> simp [apply, assign, cgiEnv?, hb]
  | addCgiEnv key value =>
    simp only [apply, Option.map_eq_some_iff] at h
    obtain ⟨m, -, rfl⟩ := h
    simp only [apply, addToCommonEnv, cgiEnv?, Option.toList_some, List.cons_ne_nil, false_or,
      List.length_append, List.length_cons, List.length_nil, assign]
    split <;> split <;> first | rfl | omega
  | unknown => cases h

/-- So does a whole file. -/
lemma parse_again {b : Boot} {root root' : Bool} {F : List Directive} {s t : Server}
    (h : F.foldlM (Directive.apply b root) s = some t) (hroot : root' = true → root = true)
    (e : List Bytes) (x : Settings) :
    F.foldlM (Directive.apply b root') { s with commonCgiEnv := e, settings := x } =
      if cgiEnvs F = [] ∨ e.length + (cgiEnvs F).length ≤ cgiEnvMax then
        some { t with commonCgiEnv := e ++ cgiEnvs F, settings := F.foldl Directive.assign x }
      else none := by
  induction F generalizing s e x with
  | nil => cases h; simp [cgiEnvs]
  | cons d F ih =>
    simp only [List.foldlM_cons, Option.bind_eq_bind, Option.bind_eq_some_iff] at h ⊢
    obtain ⟨u, hd, hF⟩ := h
    have hcons : cgiEnvs (d :: F) = d.cgiEnv?.toList ++ cgiEnvs F := by
      cases hc : d.cgiEnv? <;> simp [cgiEnvs, hc]
    rw [Directive.apply_again hd hroot, hcons, List.foldl_cons]
    split
    · rename_i hfit
      rw [Option.bind_some, ih hF, List.append_assoc]
      refine if_congr ?_ rfl rfl
      cases hc : d.cgiEnv? with
      | none => simp
      | some v =>
        simp only [hc, Option.toList_some, List.cons_ne_nil, false_or, List.length_cons,
          List.length_nil] at hfit
        simp only [Option.toList_some, List.length_append, List.length_cons, List.length_nil,
          List.append_eq_nil_iff, List.cons_ne_nil, false_and, false_or]
        constructor
        · rintro (hnil | hle)
          · simp only [hnil, List.length_nil]; omega
          · omega
        · intro hle
          right
          omega
    · rename_i hfit
      rw [Option.bind_none, if_neg]
      rintro (hnil | hle)
      · exact hfit (.inl (List.append_eq_nil_iff.1 hnil).1)
      · rw [List.length_append] at hle
        exact hfit (.inr (by omega))

/-- The settings with which `read_config_files` does not exit. -/
def Settings.Passes (b : Boot) (s : Settings) : Prop :=
  ((s.string .serverName).or b.hostName).isSome ∧ 0 ≤ s.int .singlePostLimit ∧
    ((s.string .vhostRoot).isSome → s.int .virtualhost = 0 ∧ s.string .documentRoot = none) ∧
    s.string .defaultType ≠ none

lemma Settings.override_string {b : Boot} {s : Settings} {v : StringVar} (hv : v ≠ .serverIp) :
    (s.override b).string v = s.string v := by
  unfold override
  cases b.overrideServerIp <;> by_cases hp : b.overrideServerPort = 0 <;>
    simp [hp, setString, setInt, hv]

lemma Settings.override_int {b : Boot} {s : Settings} {v : IntVar} (hv : v ≠ .serverPort) :
    (s.override b).int v = s.int v := by
  unfold override
  cases b.overrideServerIp <;> by_cases hp : b.overrideServerPort = 0 <;>
    simp [hp, setString, setInt, hv]

/-- The settings that passed: the name is set, and what the checks read is as it was. -/
lemma Settings.check_eq_some {b : Boot} {s x : Settings} (h : s.check b = some x) :
    s.Passes b ∧ (x.string .serverName).isSome ∧
      (∀ v ∈ [StringVar.vhostRoot, .documentRoot, .defaultType], x.string v = s.string v) ∧
      ∀ v ∈ [IntVar.singlePostLimit, .virtualhost], x.int v = s.int v := by
  simp only [check, override_string (v := .serverName) (by decide)] at h
  cases hn : (s.string .serverName).or b.hostName with
  | none => simp [hn] at h
  | some name =>
    simp only [hn] at h
    split_ifs at h with h1 h2 h3 h4
    cases h
    have hname : ((s.string .serverName).or b.hostName).isSome := by simp [hn]
    simp_all [Passes, setString, fixup, override_string, override_int]

lemma Settings.check_of_passes {b : Boot} {s : Settings} (h : s.Passes b) :
    ∃ x, s.check b = some x := by
  obtain ⟨hname, hlimit, hroot, htype⟩ := h
  obtain ⟨name, hn⟩ := Option.isSome_iff_exists.1 hname
  have hs : (s.override b).string .serverName = s.string .serverName :=
    override_string (by decide)
  refine ⟨((s.override b).setString .serverName name).fixup b, ?_⟩
  simp only [check, hs, hn]
  rw [if_neg, if_neg, if_neg, if_neg]
  · simpa [setString, override_string] using htype
  · intro ⟨hv, hd⟩
    simp [setString, override_string] at hv hd
    simp [(hroot hv).2] at hd
  · intro ⟨hv, hd⟩
    simp [setString, override_string, override_int] at hv hd
    exact hd (hroot hv).1
  · simpa [setString, override_int] using hlimit

/-- Settings that a reading of the file left pass again. -/
lemma Settings.check_again {b : Boot} {F : List Directive} {s x : Settings}
    (h : (F.foldl Directive.assign s).check b = some x) :
    ∃ x', (F.foldl Directive.assign x).check b = some x' := by
  obtain ⟨⟨-, hlimit, hroot, htype⟩, hname, hstr, hint⟩ := check_eq_some h
  have hs {v} (hv : v ∈ [StringVar.vhostRoot, .documentRoot, .defaultType]) :
      (F.foldl Directive.assign x).string v = (F.foldl Directive.assign s).string v :=
    (foldl_assign_string_again (hstr v hv)).trans (hstr v hv)
  have hi {v} (hv : v ∈ [IntVar.singlePostLimit, .virtualhost]) :
      (F.foldl Directive.assign x).int v = (F.foldl Directive.assign s).int v :=
    (foldl_assign_int_again (hint v hv)).trans (hint v hv)
  apply check_of_passes
  refine ⟨?_, ?_, ?_, ?_⟩
  · rw [foldl_assign_string, Option.isSome_or, Option.isSome_or, hname]
    simp
  · rwa [hi (by simp)]
  · rwa [hs (by simp), hi (by simp), hs (by simp)]
  · rwa [hs (by simp)]

lemma addMimeType_length {t u : HashTable} {extension type : Bytes}
    (h : addMimeType t extension type = some u) : u.length = t.length := by
  simp only [addMimeType, hashInsert] at h
  split_ifs at h <;> cases h <;> simp

lemma addMimeTypes_length {es : List (Bytes × Bytes)} {t u : HashTable}
    (h : es.foldlM (fun t e => addMimeType t e.1 e.2) t = some u) : u.length = t.length := by
  induction es generalizing t with
  | nil => cases h; rfl
  | cons e es ih =>
    simp only [List.foldlM_cons, Option.bind_eq_bind, Option.bind_eq_some_iff] at h
    obtain ⟨m, hm, h⟩ := h
    exact (ih h).trans (addMimeType_length hm)

lemma addAlias_length {t u : List (List Alias)} {fakename realname : ConfText} {type : AliasType}
    (h : addAlias t fakename realname type = some u) : u.length = t.length := by
  simp only [addAlias] at h
  split_ifs at h <;> cases h <;> simp

/-- The number of chains is fixed, and a build without access control has no rules. -/
def Tables.Shaped (b : Boot) (t : Tables) : Prop :=
  t.aliasHashtable.length = aliasHashtableSize ∧ t.mimeHashtable.length = mimeHashtableSize ∧
    (b.accessControl = false → t.accessRules = [])

lemma Directive.apply_shaped {b : Boot} {root : Bool} {s t : Server} {d : Directive}
    (h : d.apply b root s = some t) (hs : s.Shaped b) : t.Shaped b := by
  obtain ⟨h1, h2, h3⟩ := hs
  cases d with
  | setInt v y => cases y <;> cases h <;> exact ⟨h1, h2, h3⟩
  | setUser known =>
    simp only [apply] at h
    split at h <;> cases h
    exact ⟨h1, h2, h3⟩
  | addMimeTypesFile f buf =>
    cases f <;> simp only [apply, reduceCtorEq, Option.map_eq_some_iff] at h
    obtain ⟨m, hm, rfl⟩ := h
    exact ⟨h1, (addMimeTypes_length hm).trans h2, h3⟩
  | addMimeType type extension =>
    cases extension <;> simp only [apply, reduceCtorEq, Option.map_eq_some_iff] at h
    obtain ⟨m, hm, rfl⟩ := h
    exact ⟨h1, (addMimeType_length hm).trans h2, h3⟩
  | addAlias fakename realname type =>
    cases realname <;> simp only [apply, reduceCtorEq, Option.map_eq_some_iff] at h
    obtain ⟨m, hm, rfl⟩ := h
    exact ⟨(addAlias_length hm).trans h1, h2, h3⟩
  | addAccess pattern allow =>
    cases h
    refine ⟨by split <;> exact h1, by split <;> exact h2, fun hb => ?_⟩
    simpa [hb] using h3 hb
  | addCgiEnv key value =>
    simp only [apply, Option.map_eq_some_iff] at h
    obtain ⟨m, hm, rfl⟩ := h
    exact ⟨h1, h2, h3⟩
  | unknown => cases h
  | _ => cases h; exact ⟨h1, h2, h3⟩

lemma parse_shaped {b : Boot} {root : Bool} {F : List Directive} {s t : Server}
    (h : F.foldlM (Directive.apply b root) s = some t) (hs : s.Shaped b) : t.Shaped b := by
  induction F generalizing s with
  | nil => cases h; exact hs
  | cons d F ih =>
    simp only [List.foldlM_cons, Option.bind_eq_bind, Option.bind_eq_some_iff] at h
    obtain ⟨u, hd, h⟩ := h
    exact ih h (Directive.apply_shaped hd hs)

section Lists

variable {b : Boot} {root : Bool} {s t : Server} {F : List Directive} {d : Directive}

lemma addMimeType_holds {es : List (Bytes × Bytes)} {table table' : HashTable} {extension type : Bytes}
    (hadd : addMimeType table extension type = some table')
    (h : Chains.Holds (fun e : Bytes × Bytes => getMimeHashValue e.1) Prod.fst mimeHashtableSize es table) :
    Chains.Holds (fun e : Bytes × Bytes => getMimeHashValue e.1) Prod.fst mimeHashtableSize
      (es ++ [(extension, type)]) table' := by
  unfold addMimeType hashInsert at hadd
  dsimp only at hadd
  split_ifs at hadd with hempty hany
  · obtain rfl := Option.some.inj hadd
    obtain ⟨e, he, hkey⟩ := List.any_eq_true.mp hany
    exact h.skip ⟨e, he, beq_iff_eq.mp hkey⟩
  · obtain rfl := Option.some.inj hadd
    exact h.put

lemma addMimeTypes_holds {es fs : List (Bytes × Bytes)} {table table' : HashTable}
    (hadd : fs.foldlM (fun t e => addMimeType t e.1 e.2) table = some table')
    (h : Chains.Holds (fun e : Bytes × Bytes => getMimeHashValue e.1) Prod.fst mimeHashtableSize es table) :
    Chains.Holds (fun e : Bytes × Bytes => getMimeHashValue e.1) Prod.fst mimeHashtableSize (es ++ fs) table' := by
  induction fs generalizing es table with
  | nil =>
    cases hadd
    rwa [List.append_nil]
  | cons e fs ih =>
    simp only [List.foldlM_cons, Option.bind_eq_bind, Option.bind_eq_some_iff] at hadd
    obtain ⟨m, hm, hadd⟩ := hadd
    have hrest := ih hadd (addMimeType_holds hm h)
    rwa [List.append_assoc] at hrest

lemma addAlias_holds {as : List Alias} {table table' : List (List Alias)} {a : Alias}
    (hadd : addAlias table a.fakename a.realname a.type = some table')
    (h : Chains.Holds Alias.chain Alias.name aliasHashtableSize as table) :
    Chains.Holds Alias.chain Alias.name aliasHashtableSize (as ++ [a]) table' := by
  unfold addAlias at hadd
  rw [dif_pos ⟨a.fake_ne, a.real_ne⟩] at hadd
  dsimp only at hadd
  split_ifs at hadd with hdup
  · obtain rfl := Option.some.inj hadd
    obtain ⟨c, hc, hname⟩ := List.any_eq_true.mp hdup
    exact h.skip ⟨c, List.mem_of_mem_dropLast hc, beq_iff_eq.mp hname⟩
  · obtain rfl := Option.some.inj hadd
    exact h.put

/-- One directive puts its own entries behind those of the directives before. -/
lemma Directive.apply_lists (h : d.apply b root s = some t) (hd : d.Settled) (hs : s.Lists b F) :
    t.Lists b (F ++ [d]) := by
  obtain ⟨ha, hm, hr⟩ := hs
  have halias : d.alias? = none → Chains.Holds Alias.chain Alias.name aliasHashtableSize
      ((F ++ [d]).filterMap Directive.alias?) s.aliasHashtable := fun h => by
    rwa [List.filterMap_append, List.filterMap_cons_none h, List.filterMap_nil, List.append_nil]
  have hmime : d.types = [] → Chains.Holds (fun e : Bytes × Bytes => getMimeHashValue e.1) Prod.fst
      mimeHashtableSize ((F ++ [d]).flatMap Directive.types) s.mimeHashtable := fun h => by
    rwa [List.flatMap_append, List.flatMap_singleton, h, List.append_nil]
  have hrule : d.rule? = none →
      s.accessRules = if b.accessControl then (F ++ [d]).filterMap Directive.rule? else [] := fun h => by
    rwa [List.filterMap_append, List.filterMap_cons_none h, List.filterMap_nil, List.append_nil]
  cases d with
  | setInt v y => cases y <;> cases h <;> exact ⟨halias rfl, hmime rfl, hrule rfl⟩
  | setUser known =>
    simp only [apply] at h
    split at h <;> cases h
    exact ⟨halias rfl, hmime rfl, hrule rfl⟩
  | addMimeTypesFile f buf =>
    cases f <;> simp only [apply, reduceCtorEq, Option.map_eq_some_iff] at h
    obtain ⟨m, hadd, rfl⟩ := h
    rw [mimeTypesFile_eq le_rfl hd] at hadd
    refine ⟨halias rfl, ?_, hrule rfl⟩
    rw [List.flatMap_append, List.flatMap_singleton]
    exact addMimeTypes_holds hadd hm
  | addMimeType type extension =>
    cases extension <;> simp only [apply, reduceCtorEq, Option.map_eq_some_iff] at h
    obtain ⟨m, hadd, rfl⟩ := h
    refine ⟨halias rfl, ?_, hrule rfl⟩
    rw [List.flatMap_append, List.flatMap_singleton]
    exact addMimeType_holds hadd hm
  | addAlias fakename realname type =>
    cases realname <;> simp only [apply, reduceCtorEq, Option.map_eq_some_iff] at h
    next realname =>
    obtain ⟨m, hadd, rfl⟩ := h
    refine ⟨?_, hmime rfl, hrule rfl⟩
    by_cases hne : fakename.val ≠ [] ∧ realname.val ≠ []
    · have halias : (addAlias fakename (some realname) type).alias? =
          some ⟨fakename, realname, type, hne.1, hne.2⟩ :=
        (dif_pos hne.1).trans (dif_pos hne.2)
      rw [List.filterMap_append, List.filterMap_cons_some halias, List.filterMap_nil]
      exact addAlias_holds hadd ha
    · unfold Boa.addAlias at hadd
      rw [dif_neg hne] at hadd
      cases hadd
  | addAccess pattern allow =>
    cases h
    cases hb : b.accessControl with
    | false => exact ⟨halias rfl, hmime rfl, by simpa [hb] using hr⟩
    | true => exact ⟨halias rfl, hmime rfl, by simp [hr, hb, rule?]⟩
  | addCgiEnv key value =>
    simp only [apply, Option.map_eq_some_iff] at h
    obtain ⟨m, hadd, rfl⟩ := h
    exact ⟨halias rfl, hmime rfl, hrule rfl⟩
  | unknown => cases h
  | _ => cases h; exact ⟨halias rfl, hmime rfl, hrule rfl⟩

/-- So does a whole file, into empty tables. -/
lemma parse_lists (h : F.foldlM (Directive.apply b root) s = some t) (hF : ∀ d ∈ F, d.Settled)
    (hs : s.Lists b []) : t.Lists b F := by
  induction F using List.reverseRecOn generalizing t with
  | nil =>
    cases h
    exact hs
  | append_singleton F d ih =>
    simp only [List.foldlM_append, List.foldlM_cons, List.foldlM_nil, Option.bind_eq_bind,
      Option.bind_eq_some_iff] at h
    obtain ⟨u, hu, v, hv, he⟩ := h
    cases he
    exact Directive.apply_lists hv (hF d (by simp)) (ih hu fun d' hd' => hF d' (by simp [hd']))

lemma lists_empty (b : Boot) : Tables.Lists b [] {} where
  aliases := Chains.holds_empty _
  mime := Chains.holds_empty _
  access := by simp

/-! ### What the stack holds -/

lemma Directive.apply_written (hd : d.Settled) : d.apply b root s = d.written.apply b root s := by
  cases d with
  | addMimeTypesFile f buf =>
    cases f with
    | none => rfl
    | some f =>
      simp only [apply, written]
      rw [mimeTypesFile_eq le_rfl hd, mimeTypesFile_eq le_rfl hd]
  | _ => rfl

lemma parse_written (hF : ∀ d ∈ F, d.Settled) (s : Server) :
    F.foldlM (Directive.apply b root) s = (F.map Directive.written).foldlM (Directive.apply b root) s := by
  induction F generalizing s with
  | nil => rfl
  | cons d F ih =>
    rw [List.map_cons, List.foldlM_cons, List.foldlM_cons, Directive.apply_written (hF d List.mem_cons_self)]
    congr 1
    funext u
    exact ih (fun d' hd' => hF d' (List.mem_cons_of_mem _ hd')) u

lemma Directive.settled_written (d : Directive) : d.written.Settled ↔ d.Settled := by
  cases d with
  | addMimeTypesFile f buf => cases f <;> rfl
  | _ => rfl

/-- Two readings of one file, with the stack in any two states. -/
lemma readConfigFiles_written {F G : List Directive} (hF : ∀ d ∈ F, d.Settled)
    (hG : G.map Directive.written = F.map Directive.written) (s : Server) :
    readConfigFiles b root G s = readConfigFiles b root F s := by
  have hsettled : ∀ d ∈ G, d.Settled := by
    intro d hd
    have hmem : d.written ∈ F.map Directive.written := hG ▸ List.mem_map_of_mem hd
    obtain ⟨d', hd', he⟩ := List.mem_map.mp hmem
    rw [← d.settled_written, ← he, d'.settled_written]
    exact hF d' hd'
  unfold readConfigFiles
  rw [parse_written hsettled, hG, ← parse_written hF]

end Lists

/-- Before `read_config_files` parses, the three tables are empty: at start-up, and after
the dumps of `sighup_run`. -/
lemma Tables.Shaped.dumped {b : Boot} {t : Server} (h : t.Shaped b) :
    Server.accessInit b { t with
      mimeHashtable := dumpMime t.mimeHashtable
      aliasHashtable := dumpAlias t.aliasHashtable } =
    { ({ settings := b.settings } : Server) with
      commonCgiEnv := t.commonCgiEnv
      settings := t.settings } := by
  obtain ⟨h1, h2, h3⟩ := h
  cases hb : b.accessControl <;>
    simp_all [Server.accessInit, dumpMime, dumpAlias, List.map_const']

/-- What the first reading of a file that is accepted leaves. -/
lemma readConfigFiles_first {b : Boot} {F : List Directive} {s : Server}
    (h : readConfigFiles b b.privileged F { settings := b.settings } = some s) :
    ∃ u, F.foldlM (Directive.apply b b.privileged) { settings := b.settings } = some u ∧
      (F.foldl Directive.assign b.settings).check b = some s.settings ∧
      s = { u with settings := s.settings } ∧ s.Shaped b := by
  have h0 : Server.accessInit b { settings := b.settings } = { settings := b.settings } := by
    simp [Server.accessInit]
  simp only [readConfigFiles, h0] at h
  cases hp : F.foldlM (Directive.apply b b.privileged) { settings := b.settings } with
  | none => simp [hp] at h
  | some u =>
    simp only [hp, Option.map_eq_some_iff] at h
    obtain ⟨x, hx, rfl⟩ := h
    have hu := parse_again hp id [] b.settings
    simp only [hp] at hu
    split at hu
    · injection hu with hu
      rw [hu] at hx
      have hshape : u.Shaped b := parse_shaped hp ⟨by simp, by simp, fun _ => rfl⟩
      exact ⟨u, rfl, hx, rfl, hshape⟩
    · cases hu

section Run

variable {b : Boot} {F : List Directive}

/-- After start-up and `n` signals: the dumped tables are as the first reading left them,
and the common environment has grown by the variables of `n` readings. -/
structure Reloaded (b : Boot) (F : List Directive) (s : Server) (n : ℕ) (t : Server) : Prop where
  aliases : t.aliasHashtable = s.aliasHashtable
  mime : t.mimeHashtable = s.mimeHashtable
  access : t.accessRules = s.accessRules
  env : t.commonCgiEnv = createCommonEnv b s.settings ++ (List.replicate n (cgiEnvs F)).flatten
  settings : ∃ x, (F.foldl Directive.assign x).check b = some t.settings

/-- One signal. -/
lemma Reloaded.sighupRun {s t : Server} {n : ℕ}
    (hs : readConfigFiles b b.privileged F { settings := b.settings } = some s)
    (h : Reloaded b F s n t) :
    if cgiEnvs F = [] ∨ t.commonCgiEnv.length + (cgiEnvs F).length ≤ cgiEnvMax then
      ∃ t', sighupRun b F t = some t' ∧ Reloaded b F s (n + 1) t'
    else sighupRun b F t = none := by
  obtain ⟨u, hu, -, hsu, h1, h2, h3⟩ := readConfigFiles_first hs
  have hshape : t.Shaped b := by
    refine ⟨?_, ?_, ?_⟩
    · rw [h.aliases, h1]
    · rw [h.mime, h2]
    · intro hb
      rw [h.access, h3 hb]
  have hroot : (b.privileged && !b.drops) = true → b.privileged = true :=
    fun hr => (Bool.and_eq_true_iff.1 hr).1
  have hparse := parse_again hu hroot t.commonCgiEnv t.settings
  obtain ⟨x, hx⟩ := h.settings
  obtain ⟨x', hx'⟩ := Settings.check_again hx
  simp only [Boa.sighupRun, readConfigFiles, hshape.dumped, hparse]
  split
  · refine ⟨_, by simp only [hx']; rfl, ?_, ?_, ?_, ?_, _, hx'⟩
    · rw [hsu]
    · rw [hsu]
    · rw [hsu]
    · simp [h.env, List.replicate_succ']
  · rfl

/-- `COMMON_CGI_COUNT`. -/
def commonCgiCount (b : Boot) : ℕ := if b.ncsaCgiEnv then 8 else 6

lemma createCommonEnv_length (b : Boot) (s : Settings) :
    (createCommonEnv b s).length = commonCgiCount b := by
  cases hb : b.ncsaCgiEnv <;> simp [createCommonEnv, commonCgiCount, hb]

lemma startUp_reloaded {s : Server}
    (hs : readConfigFiles b b.privileged F { settings := b.settings } = some s) :
    ∃ t, startUp b F = some t ∧ Reloaded b F s 0 t := by
  obtain ⟨u, -, hx, -⟩ := readConfigFiles_first hs
  refine ⟨{ s with commonCgiEnv := createCommonEnv b s.settings }, ?_, rfl, rfl, rfl, ?_, _, hx⟩
  · rw [startUp, hs]
    rfl
  · simp

lemma serverRun_reloaded {s t : Server} {n : ℕ}
    (hs : readConfigFiles b b.privileged F { settings := b.settings } = some s)
    (h : serverRun b (fun _ => F) n = some t) : Reloaded b F s n t := by
  induction n generalizing t with
  | zero =>
    obtain ⟨t', ht', hr⟩ := startUp_reloaded hs
    cases ht'.symm.trans h
    exact hr
  | succ n ih =>
    obtain ⟨u, hu, ht⟩ := Option.bind_eq_some_iff.1 h
    have hstep := (ih hu).sighupRun hs
    split at hstep
    · obtain ⟨t', ht', hr⟩ := hstep
      cases ht'.symm.trans ht
      exact hr
    · cases hstep.symm.trans ht

/-- Without CGIEnv directives no signal makes the server exit. -/
lemma serverRun_isSome {s : Server} (hF : cgiEnvs F = [])
    (hs : readConfigFiles b b.privileged F { settings := b.settings } = some s) (n : ℕ) :
    ∃ t, serverRun b (fun _ => F) n = some t := by
  induction n with
  | zero =>
    obtain ⟨t, ht, -⟩ := startUp_reloaded hs
    exact ⟨t, ht⟩
  | succ n ih =>
    obtain ⟨t, ht⟩ := ih
    have hstep := (serverRun_reloaded hs ht).sighupRun hs
    rw [if_pos (.inl hF)] at hstep
    obtain ⟨t', ht', -⟩ := hstep
    exact ⟨t', by rw [serverRun, ht, Option.bind_some, ht']⟩

/-- The first signal, which adds the variables of the file once. -/
lemma serverRun_one {s : Server}
    (hs : readConfigFiles b b.privileged F { settings := b.settings } = some s) :
    (∃ t, serverRun b (fun _ => F) 1 = some t) ↔
      cgiEnvs F = [] ∨ commonCgiCount b + (cgiEnvs F).length ≤ cgiEnvMax := by
  obtain ⟨t, ht, hr⟩ := startUp_reloaded hs
  have hlen : t.commonCgiEnv.length = commonCgiCount b := by
    simp [hr.env, createCommonEnv_length]
  have hstep := hr.sighupRun hs
  rw [hlen] at hstep
  have hone : serverRun b (fun _ => F) 1 = sighupRun b F t := by
    rw [serverRun, serverRun, ht, Option.bind_some]
  rw [hone]
  split at hstep
  · rename_i hfit
    obtain ⟨t', ht', -⟩ := hstep
    exact ⟨fun _ => hfit, fun _ => ⟨t', ht'⟩⟩
  · rename_i hfit
    simp [hstep, hfit]

/-- However the stack is left, a settled file is read as it stands each time. -/
lemma serverRun_written {G : ℕ → List Directive} (hF : ∀ d ∈ F, d.Settled)
    (hG : ∀ k, (G k).map Directive.written = F.map Directive.written) (n : ℕ) :
    serverRun b G n = serverRun b (fun _ => F) n := by
  induction n with
  | zero =>
    unfold serverRun startUp
    rw [readConfigFiles_written hF (hG 0)]
  | succ n ih =>
    have hsighup : sighupRun b (G (n + 1)) = sighupRun b F := by
      funext s
      exact readConfigFiles_written hF (hG (n + 1)) _
    unfold serverRun
    rw [ih, hsighup]

/-- Start-up and `n` signals leave the tables that the file defines exactly when the file has no CGIEnv
directive, or after the first signal: `create_common_env` forgets the variables that the start-up read, and
every signal appends them once more. -/
theorem reload_tables_iff {G : ℕ → List Directive} (hF : ∀ d ∈ F, d.Settled)
    (hG : ∀ k, (G k).map Directive.written = F.map Directive.written) (h : (startUp b (G 0)).isSome)
    (n : ℕ) : (∃ t, serverRun b G n = some t ∧ t.AsDefined b F) ↔
      cgiEnvs F = [] ∨ n = 1 ∧ commonCgiCount b + (cgiEnvs F).length ≤ cgiEnvMax := by
  obtain ⟨s, hs⟩ : ∃ s, readConfigFiles b b.privileged F { settings := b.settings } = some s := by
    rw [← readConfigFiles_written hF (hG 0)]
    simpa [startUp, Option.isSome_iff_exists] using h
  obtain ⟨u, hu, hx, hsu, -⟩ := readConfigFiles_first hs
  have hparsed : u.Lists b F := parse_lists hu hF (lists_empty b)
  have hlists : s.Lists b F := by
    rw [hsu]
    exact ⟨hparsed.aliases, hparsed.mime, hparsed.access⟩
  have hdefined {t : Server} (ht : Reloaded b F s n t) :
      t.AsDefined b F ↔ (List.replicate n (cgiEnvs F)).flatten = cgiEnvs F := by
    constructor
    · rintro ⟨-, x, hx', henv⟩
      obtain rfl := Option.some.inj (hx.symm.trans hx')
      exact List.append_cancel_left (ht.env.symm.trans henv)
    · intro hvars
      refine ⟨⟨?_, ?_, ?_⟩, _, hx, ?_⟩
      · rw [ht.aliases]
        exact hlists.aliases
      · rw [ht.mime]
        exact hlists.mime
      · rw [ht.access]
        exact hlists.access
      · rw [ht.env, hvars]
  rw [serverRun_written hF hG]
  constructor
  · rintro ⟨t, ht, hdef⟩
    have henv := (hdefined (serverRun_reloaded hs ht)).mp hdef
    have hlen : n * (cgiEnvs F).length = (cgiEnvs F).length := by
      simpa using congrArg List.length henv
    by_cases hnil : cgiEnvs F = []
    · exact .inl hnil
    · have hpos := List.length_pos_iff.2 hnil
      have hn : n = 1 := Nat.eq_of_mul_eq_mul_right hpos (by omega)
      subst hn
      exact .inr ⟨rfl, ((serverRun_one hs).1 ⟨t, ht⟩).resolve_left hnil⟩
  · intro hcase
    have hrun : ∃ t, serverRun b (fun _ => F) n = some t := by
      obtain hnil | ⟨rfl, hfit⟩ := hcase
      · exact serverRun_isSome hnil hs n
      · exact (serverRun_one hs).2 (.inr hfit)
    obtain ⟨t, ht⟩ := hrun
    refine ⟨t, ht, (hdefined (serverRun_reloaded hs ht)).mpr ?_⟩
    obtain hnil | ⟨rfl, -⟩ := hcase
    · simp [hnil]
    · simp

end Run

def plainBoot : Boot := { settings := ⟨fun _ => none, fun _ => 0⟩ }

/-- A file with something for every table; `buf` is on the stack when its mime-types file is read. -/
def fullFile (buf : Bytes) : List Directive :=
  [.setString .serverName (text "localhost"), .setString .defaultType (text "text/plain"),
    .addMimeTypesFile (some (text "# types\ntext/html html htm\n")) buf,
    .addMimeType (text "text/plain") (some (text "txt")),
    .addAlias (confText "/icons" (by decide +kernel)) (some (confText "/srv/icons" (by decide +kernel))) .alias,
    .addAccess (confText "*.bak" (by decide +kernel)) false, .addCgiEnv (text "LANG") (some (text "C"))]

theorem reload_tables_iff_full :
    (∃ t, serverRun plainBoot (fun k => fullFile (List.replicate k 98)) 1 = some t ∧
        t.AsDefined plainBoot (fullFile [])) ↔
      cgiEnvs (fullFile []) = [] ∨
        1 = 1 ∧ commonCgiCount plainBoot + (cgiEnvs (fullFile [])).length ≤ cgiEnvMax := by
  have hsettled : ∀ d ∈ fullFile [], d.Settled := by
    intro d hd
    simp only [fullFile, List.mem_cons, List.not_mem_nil, or_false] at hd
    rcases hd with rfl | rfl | rfl | rfl | rfl | rfl | rfl
    case inr.inr.inl => exact ⟨by decide +kernel, by decide +kernel⟩
    all_goals trivial
  have hstart : (startUp plainBoot (fullFile (List.replicate 0 98))).isSome := by decide +kernel
  exact reload_tables_iff (G := fun k => fullFile (List.replicate k 98)) hsettled (fun _ => rfl) hstart 1

/-- A server named by its file, with one variable for its scripts. -/
def oneVariable : List Directive :=
  [.setString .serverName (text "localhost"), .setString .defaultType (text "text/plain"),
    .addCgiEnv (text "LANG") (some (text "C"))]

/-- The variable is missing after start-up and there twice after the second signal. -/
theorem reload_tables_differ :
    (startUp plainBoot oneVariable).isSome ∧
      (¬ ∃ t, serverRun plainBoot (fun _ => oneVariable) 0 = some t ∧ t.AsDefined plainBoot oneVariable) ∧
      ¬ ∃ t, serverRun plainBoot (fun _ => oneVariable) 2 = some t ∧ t.AsDefined plainBoot oneVariable := by
  have hzero : (serverRun plainBoot (fun _ => oneVariable) 0).map (·.commonCgiEnv.length) = some 6 := by
    decide +kernel
  have htwo : (serverRun plainBoot (fun _ => oneVariable) 2).map (·.commonCgiEnv.length) = some 8 := by
    decide +kernel
  have hseven : ∀ t : Tables, t.AsDefined plainBoot oneVariable → t.commonCgiEnv.length = 7 := by
    rintro t ⟨-, x, -, henv⟩
    rw [henv, List.length_append, createCommonEnv_length]
    decide +kernel
  refine ⟨by decide +kernel, ?_, ?_⟩
  · rintro ⟨t, ht, hdef⟩
    rw [ht, Option.map_some, hseven t.toTables hdef] at hzero
    cases hzero
  · rintro ⟨t, ht, hdef⟩
    rw [ht, Option.map_some, hseven t.toTables hdef] at htwo
    cases htwo

end Boa
