import Boa.Reload
import Boa.Delivery

/-! The variables of a request whose server reads its configuration again meanwhile
(request.c, cgi.c, signals.c): where their strings are kept, which of them a script
gets and which of them `free_request` releases. -/
namespace Boa
open Memory

/-- The entry `i` of `req->cgi_env`. -/
def Request.envCell (c : Request) (i : ℕ) : Option Bytes := c.cgiEnv.getD i none

/-- From `c` to `d` the array was only written by `add_cgi_env`. -/
structure Grown (c d : Request) : Prop where
  le : c.cgiEnvIndex ≤ d.cgiEnvIndex
  frame : ∀ i, i < c.cgiEnvIndex ∨ d.cgiEnvIndex ≤ i → d.envCell i = c.envCell i
  filled : ∀ i, c.cgiEnvIndex ≤ i → i < d.cgiEnvIndex → (d.envCell i).isSome

lemma Grown.of_eq {c d : Request} (he : d.cgiEnv = c.cgiEnv) (hi : d.cgiEnvIndex = c.cgiEnvIndex) :
    Grown c d := by
  refine ⟨hi.ge, fun i _ => by simp [Request.envCell, he], fun i h1 h2 => ?_⟩
  omega

lemma Grown.refl (c : Request) : Grown c c := .of_eq rfl rfl

lemma Grown.trans {c d e : Request} (h : Grown c d) (h' : Grown d e) : Grown c e := by
  refine ⟨h.le.trans h'.le, fun i hi => ?_, fun i h1 h2 => ?_⟩
  · have hd := h.le
    have he := h'.le
    rw [h'.frame i (by omega), h.frame i (by omega)]
  · by_cases hi : i < d.cgiEnvIndex
    · rw [h'.frame i (.inl hi)]
      exact h.filled i h1 hi
    · exact h'.filled i (by omega) h2

/-- The fields besides the array do not matter. -/
lemma Grown.congr {c c' d : Request} (h : Grown c d) (he : c'.cgiEnv = c.cgiEnv)
    (hi : c'.cgiEnvIndex = c.cgiEnvIndex) : Grown c' d := (Grown.of_eq he.symm hi.symm).trans h

lemma Refused.grown {c d : Request} (h : Refused c d) : Grown c d := by
  obtain ⟨o, code, rfl, -⟩ := h
  exact .of_eq rfl rfl

lemma Grown.add {c d : Request} {s : Bytes}
    (he : d.cgiEnv = store c.cgiEnv c.cgiEnvIndex [some s])
    (hi : d.cgiEnvIndex = c.cgiEnvIndex + 1) : Grown c d := by
  have hcell : ∀ i, d.envCell i = if i = c.cgiEnvIndex then some s else c.envCell i := by
    intro i
    simp only [Request.envCell, he, getD_store, List.length_singleton]
    split_ifs with h1 h2 h2
    · simp [h2]
    · omega
    · omega
    · rfl
  refine ⟨by omega, fun i h => ?_, fun i h1 h2 => ?_⟩
  · rw [hcell, if_neg (by omega)]
  · rw [hcell, if_pos (by omega)]
    rfl

namespace Request

lemma addCgiEnv_grown (c : Request) (key value : Bytes) (b : Bool) :
    Grown c (c.addCgiEnv key value b).1 := by
  unfold addCgiEnv
  split_ifs
  · exact .add rfl rfl
  · exact .refl c

lemma addCgiEnvs_grown (c : Request) (kvs : List (Bytes × Bytes)) :
    Grown c (c.addCgiEnvs kvs).1 := by
  induction kvs generalizing c with
  | nil => exact .refl c
  | cons kv kvs ih =>
    have h := addCgiEnv_grown c kv.1 kv.2 false
    unfold addCgiEnvs
    split
    · next d hd =>
      rw [hd] at h
      exact h.trans (ih d)
    · next d hd =>
      rw [hd] at h
      exact h

lemma rangeOption_grown (env : Env) (c : Request) (value : Bytes) :
    Grown c (c.rangeOption env value).1 := by
  unfold rangeOption
  split
  · exact .refl c
  · obtain ⟨rs, n, he, -⟩ := rangeParse_spec c value
    have hp : Grown c (c.rangeParse value).1 := by
      rw [he]
      exact .of_eq rfl rfl
    split
    · next d hd =>
      rw [hd] at hp
      exact hp.trans (sendRInvalidRange_refused env d).grown
    · next d hd =>
      rw [hd] at hp
      exact hp

lemma Grown_ite {c : Request} {p : Prop} [Decidable p] {r r' : Request × Option Bool}
    (h : Grown c r.1) (h' : Grown c r'.1) : Grown c (if p then r else r').1 := by
  split_ifs
  · exact h
  · exact h'

lemma optionSwitch_grown (env : Env) (c : Request) (key value : Bytes) :
    Grown c (c.optionSwitch env key value).1 := by
  unfold optionSwitch
  refine Grown_ite (.refl c) ?_
  iterate 5
    refine Grown_ite (.of_eq rfl rfl) ?_
  refine Grown_ite ?_ (Grown_ite (rangeOption_grown env c value)
    (Grown_ite ?_ (Grown_ite (.of_eq rfl rfl) (.refl c))))
  · have h : Grown c _ := (addCgiEnv_grown { c with headerReferer := some value } (text "REFERER")
      value true).congr rfl rfl
    split
    · next d hd =>
      rw [hd] at h
      exact h
    · next d hd =>
      rw [hd] at h
      exact h
  · exact (addCgiEnv_grown { c with headerUserAgent := some value } (text "USER_AGENT") value
      true).congr rfl rfl

lemma processOptionLine_grown (env : Env) (c : Request) :
    Grown c (c.processOptionLine env).1 := by
  have hlog : Grown c (c.log (.optionLine c.lineAt)) := .of_eq rfl rfl
  unfold processOptionLine
  dsimp only
  split
  · exact hlog
  · next v _ =>
    split_ifs
    · exact hlog
    · have hs := optionSwitch_grown env (c.log (.optionLine c.lineAt))
        (toUpper (c.lineAt.takeWhile (· ≠ colon))) (v.dropWhile (fun b => b = space ∨ b = tab))
      split
      · next d ok hd =>
        rw [hd] at hs
        exact hlog.trans hs
      · next d hd =>
        rw [hd] at hs
        exact (hlog.trans hs).trans (addCgiEnv_grown d _ _ _)

/-- The copy of the common environment at the start of `complete_env`. -/
def withCommon (c : Request) (cfg : Config) : Request :=
  { c with cgiEnv := store c.cgiEnv 0 (cfg.commonCgiEnv.map some) }

lemma envCell_withCommon (c : Request) (cfg : Config) (i : ℕ) :
    (c.withCommon cfg).envCell i = (cfg.commonCgiEnv[i]?).or (c.envCell i) := by
  simp only [withCommon, envCell, getD_store, List.length_map, Nat.zero_le, true_and, Nat.zero_add,
    Nat.sub_zero]
  split_ifs with h
  · simp [List.getElem?_eq_getElem h]
  · rw [List.getElem?_eq_none (by omega), Option.none_or]

/-- `complete_env`: the common variables, more variables behind the others, and a NULL. -/
lemma completeEnv_eq (cfg : Config) (c : Request) : c.completeEnv cfg =
    match (c.withCommon cfg).addCgiEnvs ((c.withCommon cfg).serverVariables cfg) with
    | (e, false) => (e, false)
    | (e, true) =>
      if e.cgiEnvIndex < cgiEnvMax + 1 then
        ({ e with cgiEnv := store e.cgiEnv e.cgiEnvIndex [none] }, true)
      else (e, false) := rfl

lemma completeEnv_grown (cfg : Config) (c : Request) :
    ∃ e, Grown (c.withCommon cfg) e ∧ (c.completeEnv cfg).1.cgiEnvIndex = e.cgiEnvIndex ∧
      ∀ i, (c.completeEnv cfg).1.envCell i =
        if (c.completeEnv cfg).2 = true ∧ i = e.cgiEnvIndex then none else e.envCell i := by
  have h := addCgiEnvs_grown (c.withCommon cfg) (serverVariables cfg (c.withCommon cfg))
  rw [completeEnv_eq]
  generalize (c.withCommon cfg).addCgiEnvs (serverVariables cfg (c.withCommon cfg)) = r at h
  obtain ⟨e, ok⟩ := r
  refine ⟨e, h, ?_⟩
  cases ok
  · exact ⟨rfl, fun i => by simp⟩
  · dsimp only
    split_ifs
    · refine ⟨rfl, fun i => ?_⟩
      simp only [envCell, getD_store, List.length_singleton]
      split_ifs with h1 h2 h2
      · simp [h2]
      · simp at h2
        omega
      · simp at h2
        omega
      · rfl
    · exact ⟨rfl, fun i => by simp⟩

/-- Nothing was written to the array. -/
def SameArray (c d : Request) : Prop := d.cgiEnv = c.cgiEnv ∧ d.cgiEnvIndex = c.cgiEnvIndex

lemma SameArray.trans {c d e : Request} (h : c.SameArray d) (h' : d.SameArray e) :
    c.SameArray e := ⟨h'.1.trans h.1, h'.2.trans h.2⟩

lemma spawn_sameArray (env : Env) (c : Request) : c.SameArray (c.spawn env).1 := by
  have hlog : c.SameArray (if c.usesPipes then c.log (.opened env.pipeFd) else c) := by
    split_ifs <;> exact ⟨rfl, rfl⟩
  unfold spawn
  generalize (if c.usesPipes then c.log (.opened env.pipeFd) else c) = d at hlog ⊢
  have hperr : d.SameArray (d.boaPerror env) := by
    obtain ⟨o, code, he, -⟩ := sendRError_refused env d
    rw [show d.boaPerror env = _ from he]
    exact ⟨rfl, rfl⟩
  have hpost : d.SameArray d.closePostData := by
    unfold closePostData
    split_ifs <;> exact ⟨rfl, rfl⟩
  dsimp only
  split_ifs
  · exact ⟨rfl, rfl⟩
  · exact hlog.trans ⟨rfl, rfl⟩
  · exact (hlog.trans hperr).trans ⟨rfl, rfl⟩
  · exact hlog.trans hperr
  · exact (hlog.trans hpost).trans ⟨rfl, rfl⟩
  · exact hlog.trans hpost

lemma initCgi_sameArray (env : Env) (c : Request) :
    (if c.cgiType = .none then c else (c.squashKa.completeEnv env.cfg).1).SameArray
      (c.initCgi env).1 := by
  have hka : c.squashKa.cgiType = c.cgiType := rfl
  unfold initCgi
  dsimp only
  rw [hka]
  split_ifs
  · exact SameArray.trans ⟨rfl, rfl⟩ (spawn_sameArray env c.squashKa)
  · generalize c.squashKa.completeEnv env.cfg = r
    obtain ⟨d, ok⟩ := r
    cases ok
    · exact ⟨rfl, rfl⟩
    · exact spawn_sameArray env d

/-- A request line that is accepted sets the index behind the common variables. -/
lemma processLogline_array (env : Env) (c : Request) (h : (c.processLogline env).2 = true) :
    (c.processLogline env).1.cgiEnv = c.cgiEnv ∧
      (c.processLogline env).1.cgiEnvIndex = env.cfg.commonCgiEnv.length := by
  have hfinish : ∀ (d : Request) (version : Bytes), (d.finishLogline env version).2 = true →
      (d.finishLogline env version).1.cgiEnv = d.cgiEnv ∧
        (d.finishLogline env version).1.cgiEnvIndex = env.cfg.commonCgiEnv.length := by
    intro d version hd
    unfold finishLogline at hd ⊢
    split at hd
    · cases hd
    · dsimp only at hd ⊢
      split_ifs at hd ⊢
      all_goals exact ⟨rfl, rfl⟩
  have htarget : ∀ (d : Request) (rest : Bytes), (d.parseTarget env rest).2 = true →
      (d.parseTarget env rest).1.cgiEnv = d.cgiEnv ∧
        (d.parseTarget env rest).1.cgiEnvIndex = env.cfg.commonCgiEnv.length := by
    intro d rest hd
    unfold parseTarget at hd ⊢
    dsimp only at hd ⊢
    split_ifs at hd ⊢
    split at hd
    · exact hfinish _ _ hd
    · split at hd
      · cases hd
      · exact hfinish _ _ hd
  unfold processLogline at h ⊢
  dsimp only at h ⊢
  split_ifs at h ⊢
  split at h
  · cases h
  · exact htarget _ _ h

end Request

/-- A string that `env_gen_extra` allocated: for the request, by the number of the
allocation, or for the server. -/
structure EnvVar where
  alloc : Option ℕ
  text : Bytes
  deriving DecidableEq, Repr

/-- A request between its first line and `free_request`, with the tables of the server. -/
structure Flight where
  server : Server
  req : Request
  /-- the pointers in `req->cgi_env`, to the strings that `req` holds -/
  slots : ℕ → Option EnvVar
  /-- the strings allocated for the request so far -/
  allocs : ℕ := 0
  /-- the variables that `add_cgi_env` stored for header lines -/
  added : List EnvVar := []
  /-- the array that `complete_env` built -/
  built : Option (List (Option EnvVar)) := none

/-- Steps of the server between those of the request: a SIGHUP, or other code, which
does not touch the array. -/
inductive Pause
  | reload (F : List Directive)
  | other (d : Request)

/-- A step between the request line and the end of the header. -/
inductive HeaderStep
  | pause (p : Pause)
  | optionLine (env : Env)

namespace Flight

/-- The common environment is the server's at the moment. -/
def env (f : Flight) (e : Env) : Env :=
  { e with cfg := { e.cfg with commonCgiEnv := f.server.commonCgiEnv } }

/-- The string a call of `add_cgi_env` stored in slot `i` on the way to `c`. -/
def newVar (f : Flight) (c : Request) (i : ℕ) : Option EnvVar :=
  (c.envCell i).map (EnvVar.mk (some (f.allocs + (i - f.req.cgiEnvIndex))))

/-- The request is now `c`: every slot that the index passed has a string of its own. -/
def grow (f : Flight) (c : Request) : Flight :=
  { f with
    req := c
    slots := fun i =>
      if f.req.cgiEnvIndex ≤ i ∧ i < c.cgiEnvIndex then f.newVar c i else f.slots i
    allocs := f.allocs + (c.cgiEnvIndex - f.req.cgiEnvIndex) }

/-- `process_logline` on a request with any old array. -/
def start (s : Server) (e : Env) (c : Request) : Flight :=
  { server := s
    req := (c.processLogline { e with cfg := { e.cfg with commonCgiEnv := s.commonCgiEnv } }).1
    slots := fun i => (c.envCell i).map (EnvVar.mk none) }

def optionLine (f : Flight) (e : Env) : Flight :=
  let c := (f.req.processOptionLine (f.env e)).1
  { f.grow c with
    added := f.added ++
      (List.range' f.req.cgiEnvIndex (c.cgiEnvIndex - f.req.cgiEnvIndex)).filterMap (f.newVar c) }

/-- The loop of `complete_env` that copies the pointers of the common environment. -/
def copyCommon (f : Flight) : Flight :=
  { f with slots := fun i => (f.server.commonCgiEnv[i]?.map (EnvVar.mk none)).or (f.slots i) }

def initCgi (f : Flight) (e : Env) : Flight :=
  let c := (f.req.initCgi (f.env e)).1
  if f.req.cgiType = .none then { f with req := c }
  else
    let g := f.copyCommon.grow c
    if (f.req.squashKa.completeEnv (f.env e).cfg).2 then
      { g with
        slots := Function.update g.slots c.cgiEnvIndex none
        built := some ((List.range c.cgiEnvIndex).map g.slots) }
    else g

/-- `none` when the server exits. -/
def pause (b : Boot) (f : Flight) : Pause → Option Flight
  | .reload F => (sighupRun b F f.server).map fun s => { f with server := s }
  | .other d =>
    some { f with req := { d with cgiEnv := f.req.cgiEnv, cgiEnvIndex := f.req.cgiEnvIndex } }

def headerStep (b : Boot) (f : Flight) : HeaderStep → Option Flight
  | .pause p => f.pause b p
  | .optionLine e => some (f.optionLine e)

/-- From the request line to `free_request`: header lines, `init_cgi` if it comes to that,
and reloads at any point. -/
def run (b : Boot) (f : Flight) (header : List HeaderStep) (cgi : Option Env)
    (rest : List Pause) : Option Flight :=
  (header.foldlM (headerStep b) f).bind fun f =>
    rest.foldlM (pause b) ((cgi.map f.initCgi).getD f)

/-- How often the loop of `free_request` releases a string. -/
def releases (f : Flight) (v : EnvVar) : ℕ :=
  ((Finset.Ico f.server.commonCgiEnv.length f.req.cgiEnvIndex).filter
    fun i => f.slots i = some v).card

/-- A script gets every variable of the header, and each is released once. -/
def Undamaged (f : Flight) : Prop :=
  (∀ a ∈ f.built, ∀ v ∈ f.added, some v ∈ a) ∧ ∀ v ∈ f.added, f.releases v = 1

end Flight

/-- The files read by SIGHUPs. -/
def Pause.file? : Pause → Option (List Directive)
  | .reload F => some F
  | .other _ => none

def HeaderStep.file? : HeaderStep → Option (List Directive)
  | .pause p => p.file?
  | .optionLine _ => none


lemma sighupRun_env {b : Boot} {F : List Directive} {s t : Server}
    (h : sighupRun b F s = some t) : t.commonCgiEnv = s.commonCgiEnv ++ cgiEnvs F := by
  unfold sighupRun readConfigFiles at h
  generalize hs : Server.accessInit b { s with
    mimeHashtable := dumpMime s.mimeHashtable
    aliasHashtable := dumpAlias s.aliasHashtable } = s' at h
  have henv : s'.commonCgiEnv = s.commonCgiEnv := by
    rw [← hs]
    unfold Server.accessInit
    split_ifs <;> rfl
  cases hp : F.foldlM (Directive.apply b (b.privileged && !b.drops)) s' with
  | none => simp [hp] at h
  | some u =>
    simp only [hp, Option.map_eq_some_iff] at h
    obtain ⟨x, -, rfl⟩ := h
    have hu := parse_again hp id s'.commonCgiEnv s'.settings
    rw [hp] at hu
    split at hu
    · injection hu with hu
      rw [← henv]
      exact congrArg (fun v : Server => v.commonCgiEnv) hu
    · cases hu

namespace Flight

/-- What holds of a request whose first line was read when there were `n` common
variables: its own strings stand in order from slot `n` on, unless the common environment
has grown since. -/
structure Held (n : ℕ) (f : Flight) : Prop where
  index : f.req.cgiEnvIndex = n + f.allocs
  view : ∀ i, (f.slots i).map EnvVar.text = f.req.envCell i
  place : ∀ i v k, f.slots i = some v → v.alloc = some k → i = n + k
  number : ∀ v ∈ f.added, ∃ k < f.allocs, v.alloc = some k
  first : f.added ≠ [] → ∃ v ∈ f.added, v.alloc = some 0
  count : n ≤ f.server.commonCgiEnv.length
  kept : f.server.commonCgiEnv.length = n →
    ∀ v ∈ f.added, ∀ k, v.alloc = some k → f.slots (n + k) = some v
  array : f.server.commonCgiEnv.length = n → ∀ a ∈ f.built, ∀ v ∈ f.added, some v ∈ a

/-- While the header is read, every string of the request is a header variable. -/
structure Parsing (n : ℕ) (f : Flight) : Prop extends Held n f where
  unbuilt : f.built = none
  only : f.added = [] → f.allocs = 0

lemma start_parsing {s : Server} {e : Env} {c : Request}
    (h : (c.processLogline
      { e with cfg := { e.cfg with commonCgiEnv := s.commonCgiEnv } }).2 = true) :
    Parsing s.commonCgiEnv.length (start s e c) := by
  obtain ⟨h1, h2⟩ := Request.processLogline_array _ c h
  refine ⟨⟨h2, fun i => ?_, ?_, ?_, ?_, le_rfl, ?_, ?_⟩, rfl, fun _ => rfl⟩
  · simp [start, Request.envCell, h1, Function.comp_def]
  · intro i v k hi hk
    obtain ⟨x, -, rfl⟩ := Option.map_eq_some_iff.1 hi
    cases hk
  · intro v hv
    cases hv
  · intro hne
    exact (hne rfl).elim
  · intro _ v hv
    cases hv
  · intro _ a ha
    cases ha

variable {n : ℕ} {f : Flight} {c : Request}

lemma grow_view {c₀ : Request} (hview : ∀ i, (f.slots i).map EnvVar.text = c₀.envCell i)
    (hi : c₀.cgiEnvIndex = f.req.cgiEnvIndex) (h : Grown c₀ c) (i : ℕ) :
    ((f.grow c).slots i).map EnvVar.text = c.envCell i := by
  simp only [grow]
  split_ifs with hin
  · simp [newVar, Function.comp_def]
  · rw [hview, h.frame i (by omega)]

lemma grow_place (hindex : f.req.cgiEnvIndex = n + f.allocs)
    (hplace : ∀ i v k, f.slots i = some v → v.alloc = some k → i = n + k) (i : ℕ) (v : EnvVar)
    (k : ℕ) (hi : (f.grow c).slots i = some v) (hk : v.alloc = some k) : i = n + k := by
  simp only [grow] at hi
  split_ifs at hi with hin
  · obtain ⟨x, -, rfl⟩ := Option.map_eq_some_iff.1 hi
    injection hk with hk
    omega
  · exact hplace i v k hi hk

/-- A slot that a growing index does not pass. -/
lemma grow_slots_of_lt {i : ℕ} (h : i < f.req.cgiEnvIndex) : (f.grow c).slots i = f.slots i :=
  if_neg (by omega)

lemma Parsing.optionLine (h : Parsing n f) (e : Env) : Parsing n (f.optionLine e) := by
  have hg := Request.processOptionLine_grown (f.env e) f.req
  have hle := hg.le
  have hindex := h.index
  unfold Flight.optionLine
  generalize (f.req.processOptionLine (f.env e)).1 = c at hg hle
  -- the variables of the line, and where each of them is
  have hnew : ∀ v ∈ (List.range' f.req.cgiEnvIndex
      (c.cgiEnvIndex - f.req.cgiEnvIndex)).filterMap (f.newVar c),
      ∃ i, f.req.cgiEnvIndex ≤ i ∧ i < c.cgiEnvIndex ∧ (f.grow c).slots i = some v ∧
        v.alloc = some (f.allocs + (i - f.req.cgiEnvIndex)) := by
    intro v hv
    obtain ⟨i, hi, hv⟩ := List.mem_filterMap.1 hv
    have hi := List.mem_range'_1.1 hi
    refine ⟨i, by omega, by omega, ?_, ?_⟩
    · simp only [grow]
      rw [if_pos (by omega), hv]
    · obtain ⟨x, -, rfl⟩ := Option.map_eq_some_iff.1 hv
      rfl
  -- a line that moves the index adds a variable in the slot where the index was
  have hfirst : f.req.cgiEnvIndex < c.cgiEnvIndex →
      ∃ v ∈ (List.range' f.req.cgiEnvIndex
        (c.cgiEnvIndex - f.req.cgiEnvIndex)).filterMap (f.newVar c), v.alloc = some f.allocs := by
    intro hlt
    obtain ⟨x, hx⟩ := Option.isSome_iff_exists.1 (hg.filled f.req.cgiEnvIndex le_rfl hlt)
    refine ⟨⟨some f.allocs, x⟩, List.mem_filterMap.2 ⟨f.req.cgiEnvIndex, ?_, ?_⟩, rfl⟩
    · exact List.mem_range'_1.2 (by omega)
    · simp [newVar, hx]
  refine ⟨⟨?_, grow_view h.view rfl hg, grow_place hindex h.place, ?_, ?_, h.count, ?_, ?_⟩,
    h.unbuilt, ?_⟩
  · simp only [grow]
    omega
  · intro v hv
    obtain hv | hv := List.mem_append.1 hv
    · obtain ⟨k, hk, hvk⟩ := h.number v hv
      exact ⟨k, hk.trans_le (Nat.le_add_right _ _), hvk⟩
    · obtain ⟨i, h1, h2, -, hk⟩ := hnew v hv
      exact ⟨_, by simp only [grow]; omega, hk⟩
  · intro hne
    by_cases ha : f.added = []
    · have hlt : f.req.cgiEnvIndex < c.cgiEnvIndex := by
        by_contra hge
        simp only [ha, List.nil_append, Nat.sub_eq_zero_of_le (not_lt.1 hge)] at hne
        exact hne rfl
      obtain ⟨v, hv, hk⟩ := hfirst hlt
      exact ⟨v, List.mem_append_right _ hv, by rw [hk, h.only ha]⟩
    · obtain ⟨v, hv, hk⟩ := h.first ha
      exact ⟨v, List.mem_append_left _ hv, hk⟩
  · intro hcount v hv k hk
    obtain hv | hv := List.mem_append.1 hv
    · obtain ⟨k', hlt, hk'⟩ := h.number v hv
      have heq : k' = k := Option.some_inj.1 (hk'.symm.trans hk)
      rw [← h.kept hcount v hv k hk]
      exact grow_slots_of_lt (by omega)
    · obtain ⟨i, h1, -, hi, hk'⟩ := hnew v hv
      have heq := Option.some_inj.1 (hk'.symm.trans hk)
      obtain rfl : i = n + k := by omega
      exact hi
  · intro _ a (ha : a ∈ f.built)
    rw [h.unbuilt] at ha
    cases ha
  · intro ha
    obtain ⟨ha, hn⟩ := List.append_eq_nil_iff.1 ha
    have hge : ¬f.req.cgiEnvIndex < c.cgiEnvIndex := by
      intro hlt
      obtain ⟨v, hv, -⟩ := hfirst hlt
      rw [hn] at hv
      cases hv
    simp only [grow, h.only ha]
    omega

lemma Held.pause {b : Boot} {p : Pause} {g : Flight} (h : Held n f) (hp : f.pause b p = some g) :
    Held n g ∧ g.added = f.added ∧ g.allocs = f.allocs ∧ g.built = f.built ∧
      g.server.commonCgiEnv = f.server.commonCgiEnv ++ p.file?.toList.flatMap cgiEnvs := by
  cases p with
  | reload F =>
    obtain ⟨s, hs, rfl⟩ := Option.map_eq_some_iff.1 hp
    have henv := sighupRun_env hs
    have hle : f.server.commonCgiEnv.length ≤ s.commonCgiEnv.length := by simp [henv]
    refine ⟨⟨h.index, h.view, h.place, h.number, h.first, h.count.trans hle, ?_, ?_⟩, rfl, rfl, rfl,
      by simpa [Pause.file?] using henv⟩
    · intro hn
      exact h.kept (le_antisymm (hle.trans hn.le) h.count)
    · intro hn
      exact h.array (le_antisymm (hle.trans hn.le) h.count)
  | other d =>
    cases hp
    exact ⟨⟨h.index, h.view, h.place, h.number, h.first, h.count, h.kept, h.array⟩, rfl, rfl, rfl,
      by simp [Pause.file?]⟩

lemma Parsing.headerStep {b : Boot} {p : HeaderStep} {g : Flight} (h : Parsing n f)
    (hp : f.headerStep b p = some g) : Parsing n g ∧
      g.server.commonCgiEnv = f.server.commonCgiEnv ++ p.file?.toList.flatMap cgiEnvs := by
  cases p with
  | pause p =>
    obtain ⟨hg, hadd, hall, hbuilt, henv⟩ := h.toHeld.pause hp
    exact ⟨⟨hg, hbuilt.trans h.unbuilt, by rw [hadd, hall]; exact h.only⟩, henv⟩
  | optionLine e =>
    cases hp
    exact ⟨h.optionLine e, by simp [HeaderStep.file?, Flight.optionLine, grow]⟩

lemma Held.copyCommon_place (h : Held n f) (i : ℕ) (v : EnvVar) (k : ℕ)
    (hi : f.copyCommon.slots i = some v) (hk : v.alloc = some k) : i = n + k := by
  simp only [copyCommon, Option.or_eq_some_iff, Option.map_eq_some_iff] at hi
  obtain ⟨x, -, rfl⟩ | ⟨-, hi⟩ := hi
  · cases hk
  · exact h.place i v k hi hk

/-- With no new common variables the copy and the added variables spare the header's. -/
lemma Held.copyCommon_kept (h : Held n f) (hcount : f.server.commonCgiEnv.length = n) {v : EnvVar}
    (hv : v ∈ f.added) {k : ℕ} (hk : v.alloc = some k) :
    (f.copyCommon.grow c).slots (n + k) = some v ∧ n + k < f.req.cgiEnvIndex := by
  obtain ⟨k', hlt, hk'⟩ := h.number v hv
  have hkk : k' = k := Option.some_inj.1 (hk'.symm.trans hk)
  have hindex := h.index
  have hin : n + k < f.req.cgiEnvIndex := by omega
  refine ⟨?_, hin⟩
  rw [grow_slots_of_lt (show n + k < f.copyCommon.req.cgiEnvIndex from hin)]
  simp only [copyCommon]
  rw [List.getElem?_eq_none (by omega), Option.map_none, Option.none_or]
  exact h.kept hcount v hv k hk

lemma Held.copyCommon_view (h : Held n f) {e : Env} {d : Request}
    (hg : Grown (f.req.squashKa.withCommon (f.env e).cfg) d) (hi : c.cgiEnvIndex = d.cgiEnvIndex)
    (hcell : ∀ i, i ≠ d.cgiEnvIndex → c.envCell i = d.envCell i) (i : ℕ) :
    ((f.copyCommon.grow c).slots i).map EnvVar.text = d.envCell i := by
  have hidx : (f.req.squashKa.withCommon (f.env e).cfg).cgiEnvIndex = f.req.cgiEnvIndex := rfl
  simp only [grow]
  split_ifs with hin
  · simp only [newVar, Option.map_map, Function.comp_def, Option.map_id_fun', id_eq]
    exact hcell i (by omega)
  · simp only [copyCommon] at hin ⊢
    have hframe := hg.frame i (by omega)
    have hsq : f.req.squashKa.envCell i = f.req.envCell i := rfl
    rw [hframe, Request.envCell_withCommon, hsq, ← h.view]
    have hc : (f.env e).cfg.commonCgiEnv = f.server.commonCgiEnv := rfl
    rw [hc]
    cases f.server.commonCgiEnv[i]? <;> simp

lemma Held.initCgi (h : Held n f) (hbuilt : f.built = none) (e : Env) : Held n (f.initCgi e) := by
  have harr := Request.initCgi_sameArray (f.env e) f.req
  obtain ⟨d, hg, hdi, hcell⟩ := Request.completeEnv_grown (f.env e).cfg f.req.squashKa
  unfold Flight.initCgi
  generalize (f.req.initCgi (f.env e)).1 = c at harr
  generalize f.req.squashKa.completeEnv (f.env e).cfg = r at harr hdi hcell
  dsimp only
  by_cases hnone : f.req.cgiType = .none
  · rw [if_pos hnone] at harr ⊢
    refine ⟨harr.2.trans h.index, fun i => ?_, h.place, h.number, h.first, h.count, h.kept, h.array⟩
    rw [h.view, Request.envCell, Request.envCell, harr.1]
  rw [if_neg hnone] at harr ⊢
  have hci : c.cgiEnvIndex = d.cgiEnvIndex := harr.2.trans hdi
  have hcc : ∀ i, c.envCell i = if r.2 = true ∧ i = d.cgiEnvIndex then none else d.envCell i := by
    intro i
    rw [← hcell i, Request.envCell, harr.1]
    rfl
  have hview := h.copyCommon_view hg hci fun i hi => by rw [hcc, if_neg (fun h => hi h.2)]
  have hplace := grow_place (c := c) (f := f.copyCommon) h.index h.copyCommon_place
  have hle : f.req.cgiEnvIndex ≤ d.cgiEnvIndex := hg.le
  have hindex : c.cgiEnvIndex = n + (f.copyCommon.grow c).allocs := by
    have := h.index
    simp only [grow, copyCommon]
    omega
  have hnumber : ∀ v ∈ f.added, ∃ k < (f.copyCommon.grow c).allocs, v.alloc = some k := by
    intro v hv
    obtain ⟨k, hk, hvk⟩ := h.number v hv
    exact ⟨k, hk.trans_le (Nat.le_add_right _ _), hvk⟩
  split_ifs with hok
  · refine ⟨hindex, fun i => ?_, fun i v k hi hk => ?_, hnumber, h.first, h.count, ?_, ?_⟩
    · have hreq : (f.copyCommon.grow c).req = c := rfl
      dsimp only
      rw [hreq, hcc, Function.update_apply, hci]
      simp only [hok, true_and]
      split_ifs
      · rfl
      · exact hview i
    · simp only [Function.update_apply] at hi
      split_ifs at hi
      exact hplace i v k hi hk
    · intro hcount v hv k hk
      obtain ⟨h1, h2⟩ := h.copyCommon_kept (c := c) hcount hv hk
      simp only [Function.update_apply]
      rw [if_neg (by omega)]
      exact h1
    · intro hcount a ha v hv
      cases ha
      obtain ⟨k, -, hk⟩ := h.number v hv
      obtain ⟨h1, h2⟩ := h.copyCommon_kept (c := c) hcount hv hk
      exact List.mem_map.2 ⟨n + k, List.mem_range.2 (by omega), h1⟩
  · refine ⟨hindex, fun i => ?_, hplace, hnumber, h.first, h.count, ?_, ?_⟩
    · have hreq : (f.copyCommon.grow c).req = c := rfl
      rw [hview, hreq, hcc, if_neg (fun h => hok h.1)]
    · intro hcount v hv k hk
      exact (h.copyCommon_kept hcount hv hk).1
    · intro _ a (ha : a ∈ f.built)
      rw [hbuilt] at ha
      cases ha

lemma Parsing.header {b : Boot} {header : List HeaderStep} {g : Flight} (h : Parsing n f)
    (hg : header.foldlM (Flight.headerStep b) f = some g) : Parsing n g ∧
      g.server.commonCgiEnv =
        f.server.commonCgiEnv ++ (header.filterMap HeaderStep.file?).flatMap cgiEnvs := by
  induction header generalizing f with
  | nil =>
    cases hg
    exact ⟨h, by simp⟩
  | cons p ps ih =>
    simp only [List.foldlM_cons, Option.bind_eq_bind, Option.bind_eq_some_iff] at hg
    obtain ⟨u, hu, hg⟩ := hg
    obtain ⟨hu, henv⟩ := h.headerStep hu
    obtain ⟨hg, henv'⟩ := ih hu hg
    refine ⟨hg, ?_⟩
    rw [henv', henv]
    cases hp : p.file? <;> simp [hp]

lemma Held.rest {b : Boot} {rest : List Pause} {g : Flight} (h : Held n f)
    (hg : rest.foldlM (Flight.pause b) f = some g) : Held n g ∧ g.added = f.added ∧
      g.server.commonCgiEnv =
        f.server.commonCgiEnv ++ (rest.filterMap Pause.file?).flatMap cgiEnvs := by
  induction rest generalizing f with
  | nil =>
    cases hg
    exact ⟨h, rfl, by simp⟩
  | cons p ps ih =>
    simp only [List.foldlM_cons, Option.bind_eq_bind, Option.bind_eq_some_iff] at hg
    obtain ⟨u, hu, hg⟩ := hg
    obtain ⟨hu, hadd, -, -, henv⟩ := h.pause hu
    obtain ⟨hg, hadd', henv'⟩ := ih hu hg
    refine ⟨hg, hadd'.trans hadd, ?_⟩
    rw [henv', henv]
    cases hp : p.file? <;> simp [hp]

lemma initCgi_server (e : Env) : (f.initCgi e).server = f.server := by
  unfold Flight.initCgi
  dsimp only
  split_ifs <;> rfl

lemma Parsing.run {b : Boot} {header : List HeaderStep} {cgi : Option Env} {rest : List Pause}
    {g : Flight} (h : Parsing n f) (hg : f.run b header cgi rest = some g) : Held n g ∧
      g.server.commonCgiEnv = f.server.commonCgiEnv ++
        (header.filterMap HeaderStep.file? ++ rest.filterMap Pause.file?).flatMap cgiEnvs := by
  obtain ⟨u, hu, hg⟩ := Option.bind_eq_some_iff.1 hg
  obtain ⟨hu, henv⟩ := h.header hu
  have hcgi : Held n ((cgi.map u.initCgi).getD u) ∧
      ((cgi.map u.initCgi).getD u).server = u.server := by
    cases cgi with
    | none => exact ⟨hu.toHeld, rfl⟩
    | some e => exact ⟨hu.toHeld.initCgi hu.unbuilt e, initCgi_server e⟩
  obtain ⟨hg, -, henv'⟩ := hcgi.1.rest hg
  refine ⟨hg, ?_⟩
  rw [henv', hcgi.2, henv, List.flatMap_append, List.append_assoc]

/-- Slots below the common count are not released. -/
lemma Held.not_released (h : Held n f) (hlt : n < f.server.commonCgiEnv.length) {v : EnvVar}
    (hv : v.alloc = some 0) : f.releases v = 0 := by
  rw [releases, Finset.card_eq_zero, Finset.filter_eq_empty_iff]
  intro i hi hslot
  have := h.place i v 0 hslot hv
  have := (Finset.mem_Ico.1 hi).1
  omega

/-- With an unchanged count each header variable is released once. -/
lemma Held.released (h : Held n f) (hcount : f.server.commonCgiEnv.length = n) {v : EnvVar}
    (hv : v ∈ f.added) : f.releases v = 1 := by
  obtain ⟨k, hlt, hk⟩ := h.number v hv
  rw [releases, Finset.card_eq_one]
  refine ⟨n + k, Finset.ext fun i => ?_⟩
  rw [Finset.mem_filter, Finset.mem_singleton, Finset.mem_Ico]
  constructor
  · rintro ⟨-, hslot⟩
    exact h.place i v k hslot hk
  · rintro rfl
    have := h.index
    exact ⟨by omega, h.kept hcount v hv k hk⟩

end Flight

/-- The pointers of the run are those of the strings in the request's array, in every state. -/
theorem flight_view {b : Boot} {s : Server} {e : Env} {c : Request} {header : List HeaderStep}
    {cgi : Option Env} {rest : List Pause} {f : Flight}
    (hline : (c.processLogline
      { e with cfg := { e.cfg with commonCgiEnv := s.commonCgiEnv } }).2 = true)
    (h : (Flight.start s e c).run b header cgi rest = some f) (i : ℕ) :
    (f.slots i).map EnvVar.text = f.req.envCell i :=
  ((Flight.start_parsing hline).run h).1.view i

/-- A reload damages a request in flight exactly when it reads a CGIEnv directive after the
request line and the header has a line that becomes a variable. -/
theorem flight_undamaged_iff {b : Boot} {s : Server} {e : Env} {c : Request}
    {header : List HeaderStep} {cgi : Option Env} {rest : List Pause} {f : Flight}
    (hline : (c.processLogline
      { e with cfg := { e.cfg with commonCgiEnv := s.commonCgiEnv } }).2 = true)
    (h : (Flight.start s e c).run b header cgi rest = some f) :
    f.Undamaged ↔ f.added = [] ∨
      ∀ F ∈ header.filterMap HeaderStep.file? ++ rest.filterMap Pause.file?, cgiEnvs F = [] := by
  obtain ⟨hf, henv⟩ := (Flight.start_parsing hline).run h
  have hcount : f.server.commonCgiEnv.length = s.commonCgiEnv.length ↔
      ∀ F ∈ header.filterMap HeaderStep.file? ++ rest.filterMap Pause.file?, cgiEnvs F = [] := by
    rw [henv, List.length_append, ← List.flatMap_eq_nil_iff, ← List.length_eq_zero_iff]
    exact Nat.add_eq_left
  rw [← hcount]
  constructor
  · rintro ⟨-, hreleased⟩
    by_cases hadd : f.added = []
    · exact .inl hadd
    · obtain ⟨v, hv, hk⟩ := hf.first hadd
      right
      by_contra hne
      have hzero := hf.not_released (lt_of_le_of_ne hf.count (Ne.symm hne)) hk
      rw [hreleased v hv] at hzero
      cases hzero
  · rintro (hadd | hn)
    · simp [Flight.Undamaged, hadd]
    · exact ⟨hf.array hn, fun v hv => hf.released hn hv⟩

/-- A request of which the given line is the next. -/
def lineRequest (line : String) : Request :=
  { clientStream := text line, cgiType := .cgi, scriptName := some [] }

/-- A CGI request with one header line; the server reads `F` before the script starts. -/
def shortFlight (F : List Directive) : Option Flight :=
  (Flight.start { settings := plainBoot.settings } tinyEnv (lineRequest "GET /c HTTP/1.0")).run
    plainBoot
    [.pause (.other (lineRequest "X-Mark: 1")), .optionLine tinyEnv, .pause (.reload F)]
    (some tinyEnv) []

theorem flight_undamaged_iff_short :
    ∃ f, shortFlight (oneVariable.take 2) = some f ∧ f.added ≠ [] ∧ f.built.isSome ∧
      f.Undamaged := by
  obtain ⟨f, hf⟩ := Option.isSome_iff_exists.1
    (show (shortFlight (oneVariable.take 2)).isSome by decide +kernel)
  have hfacts : (shortFlight (oneVariable.take 2)).map (fun f => (f.added.length, f.built.isSome)) =
      some (1, true) := by decide +kernel
  rw [hf, Option.map_some, Option.some_inj, Prod.mk.injEq] at hfacts
  refine ⟨f, hf, ?_, hfacts.2, (flight_undamaged_iff (by decide +kernel) hf).2 (.inr ?_)⟩
  · intro hnil
    simp [hnil] at hfacts
  · decide +kernel

/-- The reload adds one common variable, and its copy takes the slot of the header line's. -/
theorem shortFlight_damaged :
    ∃ f, shortFlight oneVariable = some f ∧ ¬f.Undamaged ∧
      ∃ a v, f.built = some a ∧ f.added = [v] ∧ some v ∉ a ∧ f.releases v = 0 := by
  obtain ⟨f, hf⟩ := Option.isSome_iff_exists.1
    (show (shortFlight oneVariable).isSome by decide +kernel)
  have hfacts : (shortFlight oneVariable).map
      (fun f => (f.added.map fun v => (f.built.map fun a => decide (some v ∉ a), f.releases v))) =
      some [(some true, 0)] := by decide +kernel
  rw [hf, Option.map_some, Option.some_inj] at hfacts
  obtain ⟨v, hv, hvfacts⟩ := List.map_eq_singleton_iff.1 hfacts
  obtain ⟨hbuilt, hzero⟩ := Prod.mk.injEq .. ▸ hvfacts
  obtain ⟨a, ha, hmem⟩ := Option.map_eq_some_iff.1 hbuilt
  refine ⟨f, hf, ?_, a, v, ha, hv, of_decide_eq_true hmem, hzero⟩
  rintro ⟨-, hreleased⟩
  rw [hreleased v (by simp [hv])] at hzero
  cases hzero

end Boa
