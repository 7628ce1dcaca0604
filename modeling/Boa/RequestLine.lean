import Boa.InPlace
import Boa.Told

/-! The request line (request.c): the two cursors of `process_logline`, and what a line says. -/
namespace Boa
open Memory

/-- One of the pointer loops of `process_logline` on the stream. -/
def scanPast (p : UInt8 → Bool) (mem : Bytes) (i : ℕ) : ℕ := scanWhile 0 p (mem.length + 1) mem i

def isBlank (b : UInt8) : Bool := b == space

/-- A character of the target: neither the end of the line nor a space. -/
def inTarget (b : UInt8) : Bool := b != 0 && b != space

/-- A character of the host. -/
def inHost (b : UInt8) : Bool := b != 0 && b != slash && b != space

/-- A run of `process_logline` on the stream: the stream afterwards, how many bytes were copied to
`request_uri`, whether the branch that should not happen was taken, and the result. -/
structure LoglineRun where
  mem : Bytes
  copied : ℕ := 0
  corrupt : Bool := false
  result : Request × Bool

namespace Request

/-- `process_logline` behind the target, which ends at `stop2`. -/
def versionIn (env : Env) (c : Request) (mem : Bytes) (stop2 : ℕ) : Request × Bool :=
  let version : Option Version :=
    if mem.getD stop2 0 = 0 then some .http09
    else if mem.getD stop2 0 = space then
      let stop2 := scanPast isBlank mem (stop2 + 1)
      if mem.getD stop2 0 = 0 then some .http09
      else
        match scanHttpVersion (cstr (mem.drop stop2)) with
        | some (0, 9) => some .http09
        | some (1, 0) => some .http10
        | some (1, 1) => some .http11
        | _ => none
    else some c.httpVersion
  match version with
  | none => (c.sendRBadRequest env, false)
  | some v =>
    let c : Request := { c with
      httpVersion := v
      keepalive := if v = .http11 then .active else c.keepalive }
    if c.method = .head ∧ v = .http09 then (c.sendRBadRequest env, false)
    else ({ c with cgiEnvIndex := env.cfg.commonCgiEnv.length }, true)

/-- `process_logline` for a target from `stop` to `stop2`. -/
def targetIn (env : Env) (c : Request) (mem : Bytes) (stop stop2 : ℕ) : LoglineRun :=
  if maxHeaderLength < stop2 - stop then { mem, result := (c.sendRBadRequest env, false) }
  else if text "http" <+: mem.drop stop ∧ text "://" <+: mem.drop (stop + 4) then
    let host := stop + 4 + 3
    if mem.getD host 0 = slash ∨ mem.getD host 0 = space ∨ mem.getD host 0 = 0 then
      { mem, result := (c.sendRBadRequest env, false) }
    else
      let stop := scanPast inHost mem host
      if mem.getD stop 0 ≠ slash then { mem, result := (c.sendRBadRequest env, false) }
      else if stop2 < stop then { mem, corrupt := true, result := (c.sendRBadRequest env, false) }
      else
        let uri := slice mem stop stop2
        let mem := store mem stop [0]
        { mem
          copied := stop2 - stop
          result := { c with requestUri := uri, headerHost := some (cstr (mem.drop host)) }.versionIn env mem stop2 }
  else
    { mem
      copied := stop2 - stop
      result := { c with requestUri := slice mem stop stop2 }.versionIn env mem stop2 }

/-- `process_logline` on the stream, in which a NUL ends the line. -/
def processLoglineIn (env : Env) (c : Request) (mem : Bytes) : LoglineRun :=
  let line := cstr mem
  let c : Request := { c.log (.logline line) with logline := true }
  if line.length < 5 then { mem, result := (c.sendRBadRequest env, false) }
  else
    let method : Option Method :=
      if text "GET " <+: mem then some .get
      else if text "HEAD " <+: mem then some .head
      else if text "POST " <+: mem then some .post
      else none
    match method with
    | none => { mem, result := (c.sendRNotImplemented env, false) }
    | some m =>
      let stop := if mem.getD 3 0 ≠ space then 4 else 3
      let stop := scanPast isBlank mem (stop + 1)
      { c with method := m, httpVersion := .http10 }.targetIn env mem stop (scanPast inTarget mem stop)

end Request

/-! ### What a line says -/

/-- The texts of the methods, with the space behind them. -/
def methodText : Method → Bytes
  | .unset => []
  | .get => text "GET "
  | .head => text "HEAD "
  | .post => text "POST "

/-- A line behind its method and the spaces there. -/
def afterMethod (m : Method) (line : Bytes) : Bytes := (line.drop (methodText m).length).dropWhile (· = space)

/-- The target: what comes before the next space. -/
def lineTarget (m : Method) (line : Bytes) : Bytes := (afterMethod m line).takeWhile (· ≠ space)

/-- The text of the version: what comes behind the target and the spaces there. -/
def lineVersion (m : Method) (line : Bytes) : Bytes :=
  ((afterMethod m line).dropWhile (· ≠ space)).dropWhile (· = space)

/-- A target and the URI that it asks for, with the host of an absolute one. -/
inductive TargetOf : Bytes → Option Bytes → Bytes → Prop
  | plain {uri : Bytes} (h : ¬ text "http://" <+: uri) : TargetOf uri none uri
  | absolute {host rest : Bytes} (hne : host ≠ []) (hhost : slash ∉ host) :
    TargetOf (text "http://" ++ host ++ slash :: rest) (some host) (slash :: rest)

/-- A text that stands for a version; none stands for 0.9. -/
def VersionOf (s : Bytes) (v : Version) : Prop :=
  (s = [] ∧ v = .http09) ∨ s ≠ [] ∧
    ((scanHttpVersion s = some (0, 9) ∧ v = .http09) ∨ (scanHttpVersion s = some (1, 0) ∧ v = .http10) ∨
      (scanHttpVersion s = some (1, 1) ∧ v = .http11))

/-- A request line that is accepted, and what it says. -/
structure Says (line : Bytes) (m : Method) (host : Option Bytes) (uri : Bytes) (v : Version) : Prop where
  long : 5 ≤ line.length
  known : m ≠ .unset
  method : methodText m <+: line
  target : TargetOf (lineTarget m line) host uri
  version : VersionOf (lineVersion m line) v
  head : ¬ (m = .head ∧ v = .http09)

lemma methodText_eq (m : Method) : methodText m = match m with
    | .unset => []
    | .get => [71, 69, 84, 32]
    | .head => [72, 69, 65, 68, 32]
    | .post => [80, 79, 83, 84, 32] := by
  cases m <;> decide +kernel

lemma http_eq : text "http" = [104, 116, 116, 112] ∧ text "://" = [58, 47, 47] ∧
    text "http://" = text "http" ++ text "://" := by decide +kernel

lemma length_http : (text "http://").length = 4 + 3 := by
  obtain ⟨h1, h2, h3⟩ := http_eq
  rw [h3, h1, h2]
  rfl

lemma methodText_unique {line : Bytes} {m m' : Method} (h : methodText m <+: line) (h' : methodText m' <+: line)
    (hm : m ≠ .unset) (hm' : m' ≠ .unset) : m = m' := by
  have hpair := List.prefix_or_prefix_of_prefix h h'
  rw [methodText_eq m, methodText_eq m'] at hpair
  cases m <;> cases m' <;>
    first
      | rfl
      | exact absurd rfl hm
      | exact absurd rfl hm'
      | exact absurd hpair (by decide)

lemma lineMethod_iff {line : Bytes} {m : Method} :
    Request.lineMethod line = some m ↔ m ≠ .unset ∧ methodText m <+: line := by
  unfold Request.lineMethod
  simp only [List.isPrefixOf_iff_prefix]
  constructor
  · intro h
    split_ifs at h with hget hhead hpost
    · cases h
      exact ⟨by decide, hget⟩
    · cases h
      exact ⟨by decide, hhead⟩
    · cases h
      exact ⟨by decide, hpost⟩
  · rintro ⟨hm, h⟩
    have hone : ∀ m', methodText m' <+: line → m' ≠ .unset → m' = m := fun m' h' hm' => methodText_unique h' h hm' hm
    split_ifs with hget hhead hpost
    · rw [hone .get hget (by decide)]
    · rw [hone .head hhead (by decide)]
    · rw [hone .post hpost (by decide)]
    · cases m with
      | unset => exact absurd rfl hm
      | get => exact absurd h hget
      | head => exact absurd h hhead
      | post => exact absurd h hpost

lemma parseVersion_iff (s : Bytes) (v : Version) :
    parseVersion s = some v ↔ VersionOf (s.dropWhile (· = space)) v := by
  unfold parseVersion VersionOf
  generalize s.dropWhile (· = space) = w
  dsimp only
  by_cases hw : w = []
  · rw [if_pos hw]
    simp [hw, eq_comm]
  · rw [if_neg hw]
    simp only [hw, false_and, ne_eq, not_false_eq_true, true_and, false_or]
    split
    · next heq => simp [heq, eq_comm]
    · next heq => simp [heq, eq_comm]
    · next heq => simp [heq, eq_comm]
    · next h09 h10 h11 =>
      refine iff_of_false (fun h => Option.some_ne_none v h.symm) ?_
      rintro (⟨h, -⟩ | ⟨h, -⟩ | ⟨h, -⟩)
      · exact h09 h
      · exact h10 h
      · exact h11 h

lemma absoluteUrl_eq_some {target s : Bytes} : absoluteUrl target = some s ↔ target = text "http://" ++ s := by
  have hlen : (text "http://").length = 7 := length_http
  unfold absoluteUrl
  simp only [List.isPrefixOf_iff_prefix]
  constructor
  · intro h
    split_ifs at h with hpre
    obtain ⟨u, rfl⟩ := hpre
    rw [← hlen, List.drop_left] at h
    cases h
    rfl
  · rintro rfl
    rw [if_pos (List.prefix_append _ _), ← hlen, List.drop_left]

lemma absoluteUrl_eq_none {target : Bytes} : absoluteUrl target = none ↔ ¬ text "http://" <+: target := by
  unfold absoluteUrl
  simp only [List.isPrefixOf_iff_prefix]
  split_ifs with h <;> simp [h]

/-- The end of a host is a slash or a space. -/
def isHost (b : UInt8) : Bool := decide (b ≠ slash ∧ b ≠ space)

lemma inTarget_eq {b : UInt8} (h : b ≠ 0) : inTarget b = decide (b ≠ space) := by
  rw [Bool.eq_iff_iff]
  simp [inTarget, h]

lemma inHost_eq {b : UInt8} (h : b ≠ 0) : inHost b = isHost b := by
  rw [Bool.eq_iff_iff]
  simp [inHost, isHost, h]

lemma splitHost_eq_some {s host uri : Bytes} : splitHost s = some (host, uri) ↔
    host = s.takeWhile isHost ∧ uri = s.dropWhile isHost ∧ host ≠ [] ∧ ∃ rest, uri = slash :: rest := by
  have hif : splitHost s = if s.takeWhile isHost = [] ∨ (s.dropWhile isHost).head? ≠ some slash then none
      else some (s.takeWhile isHost, s.dropWhile isHost) := rfl
  have hhead : ∀ u : Bytes, u.head? = some slash ↔ ∃ rest, u = slash :: rest := by
    intro u
    cases u <;> simp
  rw [hif]
  split_ifs with h
  · refine iff_of_false (by simp) ?_
    rintro ⟨rfl, rfl, hne, hslash⟩
    exact h.elim hne fun hno => hno ((hhead _).mpr hslash)
  · obtain ⟨hne, hslash⟩ := not_or.mp h
    rw [not_not, hhead] at hslash
    simp only [Option.some.injEq, Prod.mk.injEq]
    constructor
    · rintro ⟨rfl, rfl⟩
      exact ⟨rfl, rfl, hne, hslash⟩
    · rintro ⟨rfl, rfl, -, -⟩
      exact ⟨rfl, rfl⟩

/-- A target without spaces, as `process_logline` takes it apart. -/
lemma targetOf_iff {target : Bytes} (hspace : space ∉ target) (host : Option Bytes) (uri : Bytes) :
    TargetOf target host uri ↔ (absoluteUrl target = none ∧ host = none ∧ uri = target) ∨
      ∃ s h, absoluteUrl target = some s ∧ splitHost s = some (h, uri) ∧ host = some h := by
  constructor
  · rintro (hplain | ⟨hne, hslash⟩)
    · exact .inl ⟨absoluteUrl_eq_none.mpr hplain, rfl, rfl⟩
    · rename_i h rest
      have hall : ∀ b ∈ h, isHost b = true := by
        intro b hb
        refine decide_eq_true ⟨fun heq => hslash (heq ▸ hb), fun heq => hspace (heq ▸ ?_)⟩
        exact List.mem_append_left _ (List.mem_append_right _ hb)
      refine .inr ⟨h ++ slash :: rest, h, ?_, ?_, rfl⟩
      · rw [absoluteUrl_eq_some, List.append_assoc]
      · rw [splitHost_eq_some, List.takeWhile_append_of_pos hall, List.dropWhile_append_of_pos hall]
        simp [isHost, hne]
  · rintro (⟨hnone, rfl, rfl⟩ | ⟨s, h, hs, hsplit, rfl⟩)
    · exact .plain (absoluteUrl_eq_none.mp hnone)
    · obtain ⟨hh, huri, hne, rest, rfl⟩ := splitHost_eq_some.mp hsplit
      have hsum : s = h ++ slash :: rest := by
        rw [hh, huri, List.takeWhile_append_dropWhile]
      have hslash : slash ∉ h := by
        intro hm
        rw [hh] at hm
        exact absurd (List.mem_takeWhile_imp hm) (by decide)
      rw [absoluteUrl_eq_some.mp hs, hsum, ← List.append_assoc]
      exact .absolute hne hslash

/-! ### The cursors -/

section Cursors

variable {env : Env} {c : Request} {mem s t rest : Bytes} {i stop stop2 : ℕ} {p q : UInt8 → Bool}

lemma takeWhile_congr {s : Bytes} (h : ∀ b ∈ s, p b = q b) :
    s.takeWhile p = s.takeWhile q ∧ s.dropWhile p = s.dropWhile q := by
  induction s with
  | nil => exact ⟨rfl, rfl⟩
  | cons b s ih =>
    obtain ⟨h1, h2⟩ := ih fun x hx => h x (List.mem_cons_of_mem _ hx)
    have hb := h b List.mem_cons_self
    rw [List.takeWhile_cons, List.takeWhile_cons, List.dropWhile_cons, List.dropWhile_cons, hb, h1, h2]
    exact ⟨rfl, rfl⟩

/-- A loop stops at the end of the line at the latest. -/
lemma scanPast_spec (h : mem.drop i = s ++ 0 :: t) (hnul : 0 ∉ s) (hp : p 0 = false)
    (hpq : ∀ b, b ≠ 0 → p b = q b) : scanPast p mem i = i + (s.takeWhile q).length ∧
      mem.drop (scanPast p mem i) = s.dropWhile q ++ 0 :: t := by
  have hlen := congrArg List.length h
  rw [List.length_drop, List.length_append] at hlen
  obtain ⟨htake, hdrop⟩ := takeWhile_congr (p := p) (q := q) (s := s) fun b hb =>
    hpq b fun h0 => hnul (h0 ▸ hb)
  rw [← htake, ← hdrop]
  exact scanWhile_spec h hp (by omega)

lemma getD_of_text (h : mem.drop i = s ++ 0 :: t) : mem.getD i 0 = s.headD 0 := by
  cases s with
  | nil => exact getD_of_drop h
  | cons x s => exact getD_of_drop h

lemma versionIn_eq (h : mem.drop stop2 = s ++ 0 :: t) (hnul : 0 ∉ s) (hfirst : s = [] ∨ ∃ u, s = space :: u) :
    c.versionIn env mem stop2 = c.finishLogline env s := by
  unfold Request.versionIn Request.finishLogline
  rw [getD_of_text h]
  rcases hfirst with rfl | ⟨u, rfl⟩
  · rfl
  · have hu : 0 ∉ u := fun hm => hnul (List.mem_cons_of_mem _ hm)
    obtain ⟨-, hdrop⟩ := scanPast_spec (p := isBlank) (q := (· = space)) (drop_succ h) hu rfl
      fun b _ => by rw [isBlank, beq_eq_decide]
    have hparse : parseVersion (space :: u) = parseVersion u := by
      unfold parseVersion
      rw [List.dropWhile_cons_of_pos (by decide)]
    generalize hw : u.dropWhile (· = space) = w at hdrop
    have hwnul : 0 ∉ w := by
      rw [← hw]
      exact fun hm => hu (List.dropWhile_subset _ hm)
    have hread : cstr (mem.drop (scanPast isBlank mem (stop2 + 1))) = w := by
      rw [hdrop, cstr_append_nul hwnul]
    have hblank : mem.getD (scanPast isBlank mem (stop2 + 1)) 0 = 0 ↔ w = [] := by
      rw [getD_of_text hdrop]
      cases w with
      | nil => exact iff_of_true rfl rfl
      | cons b w => exact iff_of_false (fun h0 => hwnul (h0 ▸ List.mem_cons_self)) (List.cons_ne_nil b w)
    have hversion : (if mem.getD (scanPast isBlank mem (stop2 + 1)) 0 = 0 then some .http09 else
        match scanHttpVersion (cstr (mem.drop (scanPast isBlank mem (stop2 + 1)))) with
        | some (0, 9) => some .http09
        | some (1, 0) => some .http10
        | some (1, 1) => some .http11
        | _ => none) = parseVersion u := by
      simp only [hblank, hread, ← hw]
      rfl
    rw [hparse, List.headD_cons, if_neg (by decide), if_pos rfl]
    generalize parseVersion u = v at hversion ⊢
    subst hversion
    rfl

/-- What a loop passes does not depend on what comes behind a text that stops it anyway. -/
lemma scan_append {u : Bytes} (hu : u = [] ∨ ∃ b w, u = b :: w ∧ p b = false) :
    (s ++ u).takeWhile p = s.takeWhile p ∧ (s ++ u).dropWhile p = s.dropWhile p ++ u := by
  induction s with
  | nil =>
    rcases hu with rfl | ⟨b, w, rfl, hb⟩
    · exact ⟨rfl, rfl⟩
    · have hneg : ¬ p b = true := by simp [hb]
      exact ⟨List.takeWhile_cons_of_neg hneg, List.dropWhile_cons_of_neg hneg⟩
  | cons x s ih =>
    obtain ⟨h1, h2⟩ := ih
    by_cases hx : p x = true
    · rw [List.cons_append, List.takeWhile_cons_of_pos hx, List.takeWhile_cons_of_pos hx,
        List.dropWhile_cons_of_pos hx, List.dropWhile_cons_of_pos hx, h1, h2]
      exact ⟨rfl, rfl⟩
    · rw [List.cons_append, List.takeWhile_cons_of_neg hx, List.takeWhile_cons_of_neg hx,
        List.dropWhile_cons_of_neg hx, List.dropWhile_cons_of_neg hx]
      exact ⟨rfl, rfl⟩

/-- `memcmp` of the two halves of `http://`, which may look behind the end of the line, sees what is
there of the target. -/
lemma scheme_iff {target version : Bytes} (h : mem.drop stop = target ++ version ++ 0 :: t)
    (hnul : 0 ∉ target ++ version) (hversion : version = [] ∨ ∃ u, version = space :: u) :
    (text "http" <+: mem.drop stop ∧ text "://" <+: mem.drop (stop + 4)) ↔ text "http://" <+: target := by
  obtain ⟨hhttp, hmarks, hsum⟩ := http_eq
  have hlen : (text "http").length = 4 := by
    rw [hhttp]
    rfl
  have hword : 0 ∉ text "http://" ∧ space ∉ text "http://" := by
    rw [hsum, hhttp, hmarks]
    decide
  have hboth : (text "http" <+: mem.drop stop ∧ text "://" <+: mem.drop (stop + 4)) ↔ text "http://" <+: mem.drop stop := by
    rw [hsum, ← List.drop_drop]
    generalize mem.drop stop = line
    constructor
    · rintro ⟨⟨w, rfl⟩, h2⟩
      rw [← hlen, List.drop_left] at h2
      exact (List.prefix_append_right_inj _).mpr h2
    · rintro ⟨w, rfl⟩
      rw [List.append_assoc, ← hlen, List.drop_left]
      exact ⟨List.prefix_append _ _, List.prefix_append _ _⟩
  rw [hboth, h, prefix_append_cons hword.1]
  rcases hversion with rfl | ⟨u, rfl⟩
  · rw [List.append_nil]
  · exact prefix_append_cons hword.2

/-- The two tests on a host, and where the loop over it stops. -/
lemma host_cut {version : Bytes} (h : mem.drop i = s ++ version ++ 0 :: t) (hnul : 0 ∉ s ++ version)
    (hspace : space ∉ s) (hversion : version = [] ∨ ∃ u, version = space :: u) :
    ((mem.getD i 0 = slash ∨ mem.getD i 0 = space ∨ mem.getD i 0 = 0) ↔ s.takeWhile isHost = []) ∧
      scanPast inHost mem i = i + (s.takeWhile isHost).length ∧
      mem.drop (scanPast inHost mem i) = s.dropWhile isHost ++ version ++ 0 :: t ∧
      (mem.getD (scanPast inHost mem i) 0 = slash ↔ ∃ uri, s.dropWhile isHost = slash :: uri) := by
  have hbehind : version.headD 0 = space ∨ version.headD 0 = 0 := by
    rcases hversion with rfl | ⟨u, rfl⟩
    · exact .inr rfl
    · exact .inl rfl
  have hends : version = [] ∨ ∃ b w, version = b :: w ∧ isHost b = false := by
    rcases hversion with rfl | ⟨u, rfl⟩
    · exact .inl rfl
    · exact .inr ⟨space, u, rfl, by decide⟩
  have hfirst : ∀ x ∈ s, x ≠ space ∧ x ≠ 0 := by
    intro x hx
    constructor
    · rintro rfl
      exact hspace hx
    · rintro rfl
      exact hnul (List.mem_append_left _ hx)
  obtain ⟨hstop, hdrop⟩ := scanPast_spec (p := inHost) (q := isHost) h hnul rfl
    fun b => inHost_eq
  obtain ⟨htake, hrest⟩ := scan_append (s := s) hends
  rw [htake] at hstop
  rw [hrest] at hdrop
  refine ⟨?_, hstop, hdrop, ?_⟩
  · rw [getD_of_text h]
    cases s with
    | nil =>
      refine iff_of_true ?_ rfl
      exact .inr hbehind
    | cons x s =>
      obtain ⟨hxspace, hxnul⟩ := hfirst x List.mem_cons_self
      rw [List.cons_append, List.headD_cons, List.takeWhile_cons]
      simp [isHost, hxspace, hxnul]
  · rw [getD_of_text hdrop]
    cases hb : s.dropWhile isHost with
    | nil =>
      refine iff_of_false ?_ (by simp)
      rw [List.nil_append]
      rcases hbehind with h0 | h0
      · rw [h0]
        decide
      · rw [h0]
        decide
    | cons x uri => simp

/-- The target is cut where `process_logline` cuts it, whatever comes behind the line. -/
lemma targetIn_spec (h : mem.drop stop = rest ++ 0 :: t) (hnul : 0 ∉ rest) :
    (c.targetIn env mem stop (scanPast inTarget mem stop)).result = c.parseTarget env rest ∧
      (c.targetIn env mem stop (scanPast inTarget mem stop)).copied ≤ maxHeaderLength ∧
      (c.targetIn env mem stop (scanPast inTarget mem stop)).corrupt = false := by
  obtain ⟨hstop2, hdrop2⟩ := scanPast_spec (p := inTarget) (q := (· ≠ space)) h hnul rfl
    fun b => inTarget_eq
  generalize scanPast inTarget mem stop = stop2 at hstop2 hdrop2
  have hsplit : rest.takeWhile (· ≠ space) ++ rest.dropWhile (· ≠ space) = rest := List.takeWhile_append_dropWhile
  have hspace : space ∉ rest.takeWhile (· ≠ space) := fun hm => absurd (List.mem_takeWhile_imp hm) (by decide)
  have hversion : rest.dropWhile (· ≠ space) = [] ∨ ∃ u, rest.dropWhile (· ≠ space) = space :: u := by
    cases hv : rest.dropWhile (· ≠ space) with
    | nil => exact .inl rfl
    | cons x u =>
      have hx := List.head?_dropWhile_not (· ≠ space) rest
      rw [hv] at hx
      have hx : x = space := by simpa using hx
      exact .inr ⟨u, by rw [hx]⟩
  unfold Request.targetIn Request.parseTarget
  generalize rest.takeWhile (· ≠ space) = target at *
  generalize rest.dropWhile (· ≠ space) = version at *
  subst hsplit
  have hvnul : 0 ∉ version := fun hm => hnul (List.mem_append_right _ hm)
  have hlen : stop2 - stop = target.length := by omega
  dsimp only
  rw [hlen]
  by_cases hlong : maxHeaderLength < target.length
  · rw [if_pos hlong, if_pos hlong]
    exact ⟨rfl, Nat.zero_le _, rfl⟩
  rw [if_neg hlong, if_neg hlong]
  have hscheme := scheme_iff h hnul hversion
  by_cases habs : text "http://" <+: target
  · obtain ⟨s, rfl⟩ := habs
    rw [if_pos (hscheme.mpr (List.prefix_append _ _)), absoluteUrl_eq_some.mpr rfl]
    have hhttp := length_http
    have hhost : mem.drop (stop + 4 + 3) = s ++ version ++ 0 :: t := by
      rw [Nat.add_assoc, ← List.drop_drop, h, List.append_assoc, List.append_assoc, ← hhttp, List.drop_left,
        List.append_assoc]
    have hsspace : space ∉ s := fun hm => hspace (List.mem_append_right _ hm)
    have hsnul : 0 ∉ s ++ version := by
      rw [List.append_assoc] at hnul
      exact fun hm => hnul (List.mem_append_right _ hm)
    obtain ⟨hempty, hstop, hdrop, hslash⟩ := host_cut hhost hsnul hsspace hversion
    generalize scanPast inHost mem (stop + 4 + 3) = stop' at hstop hdrop hslash ⊢
    have hsum : s.takeWhile isHost ++ s.dropWhile isHost = s := List.takeWhile_append_dropWhile
    have hsome : ∀ host uri, splitHost s = some (host, uri) ↔ _ := fun host uri => splitHost_eq_some
    dsimp only
    by_cases hno : s.takeWhile isHost = []
    · have hnone : splitHost s = none := by
        rw [Option.eq_none_iff_forall_ne_some]
        rintro ⟨host, uri⟩ hsp
        obtain ⟨rfl, -, hne, -⟩ := (hsome host uri).mp hsp
        exact hne hno
      rw [if_pos (hempty.mpr hno), hnone]
      exact ⟨rfl, Nat.zero_le _, rfl⟩
    rw [if_neg (mt hempty.mp hno)]
    by_cases huri : ∃ uri, s.dropWhile isHost = slash :: uri
    · obtain ⟨uri, huri⟩ := huri
      have hfound : splitHost s = some (s.takeWhile isHost, slash :: uri) :=
        (hsome _ _).mpr ⟨rfl, huri.symm, hno, uri, rfl⟩
      rw [if_neg (not_not.mpr (hslash.mpr ⟨uri, huri⟩)), hfound]
      generalize s.takeWhile isHost = host at *
      rw [huri] at hsum hdrop
      subst hsum
      simp only [List.length_append, List.length_cons, hhttp] at hlen hstop2 hlong
      have hle : ¬ stop2 < stop' := by omega
      have hslice : slice mem stop' stop2 = slash :: uri := by
        have hn : stop2 - stop' = (slash :: uri).length := by
          rw [List.length_cons]
          omega
        rw [slice, hn, hdrop, List.append_assoc, List.take_left]
      have hbehind : (store mem stop' [0]).drop stop2 = version ++ 0 :: t := by
        rw [drop_store_one (by omega), hdrop2]
      have hread : cstr ((store mem stop' [0]).drop (stop + 4 + 3)) = host := by
        have hcell : mem.drop (stop + 4 + 3) = host ++ slash :: (uri ++ version ++ 0 :: t) := by
          rw [hhost]
          simp
        rw [hstop, drop_store_inside hcell]
        exact cstr_append_nul (fun hm => hsnul (List.mem_append_left _ (List.mem_append_left _ hm))) _
      rw [if_neg hle, hslice, hread, versionIn_eq hbehind hvnul hversion]
      refine ⟨rfl, ?_, rfl⟩
      dsimp only
      omega
    · have hnone : splitHost s = none := by
        rw [Option.eq_none_iff_forall_ne_some]
        rintro ⟨host, uri⟩ hsp
        obtain ⟨-, rfl, -, rest, hrest⟩ := (hsome host uri).mp hsp
        exact huri ⟨rest, hrest⟩
      rw [if_pos (mt hslash.mp huri), hnone]
      exact ⟨rfl, Nat.zero_le _, rfl⟩
  · have hslice : slice mem stop stop2 = target := by
      rw [slice, hlen, h, List.append_assoc, List.take_left]
    rw [if_neg (mt hscheme.mp habs), absoluteUrl_eq_none.mpr habs, hslice, versionIn_eq hdrop2 hvnul hversion]
    exact ⟨rfl, not_lt.mp hlong, rfl⟩

/-- The test for a space at the fourth character tells how long the method is. -/
lemma stop_of_method {line : Bytes} {m : Method} (hm : m ≠ .unset) (h : methodText m <+: line) :
    (if line.getD 3 0 ≠ space then 4 else 3) + 1 = (methodText m).length := by
  obtain ⟨w, rfl⟩ := h
  rw [methodText_eq]
  cases m with
  | unset => exact absurd rfl hm
  | get => rfl
  | head => rfl
  | post => rfl

lemma zero_not_mem_methodText (m : Method) : 0 ∉ methodText m := by
  rw [methodText_eq]
  cases m <;> decide

/-- `process_logline` on the stream up to the target: the tests see what they see of the line alone. -/
lemma processLoglineIn_eq (env : Env) (c : Request) (t : Bytes) {line : Bytes} (hnul : 0 ∉ line) :
    c.processLoglineIn env (line ++ 0 :: t) =
      if line.length < 5 then
        { mem := line ++ 0 :: t
          result := (({ c.log (.logline line) with logline := true } : Request).sendRBadRequest env, false) }
      else
        match Request.lineMethod line with
        | none =>
          { mem := line ++ 0 :: t
            result := (({ c.log (.logline line) with logline := true } : Request).sendRNotImplemented env, false) }
        | some m =>
          let stop := scanPast isBlank (line ++ 0 :: t) (methodText m).length
          ({ c.log (.logline line) with logline := true, method := m, httpVersion := .http10 } : Request).targetIn env
            (line ++ 0 :: t) stop (scanPast inTarget (line ++ 0 :: t) stop) := by
  have htest : ∀ m, methodText m <+: line ++ 0 :: t ↔ methodText m <+: line := fun m =>
    prefix_append_cons (zero_not_mem_methodText m)
  have hmethod : (if text "GET " <+: line ++ 0 :: t then some Method.get
      else if text "HEAD " <+: line ++ 0 :: t then some .head
      else if text "POST " <+: line ++ 0 :: t then some .post
      else none) = Request.lineMethod line := by
    have hget : text "GET " <+: line ++ 0 :: t ↔ text "GET " <+: line := htest .get
    have hhead : text "HEAD " <+: line ++ 0 :: t ↔ text "HEAD " <+: line := htest .head
    have hpost : text "POST " <+: line ++ 0 :: t ↔ text "POST " <+: line := htest .post
    unfold Request.lineMethod
    simp only [List.isPrefixOf_iff_prefix, hget, hhead, hpost]
  unfold Request.processLoglineIn
  rw [hmethod, cstr_append_nul hnul]
  cases hline : Request.lineMethod line with
  | none => rfl
  | some m =>
    obtain ⟨hm, hpre⟩ := lineMethod_iff.mp hline
    dsimp only
    rw [stop_of_method hm ((htest m).mpr hpre)]

/-- `process_logline` on the stream does not look behind the NUL that ends the line. -/
lemma processLoglineIn_spec (env : Env) (c : Request) (t : Bytes) {line : Bytes} (hnul : 0 ∉ line) (hlong : 5 ≤ line.length) {m : Method}
    (hm : m ≠ .unset) (hmethod : methodText m <+: line) :
    (c.processLoglineIn env (line ++ 0 :: t)).result =
        ({ c.log (.logline line) with logline := true, method := m, httpVersion := .http10 } : Request).parseTarget env
          (afterMethod m line) ∧
      (c.processLoglineIn env (line ++ 0 :: t)).copied ≤ maxHeaderLength ∧
      (c.processLoglineIn env (line ++ 0 :: t)).corrupt = false := by
  have hdrop : (line ++ 0 :: t).drop (methodText m).length = line.drop (methodText m).length ++ 0 :: t :=
    List.drop_append_of_le_length hmethod.length_le
  obtain ⟨-, hstop⟩ := scanPast_spec (p := isBlank) (q := (· = space)) hdrop
    (fun hmem => hnul (List.mem_of_mem_drop hmem)) rfl fun b _ => by rw [isBlank, beq_eq_decide]
  have hafter : 0 ∉ afterMethod m line := fun hmem =>
    hnul (List.mem_of_mem_drop (List.dropWhile_subset _ hmem))
  rw [processLoglineIn_eq env c t hnul, if_neg (not_lt.mpr hlong), lineMethod_iff.mpr ⟨hm, hmethod⟩]
  exact targetIn_spec hstop hafter

/-- A line that is too short or names no method is refused, and nothing is copied. -/
lemma processLoglineIn_refused (env : Env) (c : Request) (t : Bytes) {line : Bytes} (hnul : 0 ∉ line)
    (hno : ¬ (5 ≤ line.length ∧ ∃ m, m ≠ Method.unset ∧ methodText m <+: line)) :
    (c.processLoglineIn env (line ++ 0 :: t)).result.2 = false ∧
      (c.processLoglineIn env (line ++ 0 :: t)).copied = 0 ∧
      (c.processLoglineIn env (line ++ 0 :: t)).corrupt = false := by
  rw [processLoglineIn_eq env c t hnul]
  by_cases hshort : line.length < 5
  · rw [if_pos hshort]
    exact ⟨rfl, rfl, rfl⟩
  · have hnone : Request.lineMethod line = none := by
      rw [Option.eq_none_iff_forall_ne_some]
      intro m hm
      exact hno ⟨not_lt.mp hshort, m, lineMethod_iff.mp hm⟩
    rw [if_neg hshort, hnone]
    exact ⟨rfl, rfl, rfl⟩

/-- The line that is read first is at the start of the stream, and reading it with the two cursors is
what the model of the whole server does. -/
theorem processLogline_eq_in (env : Env) (c : Request) (hfirst : c.headerLine.off = 0) (hend : 0 ∈ c.clientStream) :
    c.processLogline env = (c.processLoglineIn env c.clientStream).result := by
  have hline : c.lineAt = cstr c.clientStream := by
    rw [Request.lineAt, hfirst, List.drop_zero]
  obtain ⟨t, hmem⟩ := exists_cstr_append hend
  have hnul := cstr_nul c.clientStream
  generalize cstr c.clientStream = line at hline hmem hnul
  rw [hmem]
  by_cases hshort : line.length < 5
  · have hin := processLoglineIn_eq env c t hnul
    rw [if_pos hshort] at hin
    rw [hin]
    unfold Request.processLogline
    rw [hline]
    exact if_pos hshort
  · cases hm : Request.lineMethod line with
    | none =>
      have hin := processLoglineIn_eq env c t hnul
      rw [if_neg hshort, hm] at hin
      rw [hin]
      unfold Request.processLogline
      rw [hline]
      dsimp only
      rw [if_neg hshort, hm]
    | some m =>
      obtain ⟨hne, hpre⟩ := lineMethod_iff.mp hm
      have hlen : (if m = .get then 4 else 5) = (methodText m).length := by
        rw [methodText_eq]
        cases m with
        | unset => exact absurd rfl hne
        | get => rfl
        | head => rfl
        | post => rfl
      rw [(processLoglineIn_spec env c t hnul (not_lt.mp hshort) hne hpre).1]
      unfold Request.processLogline
      rw [hline]
      dsimp only
      rw [if_neg hshort, hm]
      dsimp only
      rw [hlen]
      rfl

end Cursors

/-! ### What is accepted -/

section Accepted

variable {env : Env} {c : Request} {line rest version host uri : Bytes} {m : Method} {v : Version}

lemma finishLogline_of (hv : parseVersion version = some v) (hhead : ¬ (c.method = .head ∧ v = .http09)) :
    c.finishLogline env version = ({ c with
      httpVersion := v
      keepalive := if v = .http11 then .active else c.keepalive
      cgiEnvIndex := env.cfg.commonCgiEnv.length }, true) := by
  unfold Request.finishLogline
  rw [hv]
  exact if_neg hhead

lemma finishLogline_iff : (c.finishLogline env version).2 = true ↔
    ∃ v, parseVersion version = some v ∧ ¬ (c.method = .head ∧ v = .http09) := by
  cases hv : parseVersion version with
  | none =>
    unfold Request.finishLogline
    rw [hv]
    simp
  | some v =>
    by_cases hhead : c.method = .head ∧ v = .http09
    · have hno : (c.finishLogline env version).2 = false := by
        unfold Request.finishLogline
        rw [hv]
        dsimp only
        rw [if_pos hhead]
      rw [hno]
      simp [hhead]
    · rw [finishLogline_of hv hhead]
      simpa using hhead

/-- A target that asks for a URI is taken apart into the host and the URI. -/
lemma parseTarget_of {host : Option Bytes} (hlen : rest.length ≤ maxHeaderLength)
    (h : TargetOf (rest.takeWhile (· ≠ space)) host uri) :
    c.parseTarget env rest =
      ({ c with requestUri := uri, headerHost := host.or c.headerHost } : Request).finishLogline env
        (rest.dropWhile (· ≠ space)) := by
  have hshort : ¬ maxHeaderLength < (rest.takeWhile (· ≠ space)).length :=
    not_lt.mpr ((List.takeWhile_sublist _).length_le.trans hlen)
  have hspace : space ∉ rest.takeWhile (· ≠ space) := fun hm => absurd (List.mem_takeWhile_imp hm) (by decide)
  unfold Request.parseTarget
  dsimp only
  rw [if_neg hshort]
  rcases (targetOf_iff hspace host uri).mp h with ⟨hnone, rfl, rfl⟩ | ⟨s, h, habs, hsplit, rfl⟩
  · rw [hnone]
    rfl
  · rw [habs]
    dsimp only
    rw [hsplit]
    rfl

/-- A target that asks for nothing is refused. -/
lemma parseTarget_refused (h : ¬ ∃ host uri, TargetOf (rest.takeWhile (· ≠ space)) host uri) :
    (c.parseTarget env rest).2 = false := by
  have hspace : space ∉ rest.takeWhile (· ≠ space) := fun hm => absurd (List.mem_takeWhile_imp hm) (by decide)
  unfold Request.parseTarget
  dsimp only
  split_ifs with hlong
  · rfl
  · cases habs : absoluteUrl (rest.takeWhile (· ≠ space)) with
    | none => exact absurd ⟨none, _, (targetOf_iff hspace none _).mpr (.inl ⟨habs, rfl, rfl⟩)⟩ h
    | some s =>
      cases hsplit : splitHost s with
      | none =>
        dsimp only
        rw [hsplit]
      | some p => exact absurd ⟨some p.1, p.2, (targetOf_iff hspace _ _).mpr (.inr ⟨s, p.1, habs, hsplit, rfl⟩)⟩ h

/-- What comes behind the method is accepted exactly if it has a target and a version. -/
lemma parseTarget_iff (hlen : rest.length ≤ maxHeaderLength) : (c.parseTarget env rest).2 = true ↔
    ∃ host uri v, TargetOf (rest.takeWhile (· ≠ space)) host uri ∧
      VersionOf ((rest.dropWhile (· ≠ space)).dropWhile (· = space)) v ∧ ¬ (c.method = .head ∧ v = .http09) := by
  by_cases h : ∃ host uri, TargetOf (rest.takeWhile (· ≠ space)) host uri
  · obtain ⟨host, uri, htarget⟩ := h
    rw [parseTarget_of hlen htarget, finishLogline_iff]
    constructor
    · rintro ⟨v, hv, hhead⟩
      exact ⟨host, uri, v, htarget, (parseVersion_iff _ v).mp hv, hhead⟩
    · rintro ⟨-, -, v, -, hv, hhead⟩
      exact ⟨v, (parseVersion_iff _ v).mpr hv, hhead⟩
  · rw [parseTarget_refused h]
    refine iff_of_false Bool.false_ne_true ?_
    rintro ⟨host, uri, -, htarget, -⟩
    exact h ⟨host, uri, htarget⟩

end Accepted

/-- The request line is read as it says: for every line and whatever lies behind its NUL. -/
theorem processLogline_reads (env : Env) (c : Request) (line tail : Bytes) (hnul : 0 ∉ line)
    (hlen : line.length < maxHeaderLength) :
    ((c.processLoglineIn env (line ++ 0 :: tail)).result.2 = true ↔ ∃ m host uri v, Says line m host uri v) ∧
      (∀ m host uri v, Says line m host uri v →
        (c.processLoglineIn env (line ++ 0 :: tail)).result.1.method = m ∧
        (c.processLoglineIn env (line ++ 0 :: tail)).result.1.httpVersion = v ∧
        (c.processLoglineIn env (line ++ 0 :: tail)).result.1.requestUri = uri ∧
        (c.processLoglineIn env (line ++ 0 :: tail)).result.1.headerHost = host.or c.headerHost) ∧
      (c.processLoglineIn env (line ++ 0 :: tail)).copied ≤ maxHeaderLength ∧
      (c.processLoglineIn env (line ++ 0 :: tail)).corrupt = false := by
  by_cases hstart : 5 ≤ line.length ∧ ∃ m, m ≠ Method.unset ∧ methodText m <+: line
  · obtain ⟨hlong, m, hm, hmethod⟩ := hstart
    obtain ⟨hresult, hcopied, hcorrupt⟩ := processLoglineIn_spec env c tail hnul hlong hm hmethod
    have hshort : (afterMethod m line).length ≤ maxHeaderLength := by
      have h1 := (List.dropWhile_sublist (l := line.drop (methodText m).length) (· = space)).length_le
      rw [List.length_drop] at h1
      rw [afterMethod]
      omega
    rw [hresult]
    refine ⟨?_, ?_, hcopied, hcorrupt⟩
    · rw [parseTarget_iff hshort]
      constructor
      · rintro ⟨host, uri, v, htarget, hversion, hhead⟩
        exact ⟨m, host, uri, v, hlong, hm, hmethod, htarget, hversion, hhead⟩
      · rintro ⟨m', host, uri, v, h⟩
        obtain rfl := methodText_unique hmethod h.method hm h.known
        exact ⟨host, uri, v, h.target, h.version, h.head⟩
    · intro m' host uri v h
      obtain rfl := methodText_unique hmethod h.method hm h.known
      rw [parseTarget_of hshort h.target, finishLogline_of ((parseVersion_iff _ v).mpr h.version) h.head]
      exact ⟨rfl, rfl, rfl, rfl⟩
  · obtain ⟨hresult, hcopied, hcorrupt⟩ := processLoglineIn_refused env c tail hnul hstart
    have hno : ∀ m host uri v, ¬ Says line m host uri v := fun m host uri v h =>
      hstart ⟨h.long, m, h.known, h.method⟩
    rw [hresult, hcopied]
    refine ⟨?_, fun m host uri v h => absurd h (hno m host uri v), Nat.zero_le _, hcorrupt⟩
    refine iff_of_false Bool.false_ne_true ?_
    rintro ⟨m, host, uri, v, h⟩
    exact hno m host uri v h

lemma says_absolute : Says (text "GET http://h/x HTTP/1.1") .get (some (text "h")) (slash :: text "x") .http11 where
  long := by decide +kernel
  known := by decide
  method := by decide +kernel
  target := by
    have htarget : lineTarget .get (text "GET http://h/x HTTP/1.1") = text "http://" ++ text "h" ++ slash :: text "x" := by
      decide +kernel
    rw [htarget]
    exact .absolute (by decide +kernel) (by decide +kernel)
  version := by
    have hversion : lineVersion .get (text "GET http://h/x HTTP/1.1") = text "HTTP/1.1" := by decide +kernel
    rw [hversion]
    exact .inr ⟨by decide +kernel, .inr (.inr ⟨by decide +kernel, rfl⟩)⟩
  head := by decide

theorem processLogline_reads_absolute :
    let run := ({} : Request).processLoglineIn tinyEnv (text "GET http://h/x HTTP/1.1" ++ 0 :: text "Host: i")
    run.result.2 = true ∧ run.result.1.requestUri = text "/x" ∧ run.result.1.headerHost = some (text "h") ∧
      run.copied ≤ maxHeaderLength ∧ run.corrupt = false := by
  obtain ⟨haccepted, hparts, hbounds⟩ := processLogline_reads tinyEnv {} (text "GET http://h/x HTTP/1.1")
    (text "Host: i") (by decide +kernel) (by decide +kernel)
  obtain ⟨-, -, huri, hhost⟩ := hparts _ _ _ _ says_absolute
  have hslash : slash :: text "x" = text "/x" := by decide +kernel
  exact ⟨haccepted.mpr ⟨_, _, _, _, says_absolute⟩, huri.trans hslash, hhost, hbounds⟩

end Boa
