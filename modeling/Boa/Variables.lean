import Boa.Launch

/-! The names of the variables that a script is started with: which header lines take a slot of
the environment array, and when no name comes twice. -/
namespace Boa
open Memory History

/-- The name of a line, and its value. -/
def lineKey (line : Bytes) : Bytes := toUpper (line.takeWhile (· ≠ colon))

def valueText (line : Bytes) : Bytes :=
  ((line.dropWhile (· ≠ colon)).drop 1).dropWhile (fun b => b = space ∨ b = tab)

/-- The fields by which `process_option_line` decides about a line. -/
def Request.options (c : Request) :=
  (c.cgiEnv, c.cgiEnvIndex, c.contentType, c.contentLength, c.keepalive, c.headerHost, c.ifModifiedSince,
    c.ranges)

/-- The `switch` keeps the line for itself. -/
def Stored (cfg : Config) (c : Request) (key : Bytes) : Prop :=
  key = text "ACCEPT" ∨ (key = text "CONTENT_TYPE" ∧ c.contentType = none) ∨
    (key = text "CONTENT_LENGTH" ∧ c.contentLength = none) ∨
    (key = text "CONNECTION" ∧ cfg.kaMax ≠ 0 ∧ c.keepalive ≠ .stopped) ∨
    (key = text "HOST" ∧ c.headerHost = none) ∨
    (key = text "IF_MODIFIED_SINCE" ∧ c.ifModifiedSince = none) ∨
    (key = text "RANGE" ∧ (c.ranges.head?.map Range.stop) = some (2 ^ 31 - 1)) ∨
    key = text "X_FORWARDED_FOR"

instance (cfg : Config) (c : Request) (key : Bytes) : Decidable (Stored cfg c key) :=
  inferInstanceAs (Decidable (_ ∨ _))

/-- The entries that a line adds. -/
def lineEntries (cfg : Config) (c : Request) (line : Bytes) : List Bytes :=
  if valueText line = [] ∨ Stored cfg c (lineKey line) then []
  else
    List.replicate (if lineKey line = text "REFERER" then 2 else 1)
      (envGenExtra (lineKey line) (valueText line) true)

/-- Header lines that `process_option_line` accepts one after the other, each with the slots
that it uses; between them the parser may change anything else. -/
inductive OptionLines (cfg : Config) : Request → List (Bytes × ℕ) → Request → Prop
  | nil (c : Request) : OptionLines cfg c [] c
  | line {env : Env} {c d d' : Request} {lines : List (Bytes × ℕ)} (h : OptionLines cfg c lines d)
    (hcfg : env.cfg = cfg) (hsame : d'.options = d.options) (hok : (d'.processOptionLine env).2 = true) :
    OptionLines cfg c
      (lines ++ [(d'.lineAt, (d'.processOptionLine env).1.cgiEnvIndex - d'.cgiEnvIndex)])
      (d'.processOptionLine env).1

/-- The name of a variable. -/
def varName (entry : Bytes) : Bytes := entry.takeWhile (· ≠ 61)

/-- No line uses more than one slot, and no name comes twice in the environment. -/
def DefinedOnce (cfg : Config) (lines : List (Bytes × ℕ)) (e : Request) : Prop :=
  (∀ l ∈ lines, l.2 ≤ 1) ∧
    ((e.completeEnv cfg).2 = true → ((e.completeEnv cfg).1.environ.map varName).Nodup)

/-! ### One line -/

section Line

variable {cfg : Config} {env : Env} {c d : Request} {key key' value : Bytes}

/-- What an accepted line with a value does to the fields. -/
structure OptionTaken (c d : Request) (key value : Bytes) : Prop where
  type : key ≠ text "CONTENT_TYPE" → d.contentType = c.contentType
  length : key ≠ text "CONTENT_LENGTH" → d.contentLength = c.contentLength
  keepalive : key ≠ text "CONNECTION" → d.keepalive = c.keepalive
  host : d.headerHost = c.headerHost.or (if key = text "HOST" then some value else none)
  since : key ≠ text "IF_MODIFIED_SINCE" → d.ifModifiedSince = c.ifModifiedSince
  ranges : key ≠ text "RANGE" → d.ranges = c.ranges

lemma OptionTaken.of_same (ht : d.contentType = c.contentType) (hl : d.contentLength = c.contentLength)
    (hk : d.keepalive = c.keepalive) (hh : d.headerHost = c.headerHost)
    (hs : d.ifModifiedSince = c.ifModifiedSince) (hr : d.ranges = c.ranges)
    (hno : ¬ (key = text "HOST" ∧ c.headerHost = none)) : OptionTaken c d key value :=
  ⟨fun _ => ht, fun _ => hl, fun _ => hk, hh.trans (Request.or_of_not_first hno), fun _ => hs, fun _ => hr⟩

/-- Other names are decided about as before. -/
lemma OptionTaken.stored_iff (h : OptionTaken c d key value) (hne : key' ≠ key) :
    Stored cfg d key' ↔ Stored cfg c key' := by
  have hfield {p q : Prop} {name : Bytes} (heq : key ≠ name → (p ↔ q)) : (key' = name ∧ p ↔ key' = name ∧ q) :=
    and_congr_right fun hk => heq fun hk' => hne (hk.trans hk'.symm)
  have hhost : key ≠ text "HOST" → (d.headerHost = none ↔ c.headerHost = none) := by
    intro hk
    rw [h.host, if_neg hk, Option.or_none]
  unfold Stored
  exact or_congr .rfl (or_congr (hfield fun hk => by rw [h.type hk]) (or_congr (hfield fun hk => by rw [h.length hk])
    (or_congr (hfield fun hk => by rw [h.keepalive hk]) (or_congr (hfield hhost)
      (or_congr (hfield fun hk => by rw [h.since hk]) (or_congr (hfield fun hk => by rw [h.ranges hk]) .rfl))))))

lemma addCgiEnv_fields (c : Request) (key value : Bytes) (http : Bool) :
    (c.addCgiEnv key value http).1.contentType = c.contentType ∧
      (c.addCgiEnv key value http).1.contentLength = c.contentLength ∧
      (c.addCgiEnv key value http).1.keepalive = c.keepalive ∧
      (c.addCgiEnv key value http).1.headerHost = c.headerHost ∧
      (c.addCgiEnv key value http).1.ifModifiedSince = c.ifModifiedSince ∧
      (c.addCgiEnv key value http).1.ranges = c.ranges := by
  unfold Request.addCgiEnv
  split_ifs <;> exact ⟨rfl, rfl, rfl, rfl, rfl, rfl⟩

/-- How the `switch` ends for a line with a value. -/
inductive Switched (cfg : Config) (c : Request) (key value : Bytes) : Request × Option Bool → Prop
  | stored {d : Request} (h : Stored cfg c key) (ht : OptionTaken c d key value) (ha : Added c d []) :
    Switched cfg c key value (d, some true)
  | agent {d : Request} (h : ¬ Stored cfg c key) (hk : key ≠ text "REFERER") (ht : OptionTaken c d key value)
    (ha : Added c d [envGenExtra key value true]) : Switched cfg c key value (d, some true)
  | refused (d : Request) : Switched cfg c key value (d, some false)
  | referer {d : Request} (h : ¬ Stored cfg c key) (hk : key = text "REFERER") (ht : OptionTaken c d key value)
    (ha : Added c d [envGenExtra key value true]) : Switched cfg c key value (d, none)
  | plain {d : Request} (h : ¬ Stored cfg c key) (hk : key ≠ text "REFERER") (ht : OptionTaken c d key value)
    (ha : Added c d []) : Switched cfg c key value (d, none)

lemma Stored.name (h : Stored cfg c key) : key ∈ [text "ACCEPT", text "CONTENT_TYPE", text "CONTENT_LENGTH",
    text "CONNECTION", text "HOST", text "IF_MODIFIED_SINCE", text "RANGE", text "X_FORWARDED_FOR"] := by
  simp only [List.mem_cons, List.not_mem_nil, or_false]
  rcases h with h | ⟨h, -⟩ | ⟨h, -⟩ | ⟨h, -⟩ | ⟨h, -⟩ | ⟨h, -⟩ | ⟨h, -⟩ | h <;> simp only [h, true_or, or_true]

lemma addCgiEnv_taken {e : Request} (key value : Bytes) (he : e.options = c.options)
    (hk : key ≠ text "HOST") : OptionTaken c (e.addCgiEnv key value true).1 key value := by
  simp only [Request.options, Prod.mk.injEq] at he
  obtain ⟨-, -, ht, hl, hka, hh, hs, hr⟩ := he
  obtain ⟨ht', hl', hka', hh', hs', hr'⟩ := addCgiEnv_fields e key value true
  exact .of_same (ht'.trans ht) (hl'.trans hl) (hka'.trans hka) (hh'.trans hh) (hs'.trans hs) (hr'.trans hr)
    fun h => hk h.1

lemma rangeOption_switched (hkey : key = text "RANGE") :
    Switched env.cfg c key value (c.rangeOption env value) := by
  have hhost : key ≠ text "HOST" := fun h => absurd (hkey.symm.trans h) (by decide +kernel)
  have hreferer : key ≠ text "REFERER" := fun h => absurd (hkey.symm.trans h) (by decide +kernel)
  by_cases hlast : (c.ranges.head?.map Range.stop) = some (2 ^ 31 - 1)
  · unfold Request.rangeOption
    rw [if_pos hlast]
    refine .stored ?_ (.of_same rfl rfl rfl rfl rfl rfl fun h => hhost h.1) (.of_eq rfl rfl)
    exact .inr (.inr (.inr (.inr (.inr (.inr (.inl ⟨hkey, hlast⟩))))))
  · have hnot : ¬ Stored env.cfg c key := by
      intro h
      rcases h with h | ⟨h, -⟩ | ⟨h, -⟩ | ⟨h, -⟩ | ⟨h, -⟩ | ⟨h, -⟩ | ⟨-, h⟩ | h
      · exact absurd (hkey.symm.trans h) (by decide +kernel)
      · exact absurd (hkey.symm.trans h) (by decide +kernel)
      · exact absurd (hkey.symm.trans h) (by decide +kernel)
      · exact absurd (hkey.symm.trans h) (by decide +kernel)
      · exact hhost h
      · exact absurd (hkey.symm.trans h) (by decide +kernel)
      · exact hlast h
      · exact absurd (hkey.symm.trans h) (by decide +kernel)
    unfold Request.rangeOption
    rw [if_neg hlast]
    obtain ⟨rs, n, he, -⟩ := Request.rangeParse_spec c value
    generalize c.rangeParse value = r at he ⊢
    obtain ⟨e, _ | _⟩ := r
    · exact .refused _
    · obtain rfl : e = _ := he
      refine .plain hnot hreferer ⟨fun _ => rfl, fun _ => rfl, fun _ => rfl, ?_, fun _ => rfl,
        fun h => absurd hkey h⟩ (.of_eq rfl rfl)
      rw [if_neg hhost, Option.or_none]

lemma optionSwitch_switched (env : Env) (c : Request) (key value : Bytes) :
    Switched env.cfg c key value (c.optionSwitch env key value) := by
  unfold Request.optionSwitch
  by_cases ha : key = text "ACCEPT"
  · rw [if_pos ha]
    refine .stored (.inl ha) (.of_same rfl rfl rfl rfl rfl rfl fun h => ?_) (.of_eq rfl rfl)
    exact absurd (ha.symm.trans h.1) (by decide +kernel)
  rw [if_neg ha]
  by_cases ht : key = text "CONTENT_TYPE" ∧ c.contentType = none
  · rw [if_pos ht]
    have hhost : key ≠ text "HOST" := fun h => absurd (ht.1.symm.trans h) (by decide +kernel)
    refine .stored (.inr (.inl ht)) ⟨fun h => absurd ht.1 h, fun _ => rfl, fun _ => rfl, ?_, fun _ => rfl,
      fun _ => rfl⟩ (.of_eq rfl rfl)
    rw [if_neg hhost, Option.or_none]
  rw [if_neg ht]
  by_cases hl : key = text "CONTENT_LENGTH" ∧ c.contentLength = none
  · rw [if_pos hl]
    have hhost : key ≠ text "HOST" := fun h => absurd (hl.1.symm.trans h) (by decide +kernel)
    refine .stored (.inr (.inr (.inl hl))) ⟨fun _ => rfl, fun h => absurd hl.1 h, fun _ => rfl, ?_, fun _ => rfl,
      fun _ => rfl⟩ (.of_eq rfl rfl)
    rw [if_neg hhost, Option.or_none]
  rw [if_neg hl]
  by_cases hk : key = text "CONNECTION" ∧ env.cfg.kaMax ≠ 0 ∧ c.keepalive ≠ .stopped
  · rw [if_pos hk]
    have hhost : key ≠ text "HOST" := fun h => absurd (hk.1.symm.trans h) (by decide +kernel)
    refine .stored (.inr (.inr (.inr (.inl hk)))) ⟨fun _ => rfl, fun _ => rfl, fun h => absurd hk.1 h, ?_,
      fun _ => rfl, fun _ => rfl⟩ (.of_eq rfl rfl)
    rw [if_neg hhost, Option.or_none]
  rw [if_neg hk]
  by_cases hh : key = text "HOST" ∧ c.headerHost = none
  · rw [if_pos hh]
    refine .stored (.inr (.inr (.inr (.inr (.inl hh))))) ⟨fun _ => rfl, fun _ => rfl, fun _ => rfl, ?_,
      fun _ => rfl, fun _ => rfl⟩ (.of_eq rfl rfl)
    rw [if_pos hh.1, hh.2]
    rfl
  rw [if_neg hh]
  by_cases hs : key = text "IF_MODIFIED_SINCE" ∧ c.ifModifiedSince = none
  · rw [if_pos hs]
    have hhost : key ≠ text "HOST" := fun h => absurd (hs.1.symm.trans h) (by decide +kernel)
    refine .stored (.inr (.inr (.inr (.inr (.inr (.inl hs)))))) ⟨fun _ => rfl, fun _ => rfl, fun _ => rfl, ?_,
      fun h => absurd hs.1 h, fun _ => rfl⟩ (.of_eq rfl rfl)
    rw [if_neg hhost, Option.or_none]
  rw [if_neg hs]
  by_cases href : key = text "REFERER"
  · rw [if_pos href, ← href]
    have hhost : key ≠ text "HOST" := fun h => absurd (href.symm.trans h) (by decide +kernel)
    have hnot : ¬ Stored env.cfg c key := by
      intro h
      have hname := h.name
      rw [href] at hname
      exact absurd hname (by decide +kernel)
    have htaken := addCgiEnv_taken (c := c) (e := { c with headerReferer := some value }) key value rfl hhost
    obtain ⟨hok, hadd⟩ | ⟨hfail, -⟩ :=
      Request.addCgiEnv_added { c with headerReferer := some value } key value true
    · generalize Request.addCgiEnv { c with headerReferer := some value } key value true = r at hok hadd htaken
      obtain ⟨d, ok⟩ := r
      cases hok
      exact .referer hnot href htaken (hadd.congr rfl rfl)
    · generalize Request.addCgiEnv { c with headerReferer := some value } key value true = r at hfail
      obtain ⟨d, ok⟩ := r
      cases hfail
      exact .refused d
  rw [if_neg href]
  by_cases hr : key = text "RANGE"
  · rw [if_pos hr]
    exact rangeOption_switched hr
  rw [if_neg hr]
  by_cases hu : key = text "USER_AGENT"
  · rw [if_pos hu, ← hu]
    have hhost : key ≠ text "HOST" := fun h => absurd (hu.symm.trans h) (by decide +kernel)
    have hnot : ¬ Stored env.cfg c key := by
      intro h
      have hname := h.name
      rw [hu] at hname
      exact absurd hname (by decide +kernel)
    have htaken := addCgiEnv_taken (c := c) (e := { c with headerUserAgent := some value }) key value rfl hhost
    obtain ⟨hok, hadd⟩ | ⟨hfail, -⟩ :=
      Request.addCgiEnv_added { c with headerUserAgent := some value } key value true
    · dsimp only
      rw [hok]
      exact .agent hnot href htaken (hadd.congr rfl rfl)
    · dsimp only
      rw [hfail]
      exact .refused _
  rw [if_neg hu]
  by_cases hx : key = text "X_FORWARDED_FOR"
  · rw [if_pos hx]
    refine .stored (.inr (.inr (.inr (.inr (.inr (.inr (.inr hx))))))) (.of_same rfl rfl rfl rfl rfl rfl hh)
      (.of_eq rfl rfl)
  · rw [if_neg hx]
    refine .plain ?_ href (.of_same rfl rfl rfl rfl rfl rfl hh) (.refl c)
    rintro (h | h | h | h | h | h | h | h)
    · exact ha h
    · exact ht h
    · exact hl h
    · exact hk h
    · exact hh h
    · exact hs h
    · exact hr h.1
    · exact hx h

lemma OptionTaken.trans_add {key value : Bytes} (h : OptionTaken c d key value) :
    OptionTaken c (d.addCgiEnv key value true).1 key value := by
  obtain ⟨ht, hl, hka, hh, hs, hr⟩ := addCgiEnv_fields d key value true
  exact ⟨fun hk => ht.trans (h.type hk), fun hk => hl.trans (h.length hk), fun hk => hka.trans (h.keepalive hk),
    hh.trans h.host, fun hk => hs.trans (h.since hk), fun hk => hr.trans (h.ranges hk)⟩

/-- The end of `process_option_line`, behind the `switch`. -/
def afterSwitch (key value : Bytes) : Request × Option Bool → Request × Bool
  | (c, some ok) => (c, ok)
  | (c, none) => c.addCgiEnv key value true

lemma Switched.accepted {r : Request × Option Bool} (h : Switched cfg c key value r)
    (hok : (afterSwitch key value r).2 = true) :
    OptionTaken c (afterSwitch key value r).1 key value ∧
      Added c (afterSwitch key value r).1 (if Stored cfg c key then []
        else List.replicate (if key = text "REFERER" then 2 else 1) (envGenExtra key value true)) := by
  have hadd : ∀ d : Request, (d.addCgiEnv key value true).2 = true →
      Added d (d.addCgiEnv key value true).1 [envGenExtra key value true] := by
    intro d hd
    obtain ⟨-, hadd⟩ | ⟨hfail, -⟩ := Request.addCgiEnv_added d key value true
    · exact hadd
    · rw [hd] at hfail
      cases hfail
  cases h with
  | stored h ht ha =>
    rw [if_pos h]
    exact ⟨ht, ha⟩
  | agent h hk ht ha =>
    rw [if_neg h, if_neg hk]
    exact ⟨ht, ha⟩
  | refused d => cases hok
  | referer h hk ht ha =>
    rw [if_neg h, if_pos hk]
    exact ⟨ht.trans_add, ha.trans (hadd _ hok)⟩
  | plain h hk ht ha =>
    rw [if_neg h, if_neg hk]
    exact ⟨ht.trans_add, ha.trans (hadd _ hok)⟩

lemma processOptionLine_eq (env : Env) (c : Request) : c.processOptionLine env =
    if c.lineAt.dropWhile (· ≠ colon) = [] then (c.log (.optionLine c.lineAt), false)
    else if valueText c.lineAt = [] then (c.log (.optionLine c.lineAt), true)
    else afterSwitch (lineKey c.lineAt) (valueText c.lineAt)
      ((c.log (.optionLine c.lineAt)).optionSwitch env (lineKey c.lineAt) (valueText c.lineAt)) := by
  unfold Request.processOptionLine valueText lineKey
  dsimp only
  cases c.lineAt.dropWhile (· ≠ colon) with
  | nil => rfl
  | cons x v =>
    rw [if_neg (List.cons_ne_nil x v)]
    rfl

/-- An accepted line adds its entries; without a value it does nothing else. -/
lemma processOptionLine_accepted (h : (c.processOptionLine env).2 = true) :
    Added c (c.processOptionLine env).1 (lineEntries env.cfg c c.lineAt) ∧
      ((valueText c.lineAt = [] ∧ (c.processOptionLine env).1.options = c.options) ∨
        (valueText c.lineAt ≠ [] ∧
          OptionTaken c (c.processOptionLine env).1 (lineKey c.lineAt) (valueText c.lineAt))) := by
  rw [processOptionLine_eq] at h ⊢
  by_cases hcolon : c.lineAt.dropWhile (· ≠ colon) = []
  · rw [if_pos hcolon] at h
    cases h
  rw [if_neg hcolon] at h ⊢
  unfold lineEntries
  by_cases hnil : valueText c.lineAt = []
  · rw [if_pos hnil, if_pos (.inl hnil)]
    exact ⟨.of_eq rfl rfl, .inl ⟨hnil, rfl⟩⟩
  · rw [if_neg hnil] at h ⊢
    obtain ⟨ht, ha⟩ := (optionSwitch_switched env (c.log (.optionLine c.lineAt)) (lineKey c.lineAt)
      (valueText c.lineAt)).accepted h
    refine ⟨?_, .inr ⟨hnil, ht.1, ht.2, ht.3, ht.4, ht.5, ht.6⟩⟩
    simp only [hnil, false_or]
    exact ha.congr rfl rfl

end Line
/-! ### A run over lines -/

/-- The line takes a slot of the array. -/
def Slotted (cfg : Config) (c : Request) (line : Bytes) : Prop :=
  valueText line ≠ [] ∧ ¬ Stored cfg c (lineKey line)

instance (cfg : Config) (c : Request) (line : Bytes) : Decidable (Slotted cfg c line) :=
  inferInstanceAs (Decidable (_ ∧ _))

/-- The name of the line's variable, behind `HTTP_`. -/
def cutName (line : Bytes) : Bytes := (lineKey line).takeWhile (· ≠ 61)

/-- The `Host` of the request is known from the request line or from a header line. -/
def HostKnown (c : Request) (lines : List (Bytes × ℕ)) : Prop :=
  c.headerHost ≠ none ∨ ∃ l ∈ lines, lineKey l.1 = text "HOST" ∧ valueText l.1 ≠ []

section Run

variable {cfg : Config} {c d e : Request} {lines : List (Bytes × ℕ)}

lemma stored_congr {c d : Request} (h : d.options = c.options) (key : Bytes) :
    Stored cfg d key ↔ Stored cfg c key := by
  simp only [Request.options, Prod.mk.injEq] at h
  obtain ⟨-, -, ht, hl, hk, hh, hs, hr⟩ := h
  unfold Stored
  rw [ht, hl, hk, hh, hs, hr]

lemma lineEntries_congr {c d : Request} {line : Bytes}
    (h : Stored cfg d (lineKey line) ↔ Stored cfg c (lineKey line)) :
    lineEntries cfg d line = lineEntries cfg c line := by
  unfold lineEntries
  simp only [h]

/-- What lines with different names add does not depend on their order. -/
structure OptionRun (cfg : Config) (c : Request) (lines : List (Bytes × ℕ)) (d : Request) : Prop where
  added : Added c d (lines.flatMap fun l => lineEntries cfg c l.1)
  slots : ∀ l ∈ lines, l.2 = (lineEntries cfg c l.1).length
  stored : ∀ key, key ∉ lines.map (fun l => lineKey l.1) → (Stored cfg d key ↔ Stored cfg c key)
  host : d.headerHost ≠ none ↔ HostKnown c lines

lemma OptionLines.run (h : OptionLines cfg c lines d) (hkeys : (lines.map fun l => lineKey l.1).Nodup) :
    OptionRun cfg c lines d := by
  induction h with
  | nil c => exact ⟨.refl c, nofun, fun _ _ => .rfl, by simp [HostKnown]⟩
  | @line env c d d' lines h hcfg hsame hok ih =>
    subst hcfg
    rw [List.map_append, List.nodup_append] at hkeys
    obtain ⟨hbefore, -, hapart⟩ := hkeys
    have hnew : lineKey d'.lineAt ∉ lines.map (fun l => lineKey l.1) := by
      intro hmem
      exact hapart _ hmem _ (by simp) rfl
    obtain ⟨hadd, hslots, hstored, hhost⟩ := ih hbefore
    obtain ⟨hline, htaken⟩ := processOptionLine_accepted hok
    have hentries : lineEntries env.cfg d' d'.lineAt = lineEntries env.cfg c d'.lineAt :=
      lineEntries_congr ((stored_congr hsame _).trans (hstored _ hnew))
    have hsame' := hsame
    simp only [Request.options, Prod.mk.injEq] at hsame'
    obtain ⟨he, hi, -, -, -, hh, -, -⟩ := hsame'
    rw [hentries] at hline
    refine ⟨?_, ?_, ?_, ?_⟩
    · rw [List.flatMap_append, List.flatMap_cons, List.flatMap_nil, List.append_nil]
      exact hadd.trans (hline.congr he.symm hi.symm)
    · intro l hl
      rcases List.mem_append.mp hl with hl | hl
      · exact hslots l hl
      · rw [List.mem_singleton.mp hl, hline.index]
        exact Nat.add_sub_cancel_left _ _
    · intro key hkey
      rw [List.map_append, List.mem_append, not_or] at hkey
      refine Iff.trans ?_ ((stored_congr hsame key).trans (hstored key hkey.1))
      obtain ⟨-, hnone⟩ | ⟨-, ht⟩ := htaken
      · exact stored_congr hnone key
      · exact ht.stored_iff fun hk => hkey.2 (by simp [hk])
    · have hstep : (d'.processOptionLine env).1.headerHost ≠ none ↔
          d'.headerHost ≠ none ∨ (lineKey d'.lineAt = text "HOST" ∧ valueText d'.lineAt ≠ []) := by
        obtain ⟨hnil, hnone⟩ | ⟨hne, ht⟩ := htaken
        · simp only [Request.options, Prod.mk.injEq] at hnone
          rw [hnone.2.2.2.2.2.1]
          simp [hnil]
        · rw [ht.host]
          split_ifs with hk <;> simp [hk, hne]
      rw [hstep, hh, hhost]
      unfold HostKnown
      simp [or_and_right, exists_or, or_assoc]

/-! ### The names -/

/-- The names that `complete_env` may add. -/
def serverNames : List Bytes := [text "REQUEST_METHOD", text "HTTP_HOST", text "SERVER_ADDR",
  text "SERVER_PROTOCOL", text "REQUEST_URI", text "PATH_INFO", text "PATH_TRANSLATED", text "SCRIPT_NAME",
  text "QUERY_STRING", text "REMOTE_ADDR", text "REMOTE_PORT", text "CONTENT_TYPE", text "CONTENT_LENGTH"]

/-- The variables come in one order, each at most once. -/
lemma optional_names (key : String) (o : Option Bytes) :
    ((match o with
      | some v => [(text key, v)]
      | none => []).map Prod.fst).Sublist [text key] := by
  cases o <;> simp

lemma post_names (cfg : Config) (e : Request) :
    ((if e.method = .post then [(text "CONTENT_TYPE", e.contentType.getD cfg.defaultType)] ++
      (match e.contentLength with
        | some v => [(text "CONTENT_LENGTH", v)]
        | none => []) else []).map Prod.fst).Sublist [text "CONTENT_TYPE", text "CONTENT_LENGTH"] := by
  split_ifs
  · exact (List.Sublist.refl [_]).append (optional_names "CONTENT_LENGTH" e.contentLength)
  · exact List.nil_sublist _

lemma serverVariables_names (cfg : Config) (e : Request) :
    ((e.serverVariables cfg).map Prod.fst).Sublist serverNames := by
  have hparts : serverNames = [text "REQUEST_METHOD"] ++ [text "HTTP_HOST"] ++
      [text "SERVER_ADDR", text "SERVER_PROTOCOL", text "REQUEST_URI"] ++ [text "PATH_INFO"] ++
      [text "PATH_TRANSLATED"] ++ [text "SCRIPT_NAME"] ++ [text "QUERY_STRING"] ++
      [text "REMOTE_ADDR", text "REMOTE_PORT"] ++ [text "CONTENT_TYPE", text "CONTENT_LENGTH"] := rfl
  unfold Request.serverVariables
  rw [hparts]
  simp only [List.map_append]
  refine ((((((((List.Sublist.refl _).append ?_).append (.refl _)).append ?_).append ?_).append
    (.refl _)).append ?_).append (.refl _)).append ?_
  · exact optional_names "HTTP_HOST" e.headerHost
  · exact optional_names "PATH_INFO" e.pathInfo
  · exact optional_names "PATH_TRANSLATED" e.pathTranslated
  · exact optional_names "QUERY_STRING" e.queryString
  · exact post_names cfg e

lemma varName_append (key value : Bytes) : varName (key ++ 61 :: value) = key.takeWhile (· ≠ 61) := by
  unfold varName
  rw [List.takeWhile_append]
  split_ifs with hall
  · rw [List.takeWhile_cons_of_neg (by simp), List.append_nil]
    exact ((List.takeWhile_prefix _).eq_of_length hall).symm
  · rfl

lemma varName_line (key value : Bytes) :
    varName (envGenExtra key value true) = text "HTTP_" ++ key.takeWhile (· ≠ 61) := by
  have hhttp : ∀ b ∈ text "HTTP_", decide (b ≠ (61 : UInt8)) = true := by decide +kernel
  have hentry : envGenExtra key value true = (text "HTTP_" ++ key) ++ 61 :: value := by
    unfold envGenExtra
    rw [if_pos rfl, List.append_assoc _ [61]]
    rfl
  rw [hentry, varName_append, List.takeWhile_append_of_pos hhttp]

/-- The names of the server's variables in the environment. -/
lemma varName_server (cfg : Config) (e : Request) :
    ((e.serverVariables cfg).map fun kv => envGenExtra kv.1 kv.2 false).map varName =
      (e.serverVariables cfg).map Prod.fst := by
  have hplain : ∀ key ∈ serverNames, ∀ b ∈ key, b ≠ (61 : UInt8) := by decide +kernel
  rw [List.map_map]
  refine List.map_congr_left fun kv hkv => ?_
  have hmem := (serverVariables_names cfg e).subset (List.mem_map_of_mem hkv)
  have hentry : envGenExtra kv.1 kv.2 false = kv.1 ++ 61 :: kv.2 := by
    unfold envGenExtra
    rw [if_neg Bool.false_ne_true, List.nil_append, List.append_assoc]
    rfl
  show varName (envGenExtra kv.1 kv.2 false) = kv.1
  rw [hentry, varName_append, List.takeWhile_eq_self_iff]
  simpa using hplain kv.1 hmem

/-- Without a `Referer` a line adds one entry or none. -/
lemma varName_lines (hno : ∀ l ∈ lines, valueText l.1 ≠ [] → lineKey l.1 ≠ text "REFERER") :
    (lines.flatMap fun l => lineEntries cfg c l.1).map varName =
      (lines.filter fun l => decide (Slotted cfg c l.1)).map fun l => text "HTTP_" ++ cutName l.1 := by
  induction lines with
  | nil => rfl
  | cons l lines ih =>
    have ih := ih fun l' hl' => hno l' (List.mem_cons_of_mem _ hl')
    rw [List.flatMap_cons, List.map_append, ih, List.filter_cons]
    by_cases hs : Slotted cfg c l.1
    · have hone : lineEntries cfg c l.1 = [envGenExtra (lineKey l.1) (valueText l.1) true] := by
        unfold lineEntries
        rw [if_neg (not_or.mpr hs), if_neg (hno l List.mem_cons_self hs.1)]
        rfl
      rw [if_pos (decide_eq_true hs), hone, List.map_singleton, varName_line]
      rfl
    · have hskip : valueText l.1 = [] ∨ Stored cfg c (lineKey l.1) := by
        by_cases hnil : valueText l.1 = []
        · exact .inl hnil
        · exact .inr (not_not.mp fun hst => hs ⟨hnil, hst⟩)
      have hnone : lineEntries cfg c l.1 = [] := if_pos hskip
      have hfalse : ¬ decide (Slotted cfg c l.1) = true := fun h => hs (of_decide_eq_true h)
      rw [if_neg hfalse, hnone, List.map_nil, List.nil_append]

/-- No two variables get one name: the names of the lines that take a slot differ before a `=`, none
of them is the `HTTP_HOST` that the server adds, and the common variables have names of their own. -/
structure NamesApart (cfg : Config) (c : Request) (lines : List (Bytes × ℕ)) (e : Request) : Prop where
  apart : ((lines.filter fun l => decide (Slotted cfg c l.1)).map fun l => cutName l.1).Nodup
  host : HostKnown c lines → ∀ l ∈ lines, Slotted cfg c l.1 → cutName l.1 ≠ text "HOST"
  common : (cfg.commonCgiEnv.map varName).Nodup
  commonLines : ∀ x ∈ cfg.commonCgiEnv, ∀ l ∈ lines, Slotted cfg c l.1 →
    varName x ≠ text "HTTP_" ++ cutName l.1
  commonServer : ∀ x ∈ cfg.commonCgiEnv, varName x ∉ (e.serverVariables cfg).map Prod.fst

lemma server_nodup (cfg : Config) (e : Request) : ((e.serverVariables cfg).map Prod.fst).Nodup :=
  (serverVariables_names cfg e).nodup (by decide +kernel)

lemma host_mem_iff (cfg : Config) (e : Request) :
    text "HTTP_HOST" ∈ (e.serverVariables cfg).map Prod.fst ↔ e.headerHost ≠ none := by
  have hmethod : text "HTTP_HOST" ≠ text "REQUEST_METHOD" := by decide +kernel
  -- with a host its name is there once, so that it is not among the others
  have hrest : text "HTTP_HOST" ∉ (Request.serverVariables cfg { e with headerHost := none }).tail.map Prod.fst := by
    have hnodup := server_nodup cfg { e with headerHost := some [] }
    rw [serverVariables_host] at hnodup
    simp only [Option.map_some, Option.toList_some, List.map_cons, List.singleton_append, List.nodup_cons] at hnodup
    exact hnodup.2.1
  rw [serverVariables_host]
  cases e.headerHost with
  | none => simpa [hmethod] using hrest
  | some v => simp

/-- The environment in terms of the lines. -/
lemma names_nodup_iff {environ : List Bytes} (hno : ∀ l ∈ lines, valueText l.1 ≠ [] → lineKey l.1 ≠ text "REFERER")
    (hhost : e.headerHost ≠ none ↔ HostKnown c lines)
    (henv : environ = cfg.commonCgiEnv ++ (lines.flatMap fun l => lineEntries cfg c l.1) ++
      (e.serverVariables cfg).map fun kv => envGenExtra kv.1 kv.2 false) :
    (environ.map varName).Nodup ↔ NamesApart cfg c lines e := by
  have hhttp : ∀ key ∈ serverNames, text "HTTP_" <+: key → key = text "HTTP_HOST" := by decide +kernel
  have hname : text "HTTP_HOST" = text "HTTP_" ++ text "HOST" := by decide +kernel
  have hlines : ((lines.filter fun l => decide (Slotted cfg c l.1)).map fun l => text "HTTP_" ++ cutName l.1).Nodup ↔
      ((lines.filter fun l => decide (Slotted cfg c l.1)).map fun l => cutName l.1).Nodup := by
    have hmap := List.nodup_map_iff (l := (lines.filter fun l => decide (Slotted cfg c l.1)).map fun l =>
      cutName l.1) (List.append_right_injective (text "HTTP_"))
    rw [List.map_map] at hmap
    exact hmap
  have hmem : ∀ name, name ∈ ((lines.filter fun l => decide (Slotted cfg c l.1)).map
      fun l => text "HTTP_" ++ cutName l.1) ↔ ∃ l ∈ lines, Slotted cfg c l.1 ∧ text "HTTP_" ++ cutName l.1 = name := by
    intro name
    simp only [List.mem_map, List.mem_filter, decide_eq_true_eq, and_assoc]
  rw [henv, List.map_append, List.map_append, varName_lines hno, varName_server, List.nodup_append,
    List.nodup_append, hlines]
  constructor
  · rintro ⟨⟨hcommon, hapart, hcl⟩, -, hserver⟩
    refine ⟨hapart, fun hknown l hl hs he => ?_, hcommon, fun x hx l hl hs => ?_, fun x hx hin => ?_⟩
    · refine hserver (text "HTTP_HOST") ?_ _ ((host_mem_iff cfg e).mpr (hhost.mpr hknown)) rfl
      exact List.mem_append_right _ ((hmem _).mpr ⟨l, hl, hs, by rw [he, hname]⟩)
    · exact hcl _ (List.mem_map_of_mem hx) _ ((hmem _).mpr ⟨l, hl, hs, rfl⟩)
    · exact hserver _ (List.mem_append_left _ (List.mem_map_of_mem hx)) _ hin rfl
  · rintro ⟨hapart, hhostApart, hcommon, hcl, hcs⟩
    refine ⟨⟨hcommon, hapart, ?_⟩, server_nodup cfg e, ?_⟩
    · intro a ha b hb
      obtain ⟨x, hx, rfl⟩ := List.mem_map.mp ha
      obtain ⟨l, hl, hs, rfl⟩ := (hmem b).mp hb
      exact hcl x hx l hl hs
    · rintro a ha b hb rfl
      rcases List.mem_append.mp ha with ha | ha
      · obtain ⟨x, hx, rfl⟩ := List.mem_map.mp ha
        exact hcs x hx hb
      · obtain ⟨l, hl, hs, rfl⟩ := (hmem a).mp ha
        have he := hhttp _ ((serverVariables_names cfg e).subset hb) (List.prefix_append _ _)
        rw [he] at hb
        rw [hname] at he
        exact hhostApart (hhost.mp ((host_mem_iff cfg e).mp hb)) l hl hs (List.append_cancel_left he)

/-- Lines with different names use one slot each at most and give an environment without a name
twice, exactly where no line is a `Referer` and the names are apart. -/
theorem definedOnce_iff (hstart : c.cgiEnvIndex = cfg.commonCgiEnv.length) (hrun : OptionLines cfg c lines d)
    (hkeys : (lines.map fun l => lineKey l.1).Nodup)
    (hsame : e.cgiEnv = d.cgiEnv ∧ e.cgiEnvIndex = d.cgiEnvIndex ∧ e.headerHost = d.headerHost) :
    DefinedOnce cfg lines e ↔ (∀ l ∈ lines, valueText l.1 ≠ [] → lineKey l.1 ≠ text "REFERER") ∧
      ((e.completeEnv cfg).2 = true → NamesApart cfg c lines e) := by
  obtain ⟨hadd, hslots, -, hhost⟩ := hrun.run hkeys
  obtain ⟨hcells, hindex, hheader⟩ := hsame
  have hone : (∀ l ∈ lines, l.2 ≤ 1) ↔ ∀ l ∈ lines, valueText l.1 ≠ [] → lineKey l.1 ≠ text "REFERER" := by
    refine forall₂_congr fun l hl => ?_
    rw [hslots l hl]
    unfold lineEntries
    have hstored : lineKey l.1 = text "REFERER" → ¬ Stored cfg c (lineKey l.1) := by
      intro hk hst
      have hname := hst.name
      rw [hk] at hname
      exact absurd hname (by decide +kernel)
    by_cases hk : lineKey l.1 = text "REFERER"
    · simp only [hstored hk, or_false, if_pos hk]
      split_ifs with hnil <;> simp [hnil, hk]
    · split_ifs <;> simp [hk]
  unfold DefinedOnce
  rw [hone]
  refine and_congr_right fun hno => forall_congr' fun hr => ?_
  have hsize := hadd.index
  have hcell : ∀ i, i < (lines.flatMap fun l => lineEntries cfg c l.1).length →
      e.envCell (cfg.commonCgiEnv.length + i) = (lines.flatMap fun l => lineEntries cfg c l.1)[i]? := by
    intro i hi
    have hcell := hadd.cells (cfg.commonCgiEnv.length + i)
    rw [if_pos (by omega), hstart, Nat.add_sub_cancel_left] at hcell
    rw [← hcell]
    unfold Request.envCell
    rw [hcells]
  obtain ⟨-, henv⟩ := completeEnv_environ (by rw [hindex, hsize, hstart]) hcell hr
  exact names_nodup_iff hno (by rw [hheader, hhost]) henv

/-- With one common variable. -/
def markConfig : Config := { tinyConfig with commonCgiEnv := [text "LANG=C"] }

def markEnv : Env := { tinyEnv with cfg := markConfig }

/-- A request at the first of two header lines, at the second and behind it. -/
def markFirst : Request := { lineRequest "X-Mark: 1" with cgiEnvIndex := 1 }

def markSecond : Request := { (markFirst.processOptionLine markEnv).1 with clientStream := text "Accept-Language: de" }

def markLast : Request := (markSecond.processOptionLine markEnv).1

def markLines : List (Bytes × ℕ) := [(text "X-Mark: 1", 1), (text "Accept-Language: de", 1)]

lemma markLines_run : OptionLines markConfig markFirst markLines markLast := by
  have hfirst : OptionLines markConfig markFirst
      ([] ++ [(markFirst.lineAt, (markFirst.processOptionLine markEnv).1.cgiEnvIndex - markFirst.cgiEnvIndex)])
      (markFirst.processOptionLine markEnv).1 := .line (.nil markFirst) rfl rfl (by decide +kernel)
  have hlast : OptionLines markConfig markFirst
      (_ ++ [(markSecond.lineAt, (markSecond.processOptionLine markEnv).1.cgiEnvIndex - markSecond.cgiEnvIndex)])
      markLast := .line hfirst rfl rfl (by decide +kernel)
  have hlines : markLines =
      ([] ++ [(markFirst.lineAt, (markFirst.processOptionLine markEnv).1.cgiEnvIndex - markFirst.cgiEnvIndex)]) ++
        [(markSecond.lineAt, (markSecond.processOptionLine markEnv).1.cgiEnvIndex - markSecond.cgiEnvIndex)] := by
    decide +kernel
  rw [hlines]
  exact hlast
theorem definedOnce_two : (markLast.completeEnv markConfig).2 = true ∧
    [text "LANG=C", text "HTTP_X_MARK=1", text "HTTP_ACCEPT_LANGUAGE=de"] <+:
      (markLast.completeEnv markConfig).1.environ ∧
    DefinedOnce markConfig markLines markLast := by
  refine ⟨by decide +kernel, by decide +kernel,
    (definedOnce_iff rfl markLines_run (by decide +kernel) ⟨rfl, rfl, rfl⟩).mpr ⟨by decide +kernel, fun _ => ?_⟩⟩
  exact ⟨by decide +kernel, fun _ => by decide +kernel, by decide +kernel, by decide +kernel, by decide +kernel⟩

/-- A request at its only header line, and behind it. -/
def oneOption (line : String) : List (Bytes × ℕ) :=
  [((lineRequest line).lineAt,
    ((lineRequest line).processOptionLine tinyEnv).1.cgiEnvIndex - (lineRequest line).cgiEnvIndex)]

def afterOption (line : String) : Request := ((lineRequest line).processOptionLine tinyEnv).1

lemma oneOption_run {line : String} (hok : ((lineRequest line).processOptionLine tinyEnv).2 = true) :
    OptionLines tinyConfig (lineRequest line) (oneOption line) (afterOption line) :=
  .line (.nil _) rfl rfl hok

/-- A `Referer` is added twice. -/
theorem referer_defined_twice : (lineRequest "Referer: /a").cgiEnvIndex = tinyConfig.commonCgiEnv.length ∧
    OptionLines tinyConfig (lineRequest "Referer: /a") (oneOption "Referer: /a") (afterOption "Referer: /a") ∧
    ((oneOption "Referer: /a").map fun l => lineKey l.1).Nodup ∧
    ((afterOption "Referer: /a").completeEnv tinyConfig).2 = true ∧
    ((afterOption "Referer: /a").completeEnv tinyConfig).1.environ.count (text "HTTP_REFERER=/a") = 2 ∧
    ¬ DefinedOnce tinyConfig (oneOption "Referer: /a") (afterOption "Referer: /a") := by
  refine ⟨rfl, oneOption_run (by decide +kernel), List.nodup_singleton _, by decide +kernel, by decide +kernel,
    fun h => ?_⟩
  exact absurd h.1 (by decide +kernel)

end Run
end Boa
