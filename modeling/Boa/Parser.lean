import Boa.Locate

/-! The header parser: what one line and one byte change. -/
namespace Boa
open Memory History

/-- `d` is `c` after its request line was taken in. -/
def LoglineOf (c d : Request) : Prop :=
  ∃ m v uri hh ka idx, d = { c with
      trace := c.trace ++ [.logline c.lineAt], logline := true, method := m, httpVersion := v,
      requestUri := uri, headerHost := hh, keepalive := ka, cgiEnvIndex := idx } ∧
    (v = .http09 → ka = c.keepalive)

/-- `d` differs from `c` in fields that header lines fill. -/
def OptionOf (c d : Request) : Prop :=
  ∃ ct cl ka hh ims ref rs n ua ff ce idx, d = { c with
      contentType := ct, contentLength := cl, keepalive := ka, headerHost := hh,
      ifModifiedSince := ims, headerReferer := ref, ranges := rs, numranges := n,
      headerUserAgent := ua, headerForwardedFor := ff, cgiEnv := ce, cgiEnvIndex := idx }

/-- No range is kept that was not counted. -/
def Request.Counted (c : Request) : Prop := c.ranges.length ≤ c.numranges

lemma OptionOf.refl (c : Request) : OptionOf c c :=
  ⟨c.contentType, c.contentLength, c.keepalive, c.headerHost, c.ifModifiedSince, c.headerReferer,
    c.ranges, c.numranges, c.headerUserAgent, c.headerForwardedFor, c.cgiEnv, c.cgiEnvIndex, rfl⟩

lemma OptionOf.trans {c d e : Request} (h : OptionOf c d) (h' : OptionOf d e) : OptionOf c e := by
  obtain ⟨_, _, _, _, _, _, _, _, _, _, _, _, rfl⟩ := h
  obtain ⟨_, _, _, _, _, _, _, _, _, _, _, _, rfl⟩ := h'
  exact ⟨_, _, _, _, _, _, _, _, _, _, _, _, rfl⟩

/-- How a step of `process_option_line` ends: it took the line in, it returned 0
without an answer, or it refused. -/
def OptionEnd (c e : Request) (ok : Bool) : Prop :=
  ∃ d, OptionOf c d ∧ ((e = d ∧ (ok = true → c.Counted → d.Counted)) ∨ (ok = false ∧ Refused d e))

lemma OptionOf.ends {c d : Request} (h : OptionOf c d) (hc : c.Counted → d.Counted) (ok : Bool) :
    OptionEnd c d ok := ⟨d, h, .inl ⟨rfl, fun _ => hc⟩⟩

/-- Going on after a first part that refused nothing. -/
lemma OptionEnd.then {c d e : Request} {ok : Bool} (h : OptionOf c d) (hc : c.Counted → d.Counted)
    (h' : OptionEnd d e ok) : OptionEnd c e ok := by
  obtain ⟨f, hf, h'⟩ := h'
  refine ⟨f, h.trans hf, h'.imp (fun ⟨he, hk⟩ => ⟨he, fun hok hcc => hk hok (hc hcc)⟩) id⟩

namespace Request

lemma finishLogline_cases (env : Env) (c : Request) (version : Bytes) :
    ∃ v ka idx, (v = .http09 → ka = c.keepalive) ∧
      (c.finishLogline env version =
          ({ c with httpVersion := v, keepalive := ka, cgiEnvIndex := idx }, true) ∨
        ∃ e, c.finishLogline env version = (e, false) ∧
          Refused { c with httpVersion := v, keepalive := ka, cgiEnvIndex := idx } e) := by
  unfold finishLogline
  cases parseVersion version with
  | none =>
    exact ⟨c.httpVersion, c.keepalive, c.cgiEnvIndex, fun _ => rfl,
      .inr ⟨_, rfl, sendRBadRequest_refused env c⟩⟩
  | some v =>
    dsimp only
    have hka : v = .http09 → (if v = .http11 then .active else c.keepalive) = c.keepalive := by
      rintro rfl
      rfl
    generalize (if v = .http11 then .active else c.keepalive) = ka at hka
    split
    · exact ⟨v, ka, c.cgiEnvIndex, hka, .inr ⟨_, rfl, sendRBadRequest_refused env _⟩⟩
    · exact ⟨v, ka, _, hka, .inl rfl⟩

/-- `process_logline` takes the line in and then accepts or refuses it. -/
lemma processLogline_cases (env : Env) (c : Request) :
    ∃ d, LoglineOf c d ∧ (c.processLogline env = (d, true) ∨
      ∃ e, c.processLogline env = (e, false) ∧ Refused d e) := by
  unfold processLogline
  dsimp only
  split_ifs
  · exact ⟨_, ⟨c.method, c.httpVersion, c.requestUri, c.headerHost, c.keepalive, c.cgiEnvIndex, rfl,
      fun _ => rfl⟩, .inr ⟨_, rfl, sendRBadRequest_refused env _⟩⟩
  split
  · exact ⟨_, ⟨c.method, c.httpVersion, c.requestUri, c.headerHost, c.keepalive, c.cgiEnvIndex, rfl,
      fun _ => rfl⟩, .inr ⟨_, rfl, sendRNotImplemented_refused env _⟩⟩
  · next m _ =>
    generalize (List.drop (if m = .get then 4 else 5) c.lineAt).dropWhile (· = space) = rest
    unfold parseTarget
    dsimp only
    split_ifs
    · exact ⟨_, ⟨m, .http10, c.requestUri, c.headerHost, c.keepalive, c.cgiEnvIndex, rfl,
        fun _ => rfl⟩, .inr ⟨_, rfl, sendRBadRequest_refused env _⟩⟩
    split
    · obtain ⟨v, ka, idx, hv, h⟩ := finishLogline_cases env
        { (c.log (.logline c.lineAt)) with
          logline := true, method := m, httpVersion := .http10,
          requestUri := rest.takeWhile (· ≠ space) } (rest.dropWhile (· ≠ space))
      exact ⟨_, ⟨m, v, _, c.headerHost, ka, idx, rfl, hv⟩, h⟩
    · split
      · exact ⟨_, ⟨m, .http10, c.requestUri, c.headerHost, c.keepalive, c.cgiEnvIndex, rfl,
          fun _ => rfl⟩, .inr ⟨_, rfl, sendRBadRequest_refused env _⟩⟩
      · next host uri _ =>
        obtain ⟨v, ka, idx, hv, h⟩ := finishLogline_cases env
          { (c.log (.logline c.lineAt)) with
            logline := true, method := m, httpVersion := .http10,
            requestUri := uri, headerHost := some host } (rest.dropWhile (· ≠ space))
        exact ⟨_, ⟨m, v, uri, some host, ka, idx, rfl, hv⟩, h⟩

/-- `range_parse` counts the ranges it keeps, unless it aborts. -/
lemma rangeParse_spec (c : Request) (value : Bytes) :
    ∃ rs n, (c.rangeParse value).1 = { c with ranges := rs, numranges := n } ∧
      ((c.rangeParse value).2 = true → c.Counted → (c.rangeParse value).1.Counted) := by
  unfold rangeParse
  dsimp only
  split_ifs
  · exact ⟨c.ranges, c.numranges, rfl, by simp⟩
  · refine ⟨_, _, rfl, fun _ hc => ?_⟩
    simp only [Counted, List.length_append] at hc ⊢
    omega
  · exact ⟨_, _, rfl, by simp⟩

lemma addCgiEnv_spec (c : Request) (key value : Bytes) (b : Bool) :
    ∃ ce idx, (c.addCgiEnv key value b).1 = { c with cgiEnv := ce, cgiEnvIndex := idx } := by
  unfold addCgiEnv
  split_ifs
  · exact ⟨_, _, rfl⟩
  · exact ⟨c.cgiEnv, c.cgiEnvIndex, rfl⟩

lemma addCgiEnv_ends (c : Request) (key value : Bytes) (b ok : Bool) :
    OptionEnd c (c.addCgiEnv key value b).1 ok := by
  obtain ⟨ce, idx, he⟩ := addCgiEnv_spec c key value b
  rw [he]
  exact OptionOf.ends ⟨_, _, _, _, _, _, _, _, _, _, _, _, rfl⟩ (fun hc => hc) ok

/-- The `switch` either ends the line or goes on to `add_cgi_env`. -/
def SwitchEnd (c : Request) (r : Request × Option Bool) : Prop :=
  (∃ ok, r.2 = some ok ∧ OptionEnd c r.1 ok) ∨
    (r.2 = none ∧ OptionOf c r.1 ∧ (c.Counted → r.1.Counted))

lemma SwitchEnd.ite {c : Request} {p : Prop} [Decidable p] {r r' : Request × Option Bool}
    (h : SwitchEnd c r) (h' : SwitchEnd c r') : SwitchEnd c (if p then r else r') := by
  split_ifs
  · exact h
  · exact h'

lemma rangeOption_ends (env : Env) (c : Request) (value : Bytes) :
    SwitchEnd c (c.rangeOption env value) := by
  unfold rangeOption
  split
  · exact .inl ⟨true, rfl, (OptionOf.refl c).ends id true⟩
  · obtain ⟨rs, n, he, hc⟩ := rangeParse_spec c value
    have ho : OptionOf c { c with ranges := rs, numranges := n } :=
      ⟨_, _, _, _, _, _, _, _, _, _, _, _, rfl⟩
    split
    · next d hd =>
      rw [hd] at he
      obtain rfl : d = _ := he
      exact .inl ⟨false, rfl, _, ho, .inr ⟨rfl, sendRInvalidRange_refused env _⟩⟩
    · next d hd =>
      rw [hd] at he hc
      obtain rfl : d = _ := he
      exact .inr ⟨rfl, ho, hc rfl⟩

lemma refererOption_ends (c : Request) (value : Bytes) :
    SwitchEnd c (match { c with headerReferer := some value }.addCgiEnv (text "REFERER") value true with
      | (c, false) => (c, some false)
      | (c, true) => (c, none)) := by
  obtain ⟨ce, idx, he⟩ := addCgiEnv_spec { c with headerReferer := some value }
    (text "REFERER") value true
  have ho : OptionOf c { c with headerReferer := some value, cgiEnv := ce, cgiEnvIndex := idx } :=
    ⟨_, _, _, _, _, _, _, _, _, _, _, _, rfl⟩
  split
  · next d hd =>
    rw [hd] at he
    obtain rfl : d = _ := he
    exact .inl ⟨false, rfl, ho.ends id false⟩
  · next d hd =>
    rw [hd] at he
    obtain rfl : d = _ := he
    exact .inr ⟨rfl, ho, id⟩

lemma optionSwitch_ends (env : Env) (c : Request) (key value : Bytes) :
    SwitchEnd c (c.optionSwitch env key value) := by
  have hfield : ∀ d : Request, OptionOf c d → (c.Counted → d.Counted) → SwitchEnd c (d, some true) :=
    fun d hd hc => .inl ⟨true, rfl, hd.ends hc true⟩
  have hagent : OptionOf c { c with headerUserAgent := some value } :=
    ⟨_, _, _, _, _, _, _, _, _, _, _, _, rfl⟩
  unfold optionSwitch
  refine .ite (hfield c (.refl c) id) ?_
  iterate 5
    refine .ite (hfield _ ⟨_, _, _, _, _, _, _, _, _, _, _, _, rfl⟩ id) ?_
  refine .ite (refererOption_ends c value) (.ite (rangeOption_ends env c value) (.ite ?_ (.ite ?_ ?_)))
  · exact .inl ⟨_, rfl, OptionEnd.then hagent id (addCgiEnv_ends _ _ _ _ _)⟩
  · exact hfield _ ⟨_, _, _, _, _, _, _, _, _, _, _, _, rfl⟩ id
  · exact .inr ⟨rfl, .refl c, id⟩

/-- `process_option_line` takes the line in, gives up or refuses. -/
lemma processOptionLine_ends (env : Env) (c : Request) :
    OptionEnd (c.log (.optionLine c.lineAt)) (c.processOptionLine env).1
      (c.processOptionLine env).2 := by
  unfold processOptionLine
  dsimp only
  generalize c.log (.optionLine c.lineAt) = d
  split
  · exact (OptionOf.refl d).ends id false
  · next v _ =>
    split_ifs
    · exact (OptionOf.refl d).ends id true
    · generalize toUpper _ = key
      generalize List.dropWhile _ v = value
      have hs := optionSwitch_ends env d key value
      generalize d.optionSwitch env key value = r at hs
      obtain ⟨e, o⟩ := r
      rcases hs with ⟨ok, h1, h2⟩ | ⟨h1, h2, h3⟩
      · cases h1
        exact h2
      · cases h1
        exact OptionEnd.then h2 h3 (addCgiEnv_ends _ _ _ _ _)

end Request
/-- All that one round of the loop of `read_header` can do with the byte `uc`. -/
inductive ByteStep (env : Env) (c : Request) (uc : UInt8) : Request → Option Ret → Prop
  | illegal {d : Request} (hi : illegalChar uc)
      (hd : Refused (c.log (.reject (.illegalChar uc))) d) : ByteStep env c uc d (some .done)
  | skip (hi : illegalChar uc = false) (h1 : (c.advance uc).status ≠ .oneLf)
      (h2 : (c.advance uc).status ≠ .bodyRead) : ByteStep env c uc (c.advance uc) none
  | tooLong {d : Request} (hi : illegalChar uc = false) (hs : (c.advance uc).status = .oneLf)
      (hl : maxHeaderLength ≤ (c.advance uc).terminateLine.lineLength)
      (hd : Refused ((c.advance uc).terminateLine.log
        (.reject (.headerTooLong (c.advance uc).terminateLine.lineLength))) d) :
      ByteStep env c uc d (some .done)
  | option {d : Request} (hi : illegalChar uc = false) (hs : (c.advance uc).status = .oneLf)
      (hl : c.logline = true)
      (hd : OptionOf ((c.advance uc).terminateLine.log
        (.optionLine (c.advance uc).terminateLine.lineAt)) d)
      (hc : c.Counted → d.Counted) : ByteStep env c uc d.startLine none
  | optionStop {d : Request} (hi : illegalChar uc = false) (hs : (c.advance uc).status = .oneLf)
      (hl : c.logline = true)
      (hd : OptionEnd ((c.advance uc).terminateLine.log
        (.optionLine (c.advance uc).terminateLine.lineAt)) d false) :
      ByteStep env c uc d (some .done)
  | logline {d : Request} (hi : illegalChar uc = false) (hs : (c.advance uc).status = .oneLf)
      (hl : c.logline = false) (hd : LoglineOf (c.advance uc).terminateLine d)
      (hv : d.httpVersion ≠ .http09) : ByteStep env c uc d.startLine none
  | loglineStop {d e : Request} (hi : illegalChar uc = false)
      (hs : (c.advance uc).status = .oneLf) (hl : c.logline = false)
      (hd : LoglineOf (c.advance uc).terminateLine d) (he : Refused d e) :
      ByteStep env c uc e (some .done)
  | short {d : Request} (hi : illegalChar uc = false) (hs : (c.advance uc).status = .oneLf)
      (hl : c.logline = false) (hd : LoglineOf (c.advance uc).terminateLine d)
      (hv : d.httpVersion = .http09) :
      ByteStep env c uc (d.processHeaderEnd env).1 (some (d.processHeaderEnd env).2)
  | finish (hi : illegalChar uc = false) (hs : (c.advance uc).status = .bodyRead) :
      ByteStep env c uc ((c.advance uc).endHeader env).1 (some ((c.advance uc).endHeader env).2)

namespace Request

lemma endLine_step {env : Env} {c : Request} {uc : UInt8} (hi : illegalChar uc = false)
    (hs : (c.advance uc).status = .oneLf) :
    ByteStep env c uc ((c.advance uc).endLine env).1 ((c.advance uc).endLine env).2 := by
  unfold endLine
  dsimp only
  have hlog : (c.advance uc).terminateLine.logline = c.logline := rfl
  split_ifs with h1 h2
  · exact .tooLong hi hs h1 (sendRBadRequest_refused env _)
  · have he := processOptionLine_ends env (c.advance uc).terminateLine
    split
    · next d hd =>
      rw [hd] at he
      exact .optionStop hi hs (hlog ▸ h2) he
    · next d hd =>
      rw [hd] at he
      obtain ⟨f, hf, ⟨rfl, hc⟩ | ⟨h0, -⟩⟩ := he
      · exact .option hi hs (hlog ▸ h2) hf (fun h => hc rfl h)
      · cases h0
  · have h2 : c.logline = false := by simpa [hlog] using h2
    obtain ⟨d, hd, he | ⟨e, he, hr⟩⟩ := processLogline_cases env (c.advance uc).terminateLine
    · rw [he]
      dsimp only
      split_ifs with hv
      · exact .short hi hs h2 hd hv
      · exact .logline hi hs h2 hd hv
    · rw [he]
      exact .loglineStop hi hs h2 hd hr

/-- `ByteStep` covers `headerByte`. -/
lemma headerByte_step (env : Env) (c : Request) (uc : UInt8) :
    ByteStep env c uc (c.headerByte env uc).1 (c.headerByte env uc).2 := by
  unfold headerByte
  split_ifs with h1
  · exact .illegal h1 (sendRBadRequest_refused env _)
  · have hi : illegalChar uc = false := by simpa using h1
    dsimp only
    split_ifs with h2 h3
    · exact endLine_step hi h2
    · exact .finish hi h3
    · exact .skip hi h2 h3

/-- The end of the header block: `process_header_end`, then the body of a POST. -/
lemma endHeader_cases (env : Env) (c : Request) :
    ((c.processHeaderEnd env).1.method ≠ .post ∧ c.endHeader env = c.processHeaderEnd env) ∨
    ((c.processHeaderEnd env).2 = .done ∧ c.endHeader env = c.processHeaderEnd env) ∨
    ((c.processHeaderEnd env).2 ≠ .done ∧ (c.processHeaderEnd env).1.method = .post ∧
      c.endHeader env = (c.processHeaderEnd env).1.startBody env) := by
  unfold endHeader
  obtain ⟨d, r⟩ := c.processHeaderEnd env
  cases r <;> dsimp only <;> by_cases hm : d.method = .post <;> simp [hm]

/-- The set-up of a POST body: an error response, or a window of the stream. -/
lemma startBody_cases (env : Env) (c : Request) :
    ∃ hl he size pos, let d : Request := { c with
        headerLine := hl, headerEnd := he, status := .bodyWrite, filesize := size, filepos := pos }
      (c.startBody env = (d, .more)) ∨ ∃ e, c.startBody env = (e, .done) ∧ Refused d e := by
  unfold startBody
  dsimp only
  split
  · exact ⟨_, _, c.filesize, c.filepos, .inr ⟨_, rfl, sendRBadRequest_refused env _⟩⟩
  · split_ifs
    · exact ⟨_, _, c.filesize, c.filepos, .inr ⟨_, rfl, sendRBadRequest_refused env _⟩⟩
    · exact ⟨_, _, _, _, .inl rfl⟩
    · exact ⟨_, _, _, _, .inl rfl⟩

end Request
end Boa
