import Boa.Environment
import Boa.Post

/-! What a request has been told: its request line, and the header lines that end up in the
environment of a script. -/
namespace Boa
open Memory History

def Event.logline? : Event → Option Bytes
  | .logline line => some line
  | _ => none

def Event.optionLine? : Event → Option Bytes
  | .optionLine line => some line
  | _ => none

def loglines (t : List Event) : List Bytes := t.filterMap Event.logline?

def optionLines (t : List Event) : List Bytes := t.filterMap Event.optionLine?

/-- Not a line of the header. -/
def Event.unlined (e : Event) : Prop := e.logline? = none ∧ e.optionLine? = none

lemma Event.unlined_of_locating {c : Request} {e : Event} (h : e.locating c) : e.unlined := by
  cases e <;> first | exact ⟨rfl, rfl⟩ | exact h.elim

lemma lines_adds {t t' : List Event} (h : Adds Event.unlined t t') :
    loglines t' = loglines t ∧ optionLines t' = optionLines t := by
  obtain ⟨es, rfl, hes⟩ := h
  have h1 : es.filterMap Event.logline? = [] := List.filterMap_eq_nil_iff.mpr fun e he => (hes e he).1
  have h2 : es.filterMap Event.optionLine? = [] := List.filterMap_eq_nil_iff.mpr fun e he => (hes e he).2
  unfold loglines optionLines
  rw [List.filterMap_append, List.filterMap_append, h1, h2, List.append_nil, List.append_nil]
  exact ⟨rfl, rfl⟩

/-- The first value that the lines give for a name. -/
def firstValue (name : Bytes) (lines : List Bytes) : Option Bytes := lines.findSome? (lineValue name)

lemma firstValue_snoc (name : Bytes) (lines : List Bytes) (line : Bytes) :
    firstValue name (lines ++ [line]) = (firstValue name lines).or (lineValue name line) := by
  unfold firstValue
  rw [List.findSome?_append, List.findSome?_singleton]

/-- The target of a request line, without a host in front. -/
def targetUri (target : Bytes) : Option Bytes :=
  match absoluteUrl target with
  | none => some target
  | some s => (splitHost s).map Prod.snd

/-- What a request line asks for: the method, the version and the URI. -/
def askedFor (line : Bytes) : Option (Method × Version × Bytes) :=
  (Request.lineMethod line).bind fun m =>
    let rest := (line.drop (if m = .get then 4 else 5)).dropWhile (· = space)
    (targetUri (rest.takeWhile (· ≠ space))).bind fun uri =>
      (parseVersion (rest.dropWhile (· ≠ space))).map fun v => (m, v, uri)

/-- What `process_header_end` makes of a URI that it accepts. -/
def acceptedUri (cfg : Config) (uri : Bytes) : Bytes :=
  if cfg.useCaudiumHack then stripCaudium (cleanPathname (unescapeUri uri).1)
  else cleanPathname (unescapeUri uri).1

namespace Request

lemma finishLogline_asked {env : Env} {c : Request} {version : Bytes}
    (h : (c.finishLogline env version).2 = true) :
    parseVersion version = some (c.finishLogline env version).1.httpVersion ∧
      (c.finishLogline env version).1.method = c.method ∧
      (c.finishLogline env version).1.requestUri = c.requestUri := by
  unfold finishLogline at h ⊢
  split at h
  · cases h
  · next v hv =>
    dsimp only at h ⊢
    split_ifs at h ⊢ <;> exact ⟨hv, rfl, rfl⟩

lemma parseTarget_asked {env : Env} {c : Request} {rest : Bytes} (h : (c.parseTarget env rest).2 = true) :
    targetUri (rest.takeWhile (· ≠ space)) = some (c.parseTarget env rest).1.requestUri ∧
      parseVersion (rest.dropWhile (· ≠ space)) = some (c.parseTarget env rest).1.httpVersion ∧
      (c.parseTarget env rest).1.method = c.method := by
  unfold parseTarget at h ⊢
  unfold targetUri
  dsimp only at h ⊢
  split_ifs at h ⊢
  cases hurl : absoluteUrl (rest.takeWhile (· ≠ space)) with
  | none =>
    rw [hurl] at h
    obtain ⟨h1, h2, h3⟩ := finishLogline_asked h
    exact ⟨congrArg some h3.symm, h1, h2⟩
  | some s =>
    rw [hurl] at h
    dsimp only at h ⊢
    cases hsplit : splitHost s with
    | none =>
      rw [hsplit] at h
      cases h
    | some p =>
      rw [hsplit] at h
      obtain ⟨h1, h2, h3⟩ := finishLogline_asked h
      exact ⟨congrArg some h3.symm, h1, h2⟩

lemma processLogline_asked {env : Env} {c : Request} (h : (c.processLogline env).2 = true) :
    askedFor c.lineAt = some ((c.processLogline env).1.method, (c.processLogline env).1.httpVersion,
      (c.processLogline env).1.requestUri) := by
  unfold processLogline at h ⊢
  dsimp only at h ⊢
  split at h
  · cases h
  · next hlen =>
    rw [if_neg hlen]
    unfold askedFor
    cases hm : lineMethod c.lineAt with
    | none =>
      rw [hm] at h
      cases h
    | some m =>
      rw [hm] at h
      obtain ⟨h1, h2, h3⟩ := parseTarget_asked h
      rw [Option.bind_some]
      dsimp only
      rw [h1, h2, h3]
      rfl

lemma acceptUri_uri {env : Env} {c u : Request} (h : c.acceptUri env = (u, true)) :
    ∃ query host, u = { c with
      requestUri := acceptedUri env.cfg c.requestUri, queryString := query, host := host } := by
  have hhost : ∀ d : Request, d.acceptHost env = (u, true) → ∃ host, u = { d with host := host } := by
    intro d hd
    obtain ⟨host, he | ⟨e, he, -⟩⟩ := acceptHost_cases env d
    · rw [he] at hd
      exact ⟨host, (Prod.mk.inj hd).1.symm⟩
    · rw [he] at hd
      cases (Prod.mk.inj hd).2
  unfold acceptUri at h
  split at h
  · cases (Prod.mk.inj h).2
  unfold acceptedUri
  generalize unescapeUri c.requestUri = p at h ⊢
  obtain ⟨uri, query, legal⟩ := p
  dsimp only at h
  split at h
  · cases (Prod.mk.inj h).2
  split at h
  · cases (Prod.mk.inj h).2
  obtain ⟨host, rfl⟩ := hhost _ h
  refine ⟨query.or c.queryString, host, ?_⟩
  split_ifs <;> rfl

end Request

/-! ### The request and its array -/

/-- The request line and some header lines of `c` were taken in, and its URI was cleaned `k`
times: the array has a variable for the client wherever it has one behind the common ones. -/
structure Told (cfg : Config) (k : ℕ) (c : Request) : Prop where
  asked : ∃ line uri, loglines c.trace = [line] ∧
    askedFor line = some (c.method, c.httpVersion, uri) ∧ c.requestUri = (acceptedUri cfg)^[k] uri
  vars : ∃ es : List Bytes, c.cgiEnvIndex = cfg.commonCgiEnv.length + es.length ∧
    (∀ i, i < es.length → c.envCell (cfg.commonCgiEnv.length + i) = es[i]?) ∧ ∀ e ∈ es, isHttp e
  room : c.cgiEnvIndex ≤ cgiEnvMax
  type : c.contentType = firstValue (text "CONTENT_TYPE") (optionLines c.trace)
  length : c.contentLength = firstValue (text "CONTENT_LENGTH") (optionLines c.trace)

/-- No line of the header was taken in. -/
structure Blank (c : Request) : Prop where
  first : loglines c.trace = []
  others : optionLines c.trace = []
  type : c.contentType = none
  length : c.contentLength = none

/-- What the two depend on. -/
def Request.said (c : Request) :=
  (loglines c.trace, optionLines c.trace, c.method, c.httpVersion, c.requestUri, c.cgiEnv, c.cgiEnvIndex,
    c.contentType, c.contentLength)

section Header

variable {cfg : Config} {k : ℕ} {env : Env} {c d : Request}

lemma Told.congr (h : Told cfg k c) (he : d.said = c.said) : Told cfg k d := by
  simp only [Request.said, Prod.mk.injEq] at he
  obtain ⟨h1, h2, h3, h4, h5, h6, h7, h8, h9⟩ := he
  have hcell : ∀ i, d.envCell i = c.envCell i := fun i => by rw [Request.envCell, h6]; rfl
  constructor
  · rw [h1, h3, h4, h5]
    exact h.asked
  · simp only [hcell, h7]
    exact h.vars
  · rw [h7]
    exact h.room
  · rw [h8, h2]
    exact h.type
  · rw [h9, h2]
    exact h.length

lemma Blank.congr (h : Blank c) (he : d.said = c.said) : Blank d := by
  simp only [Request.said, Prod.mk.injEq] at he
  obtain ⟨h1, h2, -, -, -, -, -, h8, h9⟩ := he
  exact ⟨h1.trans h.first, h2.trans h.others, h8.trans h.type, h9.trans h.length⟩

/-- The request line. -/
lemma Blank.logline (h : Blank c) (hcfg : env.cfg = cfg) (hcommon : cfg.commonCgiEnv.length ≤ cgiEnvMax)
    (hr : (c.processLogline env).2 = true) : Told cfg 0 (c.processLogline env).1 := by
  obtain ⟨-, hindex⟩ := Request.processLogline_array env c hr
  have hasked := Request.processLogline_asked hr
  rw [hcfg] at hindex
  obtain ⟨e, he, hd | ⟨f, hf, -⟩⟩ := Request.processLogline_cases env c
  · have htrace : e.trace = c.trace ++ [.logline c.lineAt] ∧ e.contentType = c.contentType ∧
        e.contentLength = c.contentLength := by
      obtain ⟨_, _, _, _, _, _, rfl, -⟩ := he
      exact ⟨rfl, rfl, rfl⟩
    rw [hd] at hindex hasked ⊢
    have hlog : loglines e.trace = [c.lineAt] := by
      rw [htrace.1, loglines, List.filterMap_append, show c.trace.filterMap Event.logline? = [] from h.first]
      rfl
    have hopt : optionLines e.trace = [] := by
      rw [htrace.1, optionLines, List.filterMap_append,
        show c.trace.filterMap Event.optionLine? = [] from h.others]
      rfl
    refine ⟨⟨c.lineAt, e.requestUri, hlog, hasked, rfl⟩, ⟨[], hindex, fun i hi => absurd hi (Nat.not_lt_zero i),
      fun x hx => absurd hx List.not_mem_nil⟩, hindex.trans_le hcommon, ?_, ?_⟩
    · rw [hopt]
      exact htrace.2.1.trans h.type
    · rw [hopt]
      exact htrace.2.2.trans h.length
  · rw [hf] at hr
    cases hr

/-- A header line. -/
lemma Told.optionLine (h : Told cfg k c) (env : Env) (hr : (c.processOptionLine env).2 = true) :
    Told cfg k (c.processOptionLine env).1 := by
  obtain ⟨⟨es', hadd, hes'⟩, htype, hlen⟩ := Request.processOptionLine_env env c
  obtain ⟨e, he, ⟨hd, -⟩ | ⟨hf, -⟩⟩ := Request.processOptionLine_ends env c
  · have hsame : e.trace = c.trace ++ [.optionLine c.lineAt] ∧ e.method = c.method ∧
        e.httpVersion = c.httpVersion ∧ e.requestUri = c.requestUri := by
      obtain ⟨_, _, _, _, _, _, _, _, _, _, _, _, rfl⟩ := he
      exact ⟨rfl, rfl, rfl, rfl⟩
    obtain ⟨h1, h2, h3, h4⟩ := hsame
    rw [hd] at hadd htype hlen ⊢
    have hlog : loglines e.trace = loglines c.trace := by
      rw [h1, loglines, List.filterMap_append]
      exact List.append_nil _
    have hopt : optionLines e.trace = optionLines c.trace ++ [c.lineAt] := by
      rw [h1, optionLines, List.filterMap_append]
      rfl
    obtain ⟨es, hindex, hcells, hes⟩ := h.vars
    have hend := hadd.index
    refine ⟨?_, ⟨es ++ es', ?_, fun i hi => ?_, fun x hx => ?_⟩, hadd.room h.room, ?_, ?_⟩
    · rw [hlog, h2, h3, h4]
      exact h.asked
    · rw [List.length_append]
      omega
    · rw [List.length_append] at hi
      rw [hadd.cells]
      by_cases hlt : i < es.length
      · rw [if_neg (by omega), List.getElem?_append_left hlt]
        exact hcells i hlt
      · rw [if_pos (by omega), List.getElem?_append_right (by omega)]
        congr 1
        omega
    · exact (List.mem_append.mp hx).elim (hes x) (hes' x)
    · rw [htype, hopt, firstValue_snoc, h.type]
    · rw [hlen, hopt, firstValue_snoc, h.length]
  · rw [hf] at hr
    cases hr

/-- The path of the request was found. -/
lemma Told.located {u : Request} (h : Told cfg k c) (hcfg : env.cfg = cfg)
    (hu : (c.log .headerEnd).acceptUri env = (u, true)) (hd : u.translateUri env = (d, true)) :
    Told cfg (k + 1) d ∧ d.method = c.method ∧ d.httpVersion = c.httpVersion := by
  obtain ⟨query, host, rfl⟩ := Request.acceptUri_uri hu
  rcases Request.translateUri_translated env _ with ⟨-, hl⟩ | ⟨hr, -⟩
  · rw [hd] at hl
    obtain ⟨es, ct, pn, sn, pi, pt, rfl, hes⟩ := hl
    have hadds : Adds Event.unlined c.trace (c.trace ++ ([.headerEnd] ++ es)) := ⟨_, rfl, fun e he => by
      obtain he | he := List.mem_append.mp he
      · rw [List.mem_singleton.mp he]
        exact ⟨rfl, rfl⟩
      · exact Event.unlined_of_locating (hes e he)⟩
    obtain ⟨h1, h2⟩ := lines_adds hadds
    rw [← List.append_assoc] at h1 h2
    obtain ⟨line, uri, hline, hasked, huri⟩ := h.asked
    refine ⟨⟨⟨line, uri, h1.trans hline, hasked, ?_⟩, h.vars, h.room, ?_, ?_⟩, rfl, rfl⟩
    · rw [Function.iterate_succ_apply', ← huri, ← hcfg]
      rfl
    · exact h.type.trans (by rw [← h2]; rfl)
    · exact h.length.trans (by rw [← h2]; rfl)
  · rw [hd] at hr
    cases hr

lemma said_log {e : Event} (he : e.unlined) : (c.log e).said = c.said := by
  have hadds : Adds Event.unlined c.trace (c.trace ++ [e]) := .snoc he
  obtain ⟨h1, h2⟩ := lines_adds hadds
  show (loglines (c.trace ++ [e]), optionLines (c.trace ++ [e]), _, _, _, _, _, _, _) = c.said
  rw [h1, h2]
  rfl

lemma openPostFile_said (h : (c.openPostFile env).2 ≠ .done) : (c.openPostFile env).1.said = c.said := by
  have hset : (c.setPostDataFd env.tempFd).said = c.said := by
    unfold Request.setPostDataFd
    split_ifs
    · exact said_log ⟨rfl, rfl⟩
    · rfl
  unfold Request.openPostFile at h ⊢
  generalize c.setPostDataFd env.tempFd = d at h hset ⊢
  dsimp only at h ⊢
  split_ifs at h ⊢
  · exact absurd rfl h
  · exact absurd rfl h
  · exact (said_log ⟨rfl, rfl⟩).trans hset

/-- The fields that tell requests apart, which `process_header_end` keeps. -/
lemma processHeaderEnd_kept (env : Env) (h0 : c.bufferStart = 0) : (c.processHeaderEnd env).1.method = c.method ∧
    (c.processHeaderEnd env).1.httpVersion = c.httpVersion ∧
    (c.processHeaderEnd env).1.logline = c.logline := by
  have hcon := Request.processHeaderEnd_concluded (S := False) env c h0
  obtain ⟨-, -, -, h1, h2, -, h3, -⟩ := Request.of_kept (Request.of_fixed hcon.fixed).1
  exact ⟨h1, h2, h3⟩

/-- The end of the header of a POST. -/
lemma Told.headerEnd (h : Told cfg k c) (hcfg : env.cfg = cfg)
    (hm : c.method = .post) (hr : (c.processHeaderEnd env).2 ≠ .done) :
    Told cfg (k + 1) (c.processHeaderEnd env).1 := by
  unfold Request.processHeaderEnd at hr ⊢
  cases hu : (c.log .headerEnd).acceptUri env with
  | mk u ok =>
    rw [hu] at hr
    cases ok with
    | false => exact absurd rfl hr
    | true =>
      dsimp only at hr ⊢
      unfold Request.dispatchUri at hr ⊢
      cases hd : u.translateUri env with
      | mk d ok =>
        rw [hd] at hr
        cases ok with
        | false => exact absurd rfl hr
        | true =>
          obtain ⟨ht, hmethod, -⟩ := h.located hcfg hu hd
          have hpost : d.method = .post := hmethod.trans hm
          simp only [hpost, if_true] at hr ⊢
          exact ht.congr (openPostFile_said hr)

lemma acceptUri_logline (h : (c.acceptUri env).2 = true) : c.logline = true := by
  by_contra hl
  unfold Request.acceptUri at h
  rw [Bool.eq_false_iff.mpr hl] at h
  cases h

lemma processHeaderEnd_logline (h : (c.processHeaderEnd env).2 ≠ .done) : c.logline = true := by
  by_contra hl
  refine h ?_
  have hfalse : ((c.log .headerEnd).acceptUri env).2 = false :=
    Bool.eq_false_iff.mpr fun ht => hl (acceptUri_logline (c := c.log .headerEnd) ht)
  unfold Request.processHeaderEnd
  cases hu : (c.log .headerEnd).acceptUri env with
  | mk u ok =>
    rw [hu] at hfalse
    cases ok with
    | false => rfl
    | true => cases hfalse

/-- Where a request is in its header or its body, with what it was told until then. -/
structure Hears (cfg : Config) (c : Request) : Prop where
  blank : c.status.inHeader → c.logline = false → Blank c
  head : c.status.inHeader → c.logline = true →
    Told cfg (if c.httpVersion = .http09 then 1 else 0) c ∧ (c.httpVersion = .http09 → c.method = .post)
  body : c.status = .bodyRead ∨ c.status = .bodyWrite →
    Told cfg (if c.httpVersion = .http09 then 2 else 1) c ∧ c.method = .post

lemma Hears.of_late (hs : 6 ≤ c.status.rank) : Hears cfg c := by
  refine ⟨fun hin => ?_, fun hin => ?_, fun hb => ?_⟩
  · exact absurd (Status.inHeader_iff.mp hin) (by omega)
  · exact absurd (Status.inHeader_iff.mp hin) (by omega)
  · obtain hb | hb := hb
    · rw [hb] at hs
      exact absurd hs (by decide)
    · rw [hb] at hs
      exact absurd hs (by decide)

lemma Hears.congr (h : Hears cfg c) (hs : d.status = c.status) (hl : d.logline = c.logline)
    (he : d.said = c.said) : Hears cfg d := by
  have hfields := he
  simp only [Request.said, Prod.mk.injEq] at hfields
  obtain ⟨-, -, hm, hv, -⟩ := hfields
  refine ⟨fun hin hlog => ?_, fun hin hlog => ?_, fun hb => ?_⟩
  · exact (h.blank (hs ▸ hin) (hl ▸ hlog)).congr he
  · obtain ⟨h1, h2⟩ := h.head (hs ▸ hin) (hl ▸ hlog)
    rw [hv, hm]
    exact ⟨h1.congr he, h2⟩
  · obtain ⟨h1, h2⟩ := h.body (hs ▸ hb)
    rw [hv, hm]
    exact ⟨h1.congr he, h2⟩

/-- A request that still reads its header behind an HTTP/1 request line. -/
lemma Hears.of_header (hs : c.status.inHeader) (hl : c.logline = true)
    (h : Told cfg (if c.httpVersion = .http09 then 1 else 0) c)
    (hv : c.httpVersion = .http09 → c.method = .post) : Hears cfg c := by
  refine ⟨fun _ hlog => absurd (hl.symm.trans hlog) nofun, fun _ _ => ⟨h, hv⟩, fun hb => ?_⟩
  obtain hb | hb := hb
  · rw [hb] at hs
    exact absurd hs (by decide)
  · rw [hb] at hs
    exact absurd hs (by decide)

/-- A step within the header that takes in no line. -/
lemma Hears.reading (h : Hears cfg c) (hc : c.status.inHeader) (hd : d.status.inHeader)
    (hl : d.logline = c.logline) (he : d.said = c.said) : Hears cfg d := by
  have hfields := he
  simp only [Request.said, Prod.mk.injEq] at hfields
  obtain ⟨-, -, hm, hv, -⟩ := hfields
  refine ⟨fun _ hlog => (h.blank hc (hl ▸ hlog)).congr he, fun _ hlog => ?_, fun hb => ?_⟩
  · obtain ⟨h1, h2⟩ := h.head hc (hl ▸ hlog)
    rw [hv, hm]
    exact ⟨h1.congr he, h2⟩
  · obtain hb | hb := hb
    · rw [hb] at hd
      exact absurd hd (by decide)
    · rw [hb] at hd
      exact absurd hd (by decide)

/-- The end of the header block. -/
lemma endHeader_hears (hcfg : env.cfg = cfg) (h0 : c.bufferStart = 0)
    (h : c.logline = true → Told cfg (if c.httpVersion = .http09 then 1 else 0) c)
    (hr : (c.endHeader env).2 ≠ .done) : Hears cfg (c.endHeader env).1 := by
  have hcon := Request.processHeaderEnd_concluded (S := False) env c h0
  obtain ⟨hm, he⟩ | ⟨hd, he⟩ | ⟨hn, hm, he⟩ := Request.endHeader_cases env c
  · rw [he] at hr ⊢
    obtain ⟨hlate, -⟩ | ⟨-, hpost, -⟩ := hcon.next hr
    · exact .of_late hlate
    · exact absurd hpost hm
  · rw [he] at hr
    exact absurd hd hr
  · rw [he] at hr ⊢
    obtain ⟨hmethod, hversion, -⟩ := processHeaderEnd_kept env h0
    have htold := (h (processHeaderEnd_logline hn)).headerEnd hcfg (hmethod.symm.trans hm) hn
    obtain ⟨hl, hend, size, pos, hb | ⟨e, hb, hrefuse⟩⟩ := Request.startBody_cases env (c.processHeaderEnd env).1
    · rw [hb]
      refine ⟨fun hin => absurd hin (show ¬ Status.bodyWrite.inHeader by decide),
        fun hin => absurd hin (show ¬ Status.bodyWrite.inHeader by decide), fun _ => ⟨?_, hm⟩⟩
      refine Told.congr (c := (c.processHeaderEnd env).1) ?_ rfl
      rw [show Request.httpVersion _ = c.httpVersion from hversion]
      split_ifs at htold ⊢ <;> exact htold
    · rw [hb] at hr
      exact absurd rfl hr

/-- The end of a line. -/
lemma endLine_hears (hcfg : env.cfg = cfg) (hcommon : cfg.commonCgiEnv.length ≤ cgiEnvMax)
    (h0 : c.bufferStart = 0) (hs : c.status = .oneLf) (h : Hears cfg c)
    (hr : (c.endLine env).2 ≠ some .done) : Hears cfg (c.endLine env).1 := by
  have hin : Status.oneLf.inHeader := by decide
  have hterm : Hears cfg c.terminateLine := h.congr rfl rfl rfl
  unfold Request.endLine at hr ⊢
  generalize hd : c.terminateLine = d at hterm hr ⊢
  have hst : d.status = .oneLf := by rw [← hd]; exact hs
  have hbuf : d.bufferStart = 0 := by rw [← hd]; exact h0
  dsimp only at hr ⊢
  split_ifs at hr ⊢ with hlong hlog
  · exact absurd rfl hr
  · obtain ⟨htold, hpost⟩ := hterm.head (by rw [hst]; exact hin) hlog
    have hline := htold.optionLine env
    obtain ⟨e, he, hcase⟩ := Request.processOptionLine_ends env d
    have hkeep : e.status = d.status ∧ e.logline = d.logline ∧ e.httpVersion = d.httpVersion ∧
        e.method = d.method := by
      obtain ⟨_, _, _, _, _, _, _, _, _, _, _, _, rfl⟩ := he
      exact ⟨rfl, rfl, rfl, rfl⟩
    generalize d.processOptionLine env = r at hline hcase hr ⊢
    obtain ⟨f, ok⟩ := r
    cases ok with
    | false => exact absurd rfl hr
    | true =>
      obtain ⟨rfl, -⟩ | ⟨hf, -⟩ := hcase
      · obtain ⟨h1, h2, h3, h4⟩ := hkeep
        refine Hears.congr (c := f) (.of_header ?_ (h2.trans hlog) ?_ ?_) rfl rfl rfl
        · rw [h1, hst]
          exact hin
        · rw [h3]
          exact hline rfl
        · rw [h3, h4]
          exact hpost
      · cases hf
  · have hlog : d.logline = false := by simpa using hlog
    have hblank := hterm.blank (by rw [hst]; exact hin) hlog
    have hline := hblank.logline hcfg hcommon
    obtain ⟨e, he, hcase⟩ := Request.processLogline_cases env d
    have hkeep : e.status = d.status ∧ e.logline = true ∧ e.bufferStart = d.bufferStart := by
      obtain ⟨_, _, _, _, _, _, rfl, -⟩ := he
      exact ⟨rfl, rfl, rfl⟩
    obtain ⟨h1, h2, h3⟩ := hkeep
    obtain hcase | ⟨f, hcase, -⟩ := hcase
    · rw [hcase] at hline hr ⊢
      have htold : Told cfg 0 e := hline rfl
      dsimp only at hr ⊢
      split_ifs at hr ⊢ with hv
      · -- HTTP/0.9: the header is at its end, but a POST stays in it
        have hstart : e.bufferStart = 0 := h3.trans hbuf
        have hr : (e.processHeaderEnd env).2 ≠ .done := fun hd => hr (congrArg some hd)
        obtain ⟨hmethod, hversion, hlogline⟩ := processHeaderEnd_kept env hstart
        obtain ⟨hlate, -⟩ | ⟨-, hpost, hstatus, -⟩ :=
          (Request.processHeaderEnd_concluded (S := False) env e hstart).next hr
        · exact .of_late hlate
        · have hend := htold.headerEnd hcfg (hmethod.symm.trans hpost) hr
          refine .of_header ?_ (hlogline.trans h2) ?_ fun _ => hpost
          · rw [hstatus, show (e.log .headerEnd).status = .oneLf from h1.trans hst]
            exact hin
          · rw [if_pos (hversion.trans hv)]
            exact hend
      · refine Hears.congr (c := e) (.of_header ?_ h2 ?_ fun h => absurd h hv) rfl rfl rfl
        · rw [h1, hst]
          exact hin
        · rw [if_neg hv]
          exact htold
    · rw [hcase] at hr
      exact absurd rfl hr

open Request in
/-- The loop of `read_header`. -/
lemma scanHeader_hears (hcfg : env.cfg = cfg) (hcommon : cfg.commonCgiEnv.length ≤ cgiEnvMax) (bs : Bytes)
    {c : Request} (hp : Parsing False c) (h : Hears cfg c) (hr : (scanHeader env c bs).2 ≠ some .done) :
    Hears cfg (scanHeader env c bs).1 := by
  induction bs generalizing c with
  | nil => exact h
  | cons uc bs ih =>
    have hended := (headerByte_step env c uc).ended hp
    have hbyte : (c.headerByte env uc).2 ≠ some .done → Hears cfg (c.headerByte env uc).1 := by
      intro hr
      unfold headerByte at hr ⊢
      dsimp only at hr ⊢
      split_ifs at hr ⊢ with h1 h2 h3
      · exact absurd rfl hr
      · have hin : (c.advance uc).status.inHeader := by
          rw [h2]
          decide
        exact endLine_hears hcfg hcommon hp.start h2 (h.reading hp.header hin rfl rfl) hr
      · exact endHeader_hears hcfg hp.start (fun hl => (h.head hp.header hl).1.congr rfl)
          fun hd => hr (congrArg some hd)
      · exact h.reading hp.header (nextStatus_inHeader hp.header h3) rfl rfl
    unfold scanHeader at hr ⊢
    generalize c.headerByte env uc = r at hended hbyte hr ⊢
    obtain ⟨d, _ | ret⟩ := r
    · exact ih (hended.1 rfl) (hbyte (by simp)) hr
    · exact hbyte hr

lemma readMore_hears (h : Hears cfg c) (hr : c.readMore.2 ≠ .done) :
    Hears cfg c.readMore.1 := by
  unfold Request.readMore at hr ⊢
  dsimp only at hr ⊢
  split_ifs at hr ⊢
  · exact absurd rfl hr
  · split at hr
    · exact h.congr rfl rfl rfl
    · exact h.congr rfl rfl rfl
    · exact absurd rfl hr
    · exact absurd rfl hr
    · next bs _ => exact h.congr rfl rfl (said_log (c := c) (e := .received bs) ⟨rfl, rfl⟩)

open Request in
lemma readHeader_hears (hcfg : env.cfg = cfg) (hcommon : cfg.commonCgiEnv.length ≤ cgiEnvMax)
    (hp : Parsing False c) (h : Hears cfg c) (hr : (c.readHeader env).2 ≠ .done) :
    Hears cfg (c.readHeader env).1 := by
  have hscan := scanHeader_hears hcfg hcommon (c.clientStream.drop c.parsePos) hp h
  unfold readHeader at hr ⊢
  generalize scanHeader env c (c.clientStream.drop c.parsePos) = r at hscan hr ⊢
  obtain ⟨d, _ | ret⟩ := r
  · dsimp only at hr ⊢
    split_ifs at hr ⊢
    · exact readMore_hears (hscan nofun) hr
    · exact hscan nofun
  · exact hscan fun he => hr (Option.some.inj he)

/-! ### Behind the header -/

/-- A step within the body. -/
lemma Hears.receiving (h : Hears cfg c) (hc : c.status = .bodyRead ∨ c.status = .bodyWrite)
    (hd : d.status = .bodyRead ∨ d.status = .bodyWrite) (he : d.said = c.said) : Hears cfg d := by
  have hin : ¬ d.status.inHeader := by
    obtain hb | hb := hd
    · rw [hb]
      decide
    · rw [hb]
      decide
  have hfields := he
  simp only [Request.said, Prod.mk.injEq] at hfields
  obtain ⟨-, -, hm, hv, -⟩ := hfields
  obtain ⟨h1, h2⟩ := h.body hc
  refine ⟨fun hi => absurd hi hin, fun hi => absurd hi hin, fun _ => ?_⟩
  rw [hv, hm]
  exact ⟨h1.congr he, h2⟩

lemma readBody_hears (h : Hears cfg c) (hs : c.status = .bodyRead) (hr : (c.readBody env).2 ≠ .done) :
    Hears cfg (c.readBody env).1 := by
  unfold Request.readBody at hr ⊢
  dsimp only at hr ⊢
  split_ifs at hr ⊢
  · exact h.receiving (.inl hs) (.inr rfl) rfl
  · split at hr
    · exact h.congr rfl rfl rfl
    · exact absurd rfl hr
    · exact absurd rfl hr
    · exact absurd rfl hr
    · next bs _ =>
      have hstore : (c.popClient.storeAtEnd bs).said = c.said := by
        unfold Request.storeAtEnd
        split <;> rfl
      exact h.receiving (.inl hs) (.inr rfl) hstore

lemma writeBody_hears (h : Hears cfg c) (hs : c.status = .bodyWrite) (hr : (c.writeBody env).2 ≠ .done) :
    Hears cfg (c.writeBody env).1 := by
  unfold Request.writeBody at hr ⊢
  dsimp only at hr ⊢
  split_ifs at hr ⊢
  · refine .of_late ?_
    rw [Request.initCgi_more hr]
    decide
  · exact h.receiving (.inr hs) (.inl rfl) rfl
  · split at hr
    · exact h.congr rfl rfl rfl
    · exact h.congr rfl rfl rfl
    · exact absurd rfl hr
    · next n _ =>
      have hpost : Hears cfg { c with post := c.post.tail } := h.congr rfl rfl rfl
      exact hpost.congr rfl rfl (said_log ⟨rfl, rfl⟩)

open Request in
/-- A round. -/
lemma serveOnce_hears (hcfg : env.cfg = cfg) (hcommon : cfg.commonCgiEnv.length ≤ cgiEnvMax)
    (hw : Whole False c) (h : Hears cfg c) (hr : (c.serveOnce env).2 ≠ .done) :
    Hears cfg (c.serveOnce env).1 := by
  have harm : Hears cfg (c.arm env) := h.congr rfl rfl rfl
  obtain ⟨-, hp, he⟩ | ⟨hout, -⟩ := serveOnce_cases env hw
  · rw [he] at hr ⊢
    exact readHeader_hears hcfg hcommon hp harm hr
  · by_cases hlate : 6 ≤ c.status.rank
    · exact .of_late (serveOnce_late hlate)
    · have hbody : c.status = .bodyRead ∨ c.status = .bodyWrite := by
        revert hout hlate
        cases c.status <;> decide
      have hlive : c.status < .timedOut := by
        revert hlate
        cases c.status <;> decide
      have hempty : c.bufferEnd = 0 := (hw.live hlive env False.elim).early (by show c.status.rank < 6; omega)
      rw [serveOnce_of_empty hempty] at hr ⊢
      unfold handle at hr ⊢
      obtain hb | hb := hbody
      · rw [show (c.arm env).status = .bodyRead from hb] at hr ⊢
        exact readBody_hears harm hb hr
      · rw [show (c.arm env).status = .bodyWrite from hb] at hr ⊢
        exact writeBody_hears harm hb hr

/-! ### The whole run -/

/-- A request of which nothing was read. -/
lemma Hears.of_fresh (hs : c.status = .readHeader) (hl : c.logline = false) (h : Blank c) : Hears cfg c := by
  refine ⟨fun _ _ => h, fun _ ht => absurd (hl.symm.trans ht) nofun, fun hb => ?_⟩
  rw [hs] at hb
  exact absurd hb (by decide)

open Request in
lemma freeRequest_hears (hf : (c.freeRequest env).2 ≠ .free) : Hears cfg (c.freeRequest env).1 := by
  have hend : ∀ d : Request, (d.endRequest env).2 ≠ .free → Hears cfg (d.endRequest env).1 := by
    intro d hd
    obtain ⟨es, code, -, ⟨-, he⟩ | ⟨-, he⟩⟩ := endRequest_cases env d
    · rw [he]
      exact .of_fresh rfl rfl ⟨rfl, rfl, rfl, rfl⟩
    · rw [he] at hd
      exact absurd rfl hd
  obtain ⟨-, -, n, -, he⟩ | ⟨-, -, -, he⟩ | ⟨-, -, -, he⟩ | ⟨-, he⟩ := freeRequest_cases env c
  · rw [he]
    refine .of_late ?_
    have hr : Out.Replies (fun _ => True) (fun _ => True) { c.toOut with status := .done } _ :=
      Out.reqFlush_replies _
    show 6 ≤ Status.rank (Out.status _)
    obtain hs | hs := hr.status
    · rw [hs]
      exact (by decide : 6 ≤ Status.done.rank)
    · rw [hs]
      decide
  · rw [he] at hf ⊢
    exact hend _ hf
  · rw [he] at hf ⊢
    exact hend _ hf
  · rw [he] at hf ⊢
    exact hend _ hf

open Request in
lemma processRequest_hears (hcfg : env.cfg = cfg) (hcommon : cfg.commonCgiEnv.length ≤ cgiEnvMax)
    (hw : Whole False c) (h : Hears cfg c) (hf : (c.processRequest env).2 ≠ .free) :
    Hears cfg (c.processRequest env).1 := by
  have hserve := serveOnce_hears hcfg hcommon hw h
  have hkeep : ∀ d : Request, Hears cfg d → Hears cfg (d.heedSigterm env) := by
    intro d hd
    unfold heedSigterm
    split_ifs
    · exact hd.congr rfl rfl rfl
    · exact hd
  unfold processRequest at hf ⊢
  dsimp only at hf ⊢
  cases hr : (c.serveOnce env).2 with
  | blocked => exact hkeep _ (hserve (by rw [hr]; exact nofun))
  | more => exact hkeep _ (hserve (by rw [hr]; exact nofun))
  | done =>
    rw [hr] at hf
    exact freeRequest_hears hf

end Header

/-- The runs of a server that keeps one configuration, on request objects whose array was
allocated. -/
def Configured (cfg : Config) : Label → Request → Prop
  | .accept env, old => env.cfg = cfg ∧ old.cgiEnv.length ≤ cgiEnvMax + 4
  | .pass env, _ => env.cfg = cfg
  | .wake _, _ => True

lemma reach_hears {cfg : Config} (hcommon : cfg.commonCgiEnv.length ≤ cgiEnvMax) {c : Request} {p : Place}
    (h : Reach (Configured cfg) c p) (hp : p ≠ .free) : Hears cfg c := by
  induction h with
  | accept env peer old hc =>
    unfold Request.getRequest
    dsimp only
    split_ifs
    · exact .of_late (show 6 ≤ Status.done.rank by decide)
    · exact .of_fresh rfl rfl ⟨rfl, rfl, rfl, rfl⟩
  | pass env h hc ih =>
    have hw := (reach_whole (S := False) (fun hS => hS.elim) h).1 nofun
    exact processRequest_hears hc hcommon hw (ih nofun) hp
  | wake w h hc ih =>
    cases w with
    | ready => exact ih nofun
    | timedOut => exact .of_late (show 6 ≤ Status.timedOut.rank by decide)
    | dead => exact .of_late (show 6 ≤ Status.dead.rank by decide)

lemma reach_room {cfg : Config} (hcommon : cfg.commonCgiEnv.length ≤ cgiEnvMax) {c : Request} {p : Place}
    (h : Reach (Configured cfg) c p) : c.cgiEnv.length ≤ cgiEnvMax + 4 := by
  induction h with
  | accept env peer old hc =>
    have hkeep : (old.getRequest env peer).cgiEnv = old.cgiEnv := by
      unfold Request.getRequest
      dsimp only
      split_ifs <;> rfl
    rw [hkeep]
    exact hc.2
  | @pass c env h hc ih =>
    have hroom := Request.processRequest_room env c
    unfold Env.envRoom at hroom
    rw [show env.cfg = cfg from hc] at hroom
    omega
  | wake w h hc ih => cases w <;> exact ih

end Boa
