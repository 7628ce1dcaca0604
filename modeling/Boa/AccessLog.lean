import Boa.CgiRedirect
import Boa.CleanLines
import Boa.Connections
import Boa.Contained

/-! The access log (log.c): each request that is logged is one line of it, whatever its client sends. -/
namespace Boa
open Memory History

/-- The zone of the server: `localtime`, and `TIMEZONE_OFFSET` in seconds, less than a day. -/
structure Zone where
  localtime : ℤ → Tm
  offset : ℤ → ℤ
  short : ∀ s, (offset s).natAbs < 86400

/-- The globals that only the access log reads. -/
structure LogSettings where
  accessLogName : Option ConfText := none
  logForwardedFor : Bool := false
  useLocaltime : Bool := false
  zone : Zone

/-- What `get_commonlog_time` writes, in a year of four digits. -/
def commonlogText (t : Tm) (offset : ℤ) : Bytes :=
  let a := (offset.tdiv 60).natAbs
  text "[" ++ two t.mday ++ [slash] ++ (monthTab.getD t.mon []).take 3 ++ [slash] ++
    simpleItoa t.year.toNat ++ [colon] ++ two t.hour ++ [colon] ++ two t.min ++ [colon] ++ two t.sec ++
    (if 0 ≤ offset then text " +" else text " -") ++ two (a / 60) ++ two (a % 60) ++ text "] "

/-- `get_commonlog_time`. -/
def getCommonlogTime (s : LogSettings) (env : Env) : Bytes :=
  if s.useLocaltime then commonlogText (s.zone.localtime env.currentTime) (s.zone.offset env.currentTime)
  else commonlogText (env.gmtime env.currentTime) 0

/-- A character of `X-Forwarded-For`, unless it is a bogus one. -/
def forwardedChar (b : UInt8) : UInt8 := if (text "0123456789.abcdef:ABCDEF,").contains b then b else 95

namespace Request

/-- `print_remote_ip`. -/
def printRemoteIp (s : LogSettings) (c : Request) : Bytes :=
  if s.logForwardedFor then
    let forwarded := c.headerForwardedFor.getD []
    if forwarded = [] then text "(" ++ c.remoteIpAddr ++ text ")" else forwarded.map forwardedChar
  else c.remoteIpAddr

/-- The request line as `process_logline` leaves it: a NUL stands behind the host of an absolute URL. -/
def hostCut (line : Bytes) : Bytes :=
  match Request.lineMethod line with
  | none => line
  | some m =>
    let rest := (line.drop (if m = .get then 4 else 5)).dropWhile (· = space)
    let target := rest.takeWhile (· ≠ space)
    if line.length < 5 ∨ maxHeaderLength < target.length then line
    else
      match (absoluteUrl target).bind splitHost with
      | none => line
      | some (host, _) => line.take (line.length - rest.length + (text "http://").length + host.length)

/-- A line as `process_option_line` leaves it: the name in upper case, and a NUL for the colon. -/
def optionCut (line : Bytes) : Bytes :=
  if colon ∈ line then toUpper (line.takeWhile (· ≠ colon)) else line

/-- `process_option_line` has read the request line: `header_line` stays on one without a version. -/
def rereadLine (c : Request) : Bool :=
  c.httpVersion = .http09 ∧ c.trace.any fun e => match e with | .optionLine _ => true | _ => false

/-- The string at `logline`, which is the start of the stream. -/
def loglineText (c : Request) : Bytes :=
  if c.logline then
    let line := hostCut (cstr c.clientStream)
    if c.rereadLine then optionCut line else line
  else text "-"

/-- The virtual host in front of an entry. -/
def logHost (cfg : Config) (c : Request) : Bytes :=
  if cfg.virtualhost then c.localIpAddr ++ [space]
  else if cfg.vhostRoot.isSome then c.host.getD (text "(null)") ++ [space]
  else []

/-- What `log_access` prints in front of its line end. -/
def logEntry (s : LogSettings) (env : Env) (c : Request) : Bytes :=
  c.logHost env.cfg ++ c.printRemoteIp s ++ text " - - " ++ getCommonlogTime s env ++ text "\"" ++
    c.loglineText ++ text "\" " ++ simpleItoa c.responseStatus ++ [space] ++ simpleItoa c.bytesWritten ++
    text " \"" ++ c.headerReferer.getD (text "-") ++ text "\" \"" ++ c.headerUserAgent.getD (text "-") ++
    text "\""

/-- `log_access`. -/
def logAccess (s : LogSettings) (env : Env) (c : Request) : Bytes :=
  if s.accessLogName.isNone then [] else c.logEntry s env ++ [lf]

end Request

/-- No line end in what `log_access` prints of the request. -/
structure Printable (c : Request) : Prop where
  line : c.logline = true → 0 ∈ c.clientStream ∧ lf ∉ cstr c.clientStream
  referer : ∀ v ∈ c.headerReferer, lf ∉ v
  userAgent : ∀ v ∈ c.headerUserAgent, lf ∉ v
  host : ∀ v ∈ c.host, lf ∉ v

variable {env : Env} {c d : Request}

/-! ### One entry -/

lemma lf_not_mem_commonlogText (t : Tm) {offset : ℤ} (h : offset.natAbs < 86400) : lf ∉ commonlogText t offset := by
  have hmon : ∀ i : Fin 12, lf ∉ (monthTab.getD i []).take 3 := by decide +kernel
  have hfixed : lf ∉ text "[" ∧ lf ∉ text " +" ∧ lf ∉ text " -" ∧ lf ∉ text "] " := by decide +kernel
  have hdays : (offset.tdiv 60).natAbs < 1440 := by
    rw [Int.natAbs_tdiv]
    exact Nat.div_lt_of_lt_mul h
  have hsign : lf ∉ (if 0 ≤ offset then text " +" else text " -") := by
    split_ifs
    · exact hfixed.2.1
    · exact hfixed.2.2.1
  have hmday := lf_not_mem_two t.mday (by omega)
  have hhour := lf_not_mem_two t.hour (by omega)
  have hmin := lf_not_mem_two t.min (by omega)
  have hsec := lf_not_mem_two t.sec (by omega)
  have hhours := lf_not_mem_two ((offset.tdiv 60).natAbs / 60) (by omega)
  have hminutes := lf_not_mem_two ((offset.tdiv 60).natAbs % 60) (by omega)
  have hslash : lf ≠ slash := by decide
  have hcolon : lf ≠ colon := by decide
  unfold commonlogText
  simp only [List.mem_append, List.mem_singleton, not_or]
  simp only [hmon t.mon, (simpleItoa_line _).1, hmday, hhour, hmin, hsec, hhours, hminutes, hsign, hslash, hcolon,
    hfixed.1, hfixed.2.2.2, not_false_eq_true, and_self]

lemma lf_not_mem_getCommonlogTime (s : LogSettings) (env : Env) : lf ∉ getCommonlogTime s env := by
  unfold getCommonlogTime
  split_ifs
  · exact lf_not_mem_commonlogText _ (s.zone.short _)
  · exact lf_not_mem_commonlogText _ (by decide)

lemma forwardedChar_ne_lf (b : UInt8) : forwardedChar b ≠ lf := by
  have hlf : (text "0123456789.abcdef:ABCDEF,").contains lf = false := by decide +kernel
  unfold forwardedChar
  split_ifs with h
  · rintro rfl
    rw [hlf] at h
    cases h
  · decide

lemma lf_not_mem_printRemoteIp (s : LogSettings) (h : lf ∉ c.remoteIpAddr) : lf ∉ c.printRemoteIp s := by
  have hparen : lf ∉ text "(" ∧ lf ∉ text ")" := by decide +kernel
  unfold Request.printRemoteIp
  dsimp only
  split_ifs
  · simp only [List.mem_append, not_or]
    exact ⟨⟨hparen.1, h⟩, hparen.2⟩
  · intro hm
    obtain ⟨b, -, hb⟩ := List.mem_map.mp hm
    exact forwardedChar_ne_lf b hb
  · exact h

lemma lf_not_mem_getD {o : Option Bytes} (h : ∀ v ∈ o, lf ∉ v) {t : Bytes} (ht : lf ∉ t) : lf ∉ o.getD t := by
  cases o with
  | none => exact ht
  | some v => exact h v rfl

lemma lf_not_mem_hostCut {line : Bytes} (h : lf ∉ line) : lf ∉ Request.hostCut line := by
  have htake : ∀ n, lf ∉ line.take n := fun n hm => h (List.mem_of_mem_take hm)
  unfold Request.hostCut
  cases Request.lineMethod line with
  | none => exact h
  | some m =>
    dsimp only
    generalize (line.drop (if m = .get then 4 else 5)).dropWhile (· = space) = rest
    split_ifs
    · exact h
    · split
      · exact h
      · exact htake _

lemma lf_not_mem_toUpper {s : Bytes} (h : lf ∉ s) : lf ∉ toUpper s := by
  have hupper : ∀ n : Fin 256, (if UInt8.ofFin n = 45 then 95 else toupper (UInt8.ofFin n)) = lf →
      UInt8.ofFin n = lf := by decide +kernel
  intro hm
  obtain ⟨b, hb, he⟩ := List.mem_map.mp hm
  have hlf : b = lf := hupper b.toFin he
  rw [hlf] at hb
  exact h hb

lemma lf_not_mem_optionCut {line : Bytes} (h : lf ∉ line) : lf ∉ Request.optionCut line := by
  unfold Request.optionCut
  split_ifs
  · exact lf_not_mem_toUpper fun hm => h (List.takeWhile_prefix _ |>.subset hm)
  · exact h

namespace Printable

lemma lf_not_mem_logHost (h : Printable c) (cfg : Config) (hip : lf ∉ c.localIpAddr) : lf ∉ c.logHost cfg := by
  have hspace : lf ∉ [space] := by decide
  have hnull : lf ∉ text "(null)" := by decide +kernel
  unfold Request.logHost
  split_ifs
  · simp only [List.mem_append, not_or]
    exact ⟨hip, hspace⟩
  · simp only [List.mem_append, not_or]
    exact ⟨lf_not_mem_getD h.host hnull, hspace⟩
  · exact List.not_mem_nil

lemma lf_not_mem_loglineText (h : Printable c) : lf ∉ c.loglineText := by
  have hdash : lf ∉ text "-" := by decide +kernel
  unfold Request.loglineText
  dsimp only
  split_ifs with hl
  · exact lf_not_mem_optionCut (lf_not_mem_hostCut (h.line hl).2)
  · exact lf_not_mem_hostCut (h.line hl).2
  · exact hdash

/-- No line end is in an entry. -/
lemma lf_not_mem_logEntry (h : Printable c) (s : LogSettings) (env : Env) (hlocal : lf ∉ c.localIpAddr)
    (hremote : lf ∉ c.remoteIpAddr) : lf ∉ c.logEntry s env := by
  have hfixed : lf ∉ text " - - " ∧ lf ∉ text "\"" ∧ lf ∉ text "\" " ∧ lf ≠ space ∧ lf ∉ text " \"" ∧
      lf ∉ text "-" ∧ lf ∉ text "\" \"" := by decide +kernel
  obtain ⟨h1, h2, h3, h4, h5, h6, h7⟩ := hfixed
  unfold Request.logEntry
  simp only [List.mem_append, List.mem_singleton, not_or]
  simp only [h.lf_not_mem_logHost env.cfg hlocal, lf_not_mem_printRemoteIp s hremote, h1, h2, h3, h4, h5, h7,
    lf_not_mem_getCommonlogTime, h.lf_not_mem_loglineText, (simpleItoa_line _).1, lf_not_mem_getD h.referer h6,
    lf_not_mem_getD h.userAgent h6, not_false_eq_true, and_self]

end Printable

/-! ### The fields that a header line fills -/

/-- The fields that are printed, and the one that the host is made of. -/
structure Named (c : Request) : Prop where
  referer : ∀ v ∈ c.headerReferer, lf ∉ v
  userAgent : ∀ v ∈ c.headerUserAgent, lf ∉ v
  headerHost : ∀ v ∈ c.headerHost, lf ∉ v

lemma lf_not_mem_of_mem_some {v : Bytes} (h : lf ∉ v) : ∀ w ∈ some v, lf ∉ w := by
  intro w hw
  cases hw
  exact h

namespace Named

lemma refused (h : Named c) (hd : Refused c d) : Named d := by
  obtain ⟨o, code, rfl, -⟩ := hd
  exact ⟨h.referer, h.userAgent, h.headerHost⟩

lemma addCgiEnv (h : Named c) (key value : Bytes) (b : Bool) : Named (c.addCgiEnv key value b).1 := by
  obtain ⟨ce, idx, he⟩ := Request.addCgiEnv_spec c key value b
  rw [he]
  exact ⟨h.referer, h.userAgent, h.headerHost⟩

lemma finishLogline (h : Named c) (env : Env) (version : Bytes) : Named (c.finishLogline env version).1 := by
  obtain ⟨v, ka, idx, -, he | ⟨e, he, hr⟩⟩ := Request.finishLogline_cases env c version
  · rw [he]
    exact ⟨h.referer, h.userAgent, h.headerHost⟩
  · rw [he]
    exact refused (c := { c with httpVersion := v, keepalive := ka, cgiEnvIndex := idx })
      ⟨h.referer, h.userAgent, h.headerHost⟩ hr

/-- The host of an absolute URL is a part of the line. -/
lemma parseTarget (h : Named c) (env : Env) {rest : Bytes} (hrest : lf ∉ rest) :
    Named (c.parseTarget env rest).1 := by
  unfold Request.parseTarget
  dsimp only
  split_ifs
  · exact h.refused (Request.sendRBadRequest_refused env c)
  · split
    · exact finishLogline (c := { c with requestUri := rest.takeWhile (· ≠ space) })
        ⟨h.referer, h.userAgent, h.headerHost⟩ env _
    · next s hs =>
      split
      · exact h.refused (Request.sendRBadRequest_refused env c)
      · next host uri hsplit =>
        have htarget : lf ∉ s := by
          unfold absoluteUrl at hs
          split_ifs at hs
          cases hs
          exact fun hm => hrest ((List.takeWhile_sublist _).subset (List.mem_of_mem_drop hm))
        have hhost : lf ∉ host := by
          unfold splitHost at hsplit
          dsimp only at hsplit
          split_ifs at hsplit
          cases hsplit
          exact fun hm => htarget ((List.takeWhile_sublist _).subset hm)
        exact finishLogline (c := { c with requestUri := uri, headerHost := some host })
          ⟨h.referer, h.userAgent, lf_not_mem_of_mem_some hhost⟩ env _

lemma processLogline (h : Named c) (env : Env) (hline : lf ∉ c.lineAt) : Named (c.processLogline env).1 := by
  have hlog : Named { c.log (.logline c.lineAt) with logline := true } := ⟨h.referer, h.userAgent, h.headerHost⟩
  unfold Request.processLogline
  dsimp only
  split_ifs
  · exact hlog.refused (Request.sendRBadRequest_refused env _)
  · split
    · exact hlog.refused (Request.sendRNotImplemented_refused env _)
    · next m _ =>
      have hrest : lf ∉ (c.lineAt.drop (if m = .get then 4 else 5)).dropWhile (· = space) :=
        fun hm => hline (List.mem_of_mem_drop ((List.dropWhile_sublist _).subset hm))
      exact parseTarget (c := { c.log (.logline c.lineAt) with logline := true, method := m, httpVersion := .http10 })
        ⟨h.referer, h.userAgent, h.headerHost⟩ env hrest

lemma rangeOption (h : Named c) (env : Env) (value : Bytes) : Named (c.rangeOption env value).1 := by
  unfold Request.rangeOption
  split_ifs
  · exact h
  · obtain ⟨rs, n, he, -⟩ := Request.rangeParse_spec c value
    generalize c.rangeParse value = r at he ⊢
    obtain ⟨d, ok⟩ := r
    obtain rfl : d = _ := he
    have hd : Named { c with ranges := rs, numranges := n } := ⟨h.referer, h.userAgent, h.headerHost⟩
    cases ok with
    | false => exact hd.refused (Request.sendRInvalidRange_refused env _)
    | true => exact hd

lemma ite {α : Type} {p : Prop} [Decidable p] {r r' : Request × α} (h : Named r.1) (h' : Named r'.1) :
    Named (if p then r else r').1 := by
  split_ifs
  · exact h
  · exact h'

lemma optionSwitch (h : Named c) (env : Env) (key : Bytes) {value : Bytes} (hvalue : lf ∉ value) :
    Named (c.optionSwitch env key value).1 := by
  have hreferer : Named { c with headerReferer := some value } :=
    ⟨lf_not_mem_of_mem_some hvalue, h.userAgent, h.headerHost⟩
  have hagent : Named { c with headerUserAgent := some value } :=
    ⟨h.referer, lf_not_mem_of_mem_some hvalue, h.headerHost⟩
  unfold Request.optionSwitch
  refine ite h (ite ⟨h.referer, h.userAgent, h.headerHost⟩ (ite ⟨h.referer, h.userAgent, h.headerHost⟩
    (ite ⟨h.referer, h.userAgent, h.headerHost⟩ (ite ⟨h.referer, h.userAgent, lf_not_mem_of_mem_some hvalue⟩
    (ite ⟨h.referer, h.userAgent, h.headerHost⟩ (ite ?_ (ite (h.rangeOption env value)
    (ite (hagent.addCgiEnv _ value true) (ite ⟨h.referer, h.userAgent, h.headerHost⟩ h)))))))))
  have hadded := hreferer.addCgiEnv (text "REFERER") value true
  generalize Request.addCgiEnv { c with headerReferer := some value } (text "REFERER") value true = r at hadded ⊢
  obtain ⟨d, ok⟩ := r
  cases ok with
  | false => exact hadded
  | true => exact hadded

lemma processOptionLine (h : Named c) (env : Env) (hline : lf ∉ c.lineAt) :
    Named (c.processOptionLine env).1 := by
  have hlog : Named (c.log (.optionLine c.lineAt)) := ⟨h.referer, h.userAgent, h.headerHost⟩
  unfold Request.processOptionLine
  dsimp only
  split
  · exact hlog
  · next v hv =>
    have hrest : lf ∉ v := by
      intro hm
      have hmem : lf ∈ c.lineAt.dropWhile (· ≠ colon) := by
        rw [hv]
        exact List.mem_cons_of_mem _ hm
      exact hline ((List.dropWhile_sublist _).subset hmem)
    have hvalue : lf ∉ v.dropWhile (fun b => b = space ∨ b = tab) :=
      fun hm => hrest ((List.dropWhile_sublist _).subset hm)
    split_ifs
    · exact hlog
    · have hswitch := hlog.optionSwitch env (toUpper (c.lineAt.takeWhile (· ≠ colon))) hvalue
      generalize (c.log (.optionLine c.lineAt)).optionSwitch env _ _ = r at hswitch ⊢
      obtain ⟨d, ok⟩ := r
      cases ok with
      | none => exact hswitch.addCgiEnv _ _ _
      | some ok => exact hswitch

end Named

/-! ### The host -/

namespace Request

lemma lf_not_mem_virtualHost (cfg : Config) (h : ∀ v ∈ c.headerHost, lf ∉ v) : lf ∉ c.virtualHost cfg := by
  have hname : lf ∉ c.headerHost.getD cfg.defaultVhost := lf_not_mem_getD h cfg.defaultVhost.noLf
  intro hm
  obtain ⟨b, hb, hlower⟩ := List.mem_map.mp ((List.takeWhile_sublist _).subset hm)
  have hlf : b = lf := by
    revert hlower
    unfold tolower
    split_ifs with hupper
    · intro he
      have hn := congrArg UInt8.toNat he
      have h32 : (32 : UInt8).toNat = 32 := rfl
      have hten : lf.toNat = 10 := rfl
      rw [UInt8.toNat_add] at hn
      omega
    · exact id
  exact hname (hlf ▸ hb)

lemma acceptUri_host (env : Env) (h : Printable c) (hh : ∀ v ∈ c.headerHost, lf ∉ v) :
    ∀ v ∈ (c.acceptUri env).1.host, lf ∉ v := by
  have hrefused {e f : Request} (hr : Refused e f) (he : ∀ v ∈ e.host, lf ∉ v) : ∀ v ∈ f.host, lf ∉ v := by
    obtain ⟨o, code, rfl, -⟩ := hr
    exact he
  have hset (e : Request) (he : e.headerHost = c.headerHost) (hold : e.host = c.host) :
      ∀ v ∈ (e.acceptHost env).1.host, lf ∉ v := by
    have hnew : ∀ v ∈ some (e.virtualHost env.cfg), lf ∉ v :=
      lf_not_mem_of_mem_some (lf_not_mem_virtualHost env.cfg (by rw [he]; exact hh))
    unfold acceptHost
    dsimp only
    split_ifs
    · exact hrefused (sendRBadRequest_refused env _) hnew
    · exact hnew
    · rw [hold]
      exact h.host
  unfold acceptUri
  split
  · exact hrefused (sendRError_refused env c) h.host
  generalize unescapeUri c.requestUri = u
  obtain ⟨uri, query, legal⟩ := u
  dsimp only
  split
  · exact hrefused (sendRBadRequest_refused env _) h.host
  split
  · exact hrefused (sendRBadRequest_refused env _) h.host
  split
  · exact hset _ rfl rfl
  · exact hset _ rfl rfl

lemma openPostFile_lasting (env : Env) (c : Request) : (c.openPostFile env).1.lasting = c.lasting ∧
    (c.openPostFile env).1.headerHost = c.headerHost := by
  have hset : (c.setPostDataFd env.tempFd).lasting = c.lasting ∧
      (c.setPostDataFd env.tempFd).headerHost = c.headerHost := by
    unfold setPostDataFd
    split_ifs
    · exact ⟨rfl, rfl⟩
    · exact ⟨rfl, rfl⟩
  unfold openPostFile
  dsimp only
  generalize c.setPostDataFd env.tempFd = d at hset ⊢
  split_ifs
  · obtain ⟨o, code, he, -⟩ := sendRError_refused env d
    rw [he]
    exact hset
  · obtain ⟨o, code, he, -⟩ := sendRError_refused env (d.log (.opened env.tempFd))
    unfold boaPerror
    rw [he]
    exact hset
  · exact hset

/-- The host is not touched behind `acceptUri`, nor is the header line while a body is awaited. -/
lemma dispatchUri_lasting (env : Env) (c : Request) (h0 : c.bufferStart = 0) :
    (c.dispatchUri env).1.lasting = c.lasting ∧
      (c.method = .post → (c.dispatchUri env).1.headerHost = c.headerHost) := by
  unfold dispatchUri
  obtain ⟨hr, hl⟩ | ⟨hr, d, hl, hrefused⟩ := translateUri_translated env c
  · generalize c.translateUri env = r at hr hl ⊢
    obtain ⟨d, ok⟩ := r
    cases hr
    obtain ⟨es, ct, pn, sn, pi, pt, hd, -⟩ := hl
    have hd : d = _ := hd
    have hsame : d.lasting = c.lasting ∧ d.headerHost = c.headerHost ∧ d.method = c.method ∧
        d.bufferStart = c.bufferStart := by
      rw [hd]
      exact ⟨rfl, rfl, rfl, rfl⟩
    clear hd
    obtain ⟨hlast, hhost, hmethod, hstart⟩ := hsame
    dsimp only
    split_ifs with hm hc
    · obtain ⟨h1, h2⟩ := openPostFile_lasting env d
      exact ⟨h1.trans hlast, fun _ => h2.trans hhost⟩
    · exact ⟨(initCgi_effect (S := False) env d).lasting.trans hlast, fun hp => absurd (hmethod.trans hp) hm⟩
    · have heffect := initGet_effect (S := False) env { d with status := .write } (hstart.trans h0)
      exact ⟨heffect.lasting.trans hlast, fun hp => absurd (hmethod.trans hp) hm⟩
  · generalize c.translateUri env = r at hr hrefused ⊢
    obtain ⟨e, ok⟩ := r
    cases hr
    obtain ⟨es, ct, pn, sn, pi, pt, rfl, -⟩ := hl
    obtain ⟨o, code, he, -⟩ := hrefused
    have he : e = _ := he
    dsimp only
    rw [he]
    exact ⟨rfl, fun _ => rfl⟩

end Request

/-! ### The header -/

/-- What is kept of a header while it is read: there is no line end in the line so far, nor in the fields
that earlier lines filled, and the request line is the one at the start of the stream. -/
structure Unbroken (c : Request) : Prop extends Named c where
  marked : c.Marked
  pos : c.headerLine.off ≤ c.parsePos
  size : c.parsePos ≤ c.clientStream.length
  text : lf ∉ c.lineTo c.parsePos
  ended : c.status = .oneCr → c.headerLine.off ≤ c.headerEnd.off
  first : c.logline = false → c.headerLine.off = 0

/-- A NUL written into the string only shortens it. -/
lemma lf_not_mem_cstr_set {m : Bytes} (h : lf ∉ cstr m) (i : ℕ) : lf ∉ cstr (m.set i 0) := by
  induction m generalizing i with
  | nil => exact h
  | cons b m ih =>
    cases i with
    | zero =>
      show lf ∉ cstr (0 :: m)
      simp [cstr]
    | succ i =>
      show lf ∉ cstr (b :: m.set i 0)
      by_cases hb : b = 0
      · simp [cstr, hb]
      · have hcons : ∀ t : Bytes, cstr (b :: t) = b :: cstr t := fun t => by simp [cstr, hb]
        rw [hcons] at h ⊢
        have hm : lf ∉ cstr m := fun hm => h (List.mem_cons_of_mem _ hm)
        have hne : lf ≠ b := fun he => h (he ▸ List.mem_cons_self)
        simp only [List.mem_cons, not_or]
        exact ⟨hne, ih hm i⟩

lemma cstr_append_of_nul {m t : Bytes} (h : 0 ∈ m) : cstr (m ++ t) = cstr m := by
  obtain ⟨r, hr⟩ := exists_cstr_append h
  have hsame : m ++ t = cstr m ++ 0 :: (r ++ t) := by
    conv_lhs => rw [hr]
    simp
  rw [hsame, cstr_append_nul (cstr_nul m)]

lemma cstr_prefix_append (m t : Bytes) : cstr m <+: cstr (m ++ t) := by
  by_cases hz : 0 ∈ m
  · rw [cstr_append_of_nul hz]
  · rw [cstr_of_not_mem hz]
    unfold cstr
    rw [List.takeWhile_append_of_pos fun b hb => by
      have hne : b ≠ 0 := fun he => hz (he ▸ hb)
      simpa using hne]
    exact List.prefix_append _ _

lemma zero_mem_set {m : Bytes} {i : ℕ} (h : i < m.length) : 0 ∈ m.set i 0 :=
  List.mem_iff_getElem.mpr ⟨i, by simpa using h, by simp⟩

/-- A character behind which the line goes on is not its end. -/
lemma ne_lf_of_skip {s : Status} {uc : UInt8} (hin : s.inHeader) (h1 : nextStatus s uc ≠ .oneLf)
    (h2 : nextStatus s uc ≠ .bodyRead) : uc ≠ lf := by
  rintro rfl
  revert h1 h2 hin
  cases s <;> decide

lemma lf_not_mem_cstr_snoc {m : Bytes} {uc : UInt8} (h : lf ∉ cstr m) (huc : uc ≠ lf) : lf ∉ cstr (m ++ [uc]) := by
  by_cases hm : 0 ∈ m
  · rw [cstr_append_of_nul hm]
    exact h
  · rw [cstr_of_not_mem hm] at h
    intro hlf
    obtain hlf | hlf := List.mem_append.mp ((List.takeWhile_sublist _).subset hlf)
    · exact h hlf
    · exact huc (List.mem_singleton.mp hlf).symm

namespace Unbroken

variable {uc : UInt8} {rest : Bytes}

/-- The end of a line is marked behind its start. -/
lemma marks (h : Unbroken c) (hs : c.status = .readHeader ∨ c.status = .oneCr) (huc : uc = cr ∨ uc = lf) :
    c.headerLine.off ≤ (c.advance uc).headerEnd.off := by
  obtain hs | hs := hs
  · have hend : (c.advance uc).headerEnd = ⟨.clientStream, c.parsePos⟩ := by
      obtain rfl | rfl := huc
      · simp [Request.advance, marksEnd, hs]
      · simp [Request.advance, marksEnd, hs]
    rw [hend]
    exact h.pos
  · have hend : (c.advance uc).headerEnd = c.headerEnd := by
      simp [Request.advance, marksEnd, hs]
    rw [hend]
    exact h.ended hs

/-- A character within a line. -/
lemma skip (h : Unbroken c) (hin : c.status.inHeader) (hdrop : c.clientStream.drop c.parsePos = uc :: rest)
    (h1 : (c.advance uc).status ≠ .oneLf) (h2 : (c.advance uc).status ≠ .bodyRead)
    (hin' : (c.advance uc).status.inHeader) : Unbroken (c.advance uc) := by
  refine ⟨⟨h.referer, h.userAgent, h.headerHost⟩, (Request.advance_taken h.marked uc).marked hin',
    h.pos.trans (Nat.le_succ _), lt_length_of_drop hdrop, ?_, fun hcr => ?_, h.first⟩
  · show lf ∉ cstr (slice c.clientStream c.headerLine.off (c.parsePos + 1))
    rw [slice_snoc hdrop h.pos]
    exact lf_not_mem_cstr_snoc h.text (ne_lf_of_skip hin h1 h2)
  · obtain ⟨hfrom, rfl⟩ := nextStatus_oneCr hin hcr
    exact h.marks hfrom (.inl rfl)

/-- Where a line ends. -/
lemma line_end (h : Unbroken c) (hin : c.status.inHeader) (hdrop : c.clientStream.drop c.parsePos = uc :: rest)
    (hs : (c.advance uc).status = .oneLf) : (c.advance uc).headerEnd.off < c.clientStream.length ∧
      lf ∉ (c.advance uc).terminateLine.lineAt := by
  have hlt := lt_length_of_drop hdrop
  have hmark : (c.advance uc).headerEnd.off < c.parsePos + 1 :=
    (Request.advance_taken h.marked uc).marked (by rw [hs]; decide) (by rw [hs]; decide)
  have hle : c.headerLine.off ≤ (c.advance uc).headerEnd.off := by
    obtain ⟨hfrom, rfl⟩ := nextStatus_oneLf hin hs
    exact h.marks hfrom (.inr rfl)
  have hlength : (c.advance uc).headerEnd.off < c.clientStream.length := by omega
  refine ⟨hlength, ?_⟩
  rw [lineAt_terminateLine hle hlength]
  intro hlf
  have hsplit : slice c.clientStream c.headerLine.off (c.advance uc).headerEnd.off <+:
      slice c.clientStream c.headerLine.off c.parsePos := List.take_prefix_take_left (by omega)
  refine h.text (List.IsPrefix.subset ?_ hlf)
  obtain ⟨t, ht⟩ := hsplit
  show cstr (slice c.clientStream c.headerLine.off (c.advance uc).headerEnd.off) <+:
    cstr (slice c.clientStream c.headerLine.off c.parsePos)
  rw [← ht]
  exact cstr_prefix_append _ _

end Unbroken

/-! ### Steps of the parser -/

namespace Printable

lemma of_shown (h : Printable c) (hn : Named d)
    (he : (d.clientStream, d.logline, d.host) = (c.clientStream, c.logline, c.host)) : Printable d := by
  simp only [Prod.mk.injEq] at he
  obtain ⟨hstream, hl, hhost⟩ := he
  refine ⟨fun hlog => ?_, hn.referer, hn.userAgent, ?_⟩
  · rw [hstream]
    exact h.line (hl ▸ hlog)
  · rw [hhost]
    exact h.host

/-- Behind the header nothing that is printed is written to. -/
lemma of_named (h : Printable c) (he : (d.kept, d.host) = (c.kept, c.host)) : Printable d := by
  obtain ⟨hkept, hhost⟩ := Prod.mk.injEq .. ▸ he
  obtain ⟨-, hstream, -, -, -, -, hl, -⟩ := Request.of_kept hkept
  have hnoted := Request.noted_of_kept hkept
  simp only [Request.noted, Prod.mk.injEq] at hnoted
  obtain ⟨-, hreferer, hagent, -⟩ := hnoted
  refine ⟨fun hlog => ?_, ?_, ?_, ?_⟩
  · rw [hstream]
    exact h.line (hl ▸ hlog)
  · rw [hreferer]
    exact h.referer
  · rw [hagent]
    exact h.userAgent
  · rw [hhost]
    exact h.host

lemma of_lasting (h : Printable c) (he : d.lasting = c.lasting) : Printable d :=
  h.of_named (Prod.ext (Request.of_fixed (congrArg Prod.fst he)).1 (congrArg Prod.snd he : d.host = c.host))

lemma refused (h : Printable c) (hd : Refused c d) : Printable d := by
  obtain ⟨o, code, rfl, -⟩ := hd
  exact ⟨h.line, h.referer, h.userAgent, h.host⟩

end Printable

lemma OptionEnd.shown {ok : Bool} (h : OptionEnd c d ok) :
    (d.clientStream, d.logline, d.host, d.status, d.parsePos) =
      (c.clientStream, c.logline, c.host, c.status, c.parsePos) ∨ ok = false ∧
    (d.clientStream, d.logline, d.host) = (c.clientStream, c.logline, c.host) := by
  obtain ⟨e, ⟨_, _, _, _, _, _, _, _, _, _, _, _, rfl⟩, ⟨rfl, -⟩ | ⟨hok, o, code, rfl, -⟩⟩ := h
  · exact .inl rfl
  · exact .inr ⟨hok, rfl⟩

/-- What a line leaves to the next one. -/
lemma Unbroken.start (hn : Named d) (hm : d.startLine.Marked) (hs : d.status ≠ .oneCr)
    (hle : d.parsePos ≤ d.clientStream.length) (hl : d.logline = true) : Unbroken d.startLine := by
  refine ⟨⟨hn.referer, hn.userAgent, hn.headerHost⟩, hm, le_rfl, hle, ?_, fun hcr => absurd hcr hs, fun hlog => ?_⟩
  · show lf ∉ cstr (slice d.clientStream d.parsePos d.parsePos)
    rw [slice_self]
    exact List.not_mem_nil
  · rw [show d.startLine.logline = true from hl] at hlog
    cases hlog

namespace Request

lemma processHeaderEnd_printable (env : Env) (h0 : c.bufferStart = 0) (h : Printable c) (hn : Named c) :
    Printable (c.processHeaderEnd env).1 ∧ ((c.processHeaderEnd env).2 ≠ .done →
      (c.processHeaderEnd env).1.status.inHeader → Named (c.processHeaderEnd env).1) := by
  have hlog : Printable (c.log .headerEnd) := ⟨h.line, h.referer, h.userAgent, h.host⟩
  have hhost := acceptUri_host env hlog hn.headerHost
  unfold processHeaderEnd
  obtain ⟨uri, query, host, he | ⟨d, he, hrefused⟩⟩ := acceptUri_cases env (c.log .headerEnd)
  · rw [he] at hhost ⊢
    dsimp only at hhost ⊢
    generalize hd : ({ c.log .headerEnd with requestUri := uri, queryString := query, host := host } : Request) = d
      at hhost ⊢
    have hprint : Printable d := by
      rw [← hd]
      exact ⟨h.line, h.referer, h.userAgent, hhost⟩
    have hsame : d.bufferStart = 0 ∧ d.headerHost = c.headerHost := by
      rw [← hd]
      exact ⟨h0, rfl⟩
    obtain ⟨hlast, hpost⟩ := dispatchUri_lasting env d hsame.1
    have hconc := dispatchUri_concluded (S := False) env d hsame.1
    have hnext := hprint.of_lasting hlast
    refine ⟨hnext, fun hr hin => ⟨hnext.referer, hnext.userAgent, ?_⟩⟩
    obtain ⟨hlate, -⟩ | ⟨-, hm, -⟩ := hconc.next hr
    · exact absurd (Status.inHeader_iff.mp hin) (by omega)
    · have hmethod := (of_kept (of_fixed hconc.fixed).1).2.2.2.1
      rw [hpost (hmethod.symm.trans hm), hsame.2]
      exact hn.headerHost
  · rw [he] at hhost ⊢
    refine ⟨?_, fun hr => absurd rfl hr⟩
    obtain ⟨o, code, rfl, -⟩ := hrefused
    exact ⟨h.line, h.referer, h.userAgent, hhost⟩

lemma endHeader_printable (env : Env) (h0 : c.bufferStart = 0) (h : Printable c) (hn : Named c) :
    Printable (c.endHeader env).1 := by
  obtain ⟨hend, -⟩ := processHeaderEnd_printable env h0 h hn
  obtain ⟨-, he⟩ | ⟨-, he⟩ | ⟨-, -, he⟩ := endHeader_cases env c
  · rw [he]
    exact hend
  · rw [he]
    exact hend
  · rw [he]
    obtain ⟨hl, he, size, pos, hb | ⟨e, hb, hrefused⟩⟩ := startBody_cases env (c.processHeaderEnd env).1
    · rw [hb]
      exact ⟨hend.line, hend.referer, hend.userAgent, hend.host⟩
    · rw [hb]
      obtain ⟨o, code, rfl, -⟩ := hrefused
      exact ⟨hend.line, hend.referer, hend.userAgent, hend.host⟩

/-- A request line without a version: a POST goes on to read header lines. -/
lemma processHeaderEnd_unbroken (env : Env) (h0 : c.bufferStart = 0) (h : Printable c) (hn : Named c)
    (hs : c.status = .oneLf) (hl : c.logline = true) (hpos : c.headerLine.off ≤ c.parsePos)
    (hsize : c.parsePos ≤ c.clientStream.length) (hline : lf ∉ c.lineAt)
    (hr : (c.processHeaderEnd env).2 ≠ .done) (hm : (c.processHeaderEnd env).1.Marked)
    (hin : (c.processHeaderEnd env).1.status.inHeader) : Unbroken (c.processHeaderEnd env).1 := by
  have hnamed := (processHeaderEnd_printable env h0 h hn).2 hr hin
  have hconc := processHeaderEnd_concluded (S := False) env c h0
  obtain ⟨-, hstream, -, -, -, -, hlog, hparse⟩ := of_kept (of_fixed hconc.fixed).1
  have hstream : (c.processHeaderEnd env).1.clientStream = c.clientStream := hstream
  have hparse : (c.processHeaderEnd env).1.parsePos = c.parsePos := hparse
  have hlog : (c.processHeaderEnd env).1.logline = c.logline := hlog
  obtain ⟨hlate, -⟩ | ⟨-, -, hstatus, -, hpiping⟩ := hconc.next hr
  · exact absurd (Status.inHeader_iff.mp hin) (by omega)
  · have hstatus : (c.processHeaderEnd env).1.status = .oneLf := hstatus.trans hs
    have hstart : (c.processHeaderEnd env).1.headerLine = c.headerLine := by
      simp only [piping, Prod.mk.injEq] at hpiping
      exact hpiping.1
    refine ⟨hnamed, hm, ?_, ?_, ?_, fun hcr => ?_, fun hno => ?_⟩
    · rw [hstart, hparse]
      exact hpos
    · rw [hstream, hparse]
      exact hsize
    · unfold lineTo
      rw [hstart, hstream, hparse]
      intro hlf
      have hpre := cstr_slice_prefix c.clientStream c.headerLine.off c.parsePos
      exact hline (hpre.subset hlf)
    · rw [hstatus] at hcr
      cases hcr
    · rw [hlog, hl] at hno
      cases hno

/-- A header line, behind the NUL that ends it. -/
lemma processOptionLine_printable (env : Env) (hs : c.status = .oneLf) (h : Printable c) (hn : Named c)
    (hsize : c.parsePos ≤ c.clientStream.length) (hl : c.logline = true) (hline : lf ∉ c.lineAt) :
    Printable (c.processOptionLine env).1 ∧ ((c.processOptionLine env).2 = true →
      (c.processOptionLine env).1.startLine.Marked → Unbroken (c.processOptionLine env).1.startLine) := by
  have hoption := hn.processOptionLine env hline
  obtain he | ⟨hno, he⟩ := (processOptionLine_ends env c).shown
  · simp only [Prod.mk.injEq] at he
    obtain ⟨hstream, hlog, hhost, hstatus, hparse⟩ := he
    have hshown : ((c.processOptionLine env).1.clientStream, (c.processOptionLine env).1.logline,
        (c.processOptionLine env).1.host) = (c.clientStream, c.logline, c.host) := by
      rw [hstream, hlog, hhost]
      rfl
    refine ⟨h.of_shown hoption hshown, fun _ hm => .start hoption hm ?_ ?_ (hlog.trans hl)⟩
    · rw [hstatus]
      show c.status ≠ .oneCr
      rw [hs]
      decide
    · rw [hstream, hparse]
      exact hsize
  · refine ⟨h.of_shown hoption he, fun hok => ?_⟩
    rw [hno] at hok
    cases hok

/-- The request line, behind the NUL that ends it: from now on the string at the start of the stream is printed. -/
lemma processLogline_printable (env : Env) (hs : c.status = .oneLf) (h : Printable c) (hn : Named c)
    (hnul : 0 ∈ c.clientStream) (hoff : c.headerLine.off = 0) (hline : lf ∉ c.lineAt) :
    Printable (c.processLogline env).1 ∧ Named (c.processLogline env).1 ∧ ((c.processLogline env).2 = true →
      (c.processLogline env).1.status = .oneLf ∧ (c.processLogline env).1.logline = true ∧
        (c.processLogline env).1.headerLine = c.headerLine ∧ (c.processLogline env).1.parsePos = c.parsePos ∧
        (c.processLogline env).1.clientStream = c.clientStream ∧
        (c.processLogline env).1.bufferStart = c.bufferStart) := by
  have hlogline := hn.processLogline env hline
  have htext : lf ∉ cstr c.clientStream := by
    unfold lineAt at hline
    rwa [hoff, List.drop_zero] at hline
  have hshown (d : Request) (hd : Named d) (he : d.clientStream = c.clientStream) (hhost : d.host = c.host) :
      Printable d := by
    refine ⟨fun _ => ?_, hd.referer, hd.userAgent, ?_⟩
    · rw [he]
      exact ⟨hnul, htext⟩
    · rw [hhost]
      exact h.host
  obtain ⟨d, ⟨m, v, uri, hh, ka, idx, rfl, -⟩, he | ⟨e, he, hrefused⟩⟩ := processLogline_cases env c
  · rw [he] at hlogline ⊢
    exact ⟨hshown _ hlogline rfl rfl, hlogline, fun _ => ⟨hs, rfl, rfl, rfl, rfl, rfl⟩⟩
  · rw [he] at hlogline ⊢
    obtain ⟨o, code, rfl, -⟩ := hrefused
    exact ⟨hshown _ hlogline rfl rfl, hlogline, fun hok => by cases hok⟩

/-- The end of a line. -/
lemma endLine_printable (env : Env) (h0 : c.bufferStart = 0) (hs : c.status = .oneLf) (hc : Printable c)
    (hn : Named c) (hend : c.headerEnd.off < c.clientStream.length) (hpos : c.headerLine.off ≤ c.parsePos)
    (hsize : c.parsePos ≤ c.clientStream.length) (hline : lf ∉ c.terminateLine.lineAt)
    (hfirst : c.logline = false → c.headerLine.off = 0)
    (hm : (c.endLine env).2 ≠ some .done → (c.endLine env).1.status.inHeader → (c.endLine env).1.Marked) :
    Printable (c.endLine env).1 ∧ ((c.endLine env).2 ≠ some .done → (c.endLine env).1.status.inHeader →
      Unbroken (c.endLine env).1) := by
  have hnamed : Named c.terminateLine := ⟨hn.referer, hn.userAgent, hn.headerHost⟩
  have hnul : 0 ∈ c.terminateLine.clientStream := zero_mem_set hend
  have hprint : Printable c.terminateLine :=
    ⟨fun hl => ⟨hnul, lf_not_mem_cstr_set (hc.line hl).2 _⟩, hc.referer, hc.userAgent, hc.host⟩
  have hlength : c.terminateLine.parsePos ≤ c.terminateLine.clientStream.length := by
    show c.parsePos ≤ (c.clientStream.set _ _).length
    rw [List.length_set]
    exact hsize
  revert hm
  unfold endLine
  dsimp only
  split_ifs with hlong hl
  · intro _
    have hlog (n : ℕ) : Printable (c.terminateLine.log (.reject (.headerTooLong n))) :=
      ⟨hprint.line, hprint.referer, hprint.userAgent, hprint.host⟩
    exact ⟨(hlog _).refused (sendRBadRequest_refused env _), fun hn => absurd rfl hn⟩
  · obtain ⟨hoption, hstart⟩ := processOptionLine_printable (c := c.terminateLine) env hs hprint hnamed hlength hl hline
    generalize c.terminateLine.processOptionLine env = r at hoption hstart ⊢
    obtain ⟨d, ok⟩ := r
    cases ok with
    | false => exact fun _ => ⟨hoption, fun hn => absurd rfl hn⟩
    | true =>
      exact fun hm => ⟨⟨hoption.line, hoption.referer, hoption.userAgent, hoption.host⟩,
        fun hr hin => hstart rfl (hm hr hin)⟩
  · have hoff : c.headerLine.off = 0 := hfirst (Bool.eq_false_of_not_eq_true hl)
    obtain ⟨hlogline, hfilled, hgoes⟩ :=
      processLogline_printable (c := c.terminateLine) env hs hprint hnamed hnul hoff hline
    generalize c.terminateLine.processLogline env = r at hlogline hfilled hgoes ⊢
    obtain ⟨d, ok⟩ := r
    cases ok with
    | false => exact fun _ => ⟨hlogline, fun hn => absurd rfl hn⟩
    | true =>
      obtain ⟨hstatus, hlog, hhead, hparse, hstream, hstart⟩ := hgoes rfl
      have hhead : d.headerLine = c.headerLine := hhead
      have hparse : d.parsePos = c.parsePos := hparse
      have hsized : d.parsePos ≤ d.clientStream.length := by
        rw [hstream, hparse]
        exact hlength
      dsimp only at hlogline hfilled ⊢
      split_ifs
      · intro hm
        have h0 : d.bufferStart = 0 := hstart.trans h0
        refine ⟨(processHeaderEnd_printable env h0 hlogline hfilled).1, fun hr hin => ?_⟩
        have hr' : (d.processHeaderEnd env).2 ≠ .done := fun hdone => hr (congrArg some hdone)
        refine processHeaderEnd_unbroken env h0 hlogline hfilled hstatus hlog ?_ hsized ?_ hr' (hm hr hin) hin
        · rw [hhead, hparse]
          exact hpos
        · unfold lineAt
          rw [hstream, hhead]
          exact hline
      · intro hm
        refine ⟨⟨hlogline.line, hlogline.referer, hlogline.userAgent, hlogline.host⟩, fun hr hin => ?_⟩
        refine .start hfilled (hm hr hin) ?_ hsized hlog
        rw [hstatus]
        decide

/-- A byte of the header. -/
lemma headerByte_printable (env : Env) {uc : UInt8} {rest : Bytes} (hp : Parsing False c) (ht : Unbroken c)
    (hc : Printable c) (hdrop : c.clientStream.drop c.parsePos = uc :: rest) :
    Printable (c.headerByte env uc).1 ∧ ((c.headerByte env uc).2 ≠ some .done →
      (c.headerByte env uc).1.status.inHeader → Unbroken (c.headerByte env uc).1) := by
  have hprint : Printable (c.advance uc) := ⟨hc.line, hc.referer, hc.userAgent, hc.host⟩
  have hnamed : Named (c.advance uc) := ⟨ht.referer, ht.userAgent, ht.headerHost⟩
  have htaken := (headerByte_step env c uc).taken hp.start ht.marked
  revert htaken
  unfold headerByte
  dsimp only
  split_ifs with hi hs hb
  · intro _
    have hlog : Printable (c.log (.reject (.illegalChar uc))) := ⟨hc.line, hc.referer, hc.userAgent, hc.host⟩
    exact ⟨hlog.refused (sendRBadRequest_refused env _), fun hn => absurd rfl hn⟩
  · intro htaken
    obtain ⟨hend, hline⟩ := ht.line_end hp.header hdrop hs
    exact endLine_printable env hp.start hs hprint hnamed hend (ht.pos.trans (Nat.le_succ _))
      (lt_length_of_drop hdrop) hline ht.first fun hr => (htaken hr).marked
  · intro _
    refine ⟨endHeader_printable env hp.start hprint hnamed, fun hr hin => ?_⟩
    exact absurd hin (endHeader_behind hp.start fun hdone => hr (congrArg some hdone))
  · exact fun _ => ⟨hprint, fun _ hin => ht.skip hp.header hdrop hs hb hin⟩

end Request

/-! ### Rounds -/

namespace Request

lemma scanHeader_printable (env : Env) (bs : Bytes) (hp : Parsing False c) (hc : Printable c) (ht : Unbroken c)
    (hdrop : c.clientStream.drop c.parsePos = bs) :
    Printable (scanHeader env c bs).1 ∧ ((scanHeader env c bs).2 ≠ some .done →
      (scanHeader env c bs).1.status.inHeader → Unbroken (scanHeader env c bs).1) := by
  induction bs generalizing c with
  | nil => exact ⟨hc, fun _ _ => ht⟩
  | cons uc bs ih =>
    have hstep := headerByte_step env c uc
    have hended := hstep.ended hp
    have hbyte := headerByte_printable env hp ht hc hdrop
    unfold scanHeader
    generalize c.headerByte env uc = r at hstep hended hbyte
    obtain ⟨d, _ | ret⟩ := r
    · have htaken : Taken 1 c d := hstep.taken hp.start ht.marked (by simp)
      have hd : Parsing False d := hended.1 rfl
      have hahead : d.clientStream.drop d.parsePos = bs := by
        rw [htaken.ahead]
        exact drop_succ hdrop
      exact ih hd hbyte.1 (hbyte.2 (by simp) hd.header) hahead
    · exact hbyte

/-- What is received lies behind the line. -/
lemma receive_unbroken (ht : Unbroken c) (bs : Bytes) :
    Unbroken { c.popClient.log (.received bs) with clientStream := c.clientStream ++ bs } := by
  refine ⟨⟨ht.referer, ht.userAgent, ht.headerHost⟩, ht.marked, ht.pos, ?_, ?_, ht.ended, ht.first⟩
  · show c.parsePos ≤ (c.clientStream ++ bs).length
    rw [List.length_append]
    exact ht.size.trans (Nat.le_add_right _ _)
  · have hslice : slice (c.clientStream ++ bs) c.headerLine.off c.parsePos =
        slice c.clientStream c.headerLine.off c.parsePos := by
      rw [slice, slice, ← List.drop_take, ← List.drop_take, List.take_append_of_le_length ht.size]
    show lf ∉ cstr (slice (c.clientStream ++ bs) c.headerLine.off c.parsePos)
    rw [hslice]
    exact ht.text

lemma readMore_printable (hc : Printable c) (ht : Unbroken c) :
    Printable c.readMore.1 ∧ (c.readMore.2 ≠ .done → Unbroken c.readMore.1) := by
  have hpop : Printable c.popClient ∧ Unbroken c.popClient :=
    ⟨⟨hc.line, hc.referer, hc.userAgent, hc.host⟩,
      ⟨⟨ht.referer, ht.userAgent, ht.headerHost⟩, ht.marked, ht.pos, ht.size, ht.text, ht.ended, ht.first⟩⟩
  unfold readMore
  dsimp only
  split_ifs
  · exact ⟨⟨hc.line, hc.referer, hc.userAgent, hc.host⟩, fun hn => absurd rfl hn⟩
  · split
    · exact ⟨hpop.1, fun _ => hpop.2⟩
    · exact ⟨hpop.1, fun _ => hpop.2⟩
    · exact ⟨⟨hc.line, hc.referer, hc.userAgent, hc.host⟩, fun hn => absurd rfl hn⟩
    · exact ⟨⟨hc.line, hc.referer, hc.userAgent, hc.host⟩, fun hn => absurd rfl hn⟩
    · next bs _ =>
      refine ⟨⟨fun hl => ?_, hc.referer, hc.userAgent, hc.host⟩, fun _ => receive_unbroken ht bs⟩
      obtain ⟨hnul, hline⟩ := hc.line hl
      show 0 ∈ c.clientStream ++ bs ∧ lf ∉ cstr (c.clientStream ++ bs)
      rw [cstr_append_of_nul hnul]
      exact ⟨List.mem_append_left _ hnul, hline⟩

lemma readHeader_printable (env : Env) (hp : Parsing False c) (hc : Printable c) (ht : Unbroken c) :
    Printable (c.readHeader env).1 ∧
      ((c.readHeader env).2 ≠ .done → (c.readHeader env).1.status.inHeader → Unbroken (c.readHeader env).1) := by
  have hscan := scanHeader_printable env (c.clientStream.drop c.parsePos) hp hc ht rfl
  have hended := scanHeader_ended env hp (c.clientStream.drop c.parsePos)
  unfold readHeader
  generalize scanHeader env c (c.clientStream.drop c.parsePos) = r at hscan hended
  obtain ⟨d, _ | ret⟩ := r
  · have hlt : d.status < .bodyRead := (hended.1 rfl).header
    have hd : Unbroken d := hscan.2 (by simp) (hended.1 rfl).header
    obtain ⟨h1, h2⟩ := readMore_printable hscan.1 hd
    dsimp only
    rw [if_pos hlt]
    exact ⟨h1, fun hr _ => h2 hr⟩
  · exact ⟨hscan.1, fun hr => hscan.2 fun he => hr (Option.some.inj he)⟩

/-- One round. -/
lemma serveOnce_printable (env : Env) (hw : Whole False c) (hc : Printable c)
    (ht : c.status.inHeader → Unbroken c) : Printable (c.serveOnce env).1 ∧ ((c.serveOnce env).2 ≠ .done →
      (c.serveOnce env).1.status.inHeader → Unbroken (c.serveOnce env).1) := by
  obtain ⟨hin, hp, he⟩ | ⟨hout, hl⟩ := serveOnce_cases env hw
  · have harm : Unbroken (c.arm env) :=
      ⟨⟨(ht hin).referer, (ht hin).userAgent, (ht hin).headerHost⟩, (ht hin).marked, (ht hin).pos, (ht hin).size,
        (ht hin).text, (ht hin).ended, (ht hin).first⟩
    rw [he]
    exact readHeader_printable env hp ⟨hc.line, hc.referer, hc.userAgent, hc.host⟩ harm
  · exact ⟨hc.of_named hl.named, fun hr hin => absurd hin (serveOnce_behind env hw hout hr)⟩

end Request

/-! ### Runs -/

variable {P : Label → Request → Prop}

/-- How a connection keeps what is printed. -/
lemma printable_rule : RunRule P (fun _ => True) Printable
    fun c => Printable c ∧ (c.status.inHeader → Unbroken c) where
  fresh o l hs _ := by
    have hnone : ∀ v ∈ (none : Option Bytes), lf ∉ v := fun v hv => by cases hv
    have hempty : lf ∉ cstr (slice l.clientStream 0 0) := by
      rw [slice_self]
      exact List.not_mem_nil
    exact ⟨⟨fun hl => absurd (show false = true from hl) (by decide), hnone, hnone, hnone⟩, fun _ =>
      ⟨⟨hnone, hnone, hnone⟩, fun hne => absurd hs hne, le_rfl, Nat.zero_le _, hempty, fun _ => le_rfl, fun _ => rfl⟩⟩
  excess o l hs _ := by
    have hnone : ∀ v ∈ (none : Option Bytes), lf ∉ v := fun v hv => by cases hv
    exact ⟨fun hl => absurd (show false = true from hl) (by decide), hnone, hnone, hnone⟩
  weaken h := h.1
  late h hlate := ⟨h, fun hin => absurd (Status.inHeader_iff.mp hin) (by omega)⟩
  refused h hd := h.refused hd
  status h _ := ⟨h.line, h.referer, h.userAgent, h.host⟩
  flush h := ⟨h.line, h.referer, h.userAgent, h.host⟩
  heed _ _ h := ⟨h.line, h.referer, h.userAgent, h.host⟩
  heedMore env c h := by
    obtain ⟨k, hk⟩ := Request.heedSigterm_eq env c
    rw [hk]
    refine ⟨⟨h.1.line, h.1.referer, h.1.userAgent, h.1.host⟩, fun hin => ?_⟩
    have ht := h.2 hin
    exact ⟨⟨ht.referer, ht.userAgent, ht.headerHost⟩, ht.marked, ht.pos, ht.size, ht.text, ht.ended, ht.first⟩
  serve hr _ h := by
    have hw : Whole False _ := (reach_whole (S := False) (fun hS => hS.elim) hr).1 (by simp)
    obtain ⟨hprint, hbroken⟩ := Request.serveOnce_printable _ hw h.1 h.2
    exact ⟨hprint, fun hr => ⟨hprint, hbroken hr⟩⟩
  trace _ := trivial
  release _ _ _ := trivial

/-- Numeric addresses, as `getnameinfo` writes them: no line end is in them. -/
def Peer.Numeric (p : Peer) : Prop := lf ∉ p.localIpAddr ∧ lf ∉ p.remoteIpAddr

/-- Between its rounds a connection is where its run takes it, with the addresses it came with. -/
def Addressed (P : Label → Request → Prop) (c : Request) (p : Place) : Prop :=
  Reach P c p ∧ lf ∉ c.localIpAddr ∧ lf ∉ c.remoteIpAddr

lemma addressed_rule : ConnRule P Peer.Numeric (Addressed P) where
  accept {env peer old} hP hN := by
    refine ⟨.accept env peer old hP, ?_⟩
    unfold Request.getRequest
    dsimp only
    split_ifs
    · have hrefused := Request.sendRServiceUnavailable_refused env
        { { (old.sanitizeNew env).arm env with
            localIpAddr := peer.localIpAddr, remoteIpAddr := peer.remoteIpAddr, remotePort := peer.remotePort } with
          httpVersion := .http10, method := .get }
      obtain ⟨o, code, he, -⟩ := hrefused
      rw [he]
      exact hN
    · exact hN
  pass {env c} hP hc := by
    have hw : Whole False c := (reach_whole (S := False) (fun hS => hS.elim) hc.1).1 (by simp)
    have hsame := Request.processRequest_addresses env hw
    simp only [Request.addresses, Prod.mk.injEq] at hsame
    refine ⟨.pass env hc.1 hP, ?_⟩
    rw [hsame.1, hsame.2]
    exact hc.2
  wake {x c} hP hc := by
    refine ⟨.wake x hc.1 hP, ?_⟩
    cases x with
    | ready => exact hc.2
    | timedOut => exact hc.2
    | dead => exact hc.2

namespace Request

lemma flushed_out (h : c.flushed = some d) : ∃ o, d = { c with toOut := o } := by
  unfold flushed at h
  split_ifs at h
  · dsimp only at h
    generalize { c.toOut with status := .done }.reqFlush = r at h
    obtain ⟨o, f⟩ := r
    cases f with
    | error =>
      cases h
      exact ⟨_, rfl⟩
    | blocked =>
      cases h
      exact ⟨_, rfl⟩
    | left n =>
      cases n with
      | zero =>
        cases h
        exact ⟨_, rfl⟩
      | succ n => cases h
  · cases h
    exact ⟨_, rfl⟩

lemma forLog_code (h : c.forLog env = some d) : ∃ code, d = { c with responseStatus := code } := by
  unfold forLog at h
  dsimp only at h
  split_ifs at h
  · cases h
    exact ⟨_, rfl⟩
  · cases h
    exact ⟨_, rfl⟩

/-- What a round hands to `log_access` is printable. -/
lemma loggedIn_printable (hc : Addressed P c .ready) (h : c.loggedIn env = some d) :
    Printable d ∧ lf ∉ d.localIpAddr ∧ lf ∉ d.remoteIpAddr := by
  have hw : Whole False c := (reach_whole (S := False) (fun hS => hS.elim) hc.1).1 (by simp)
  obtain ⟨hprint, hbroken⟩ := (printable_rule.reach hc.1).more (by simp)
  have hserved := (serveOnce_printable env hw hprint hbroken).1
  have hsame := (of_tied (serveOnce_tied env hw)).2
  simp only [addresses, Prod.mk.injEq] at hsame
  unfold loggedIn at h
  dsimp only at h
  split_ifs at h
  obtain ⟨e, he, hlog⟩ := Option.bind_eq_some_iff.mp h
  obtain ⟨k, hk⟩ := heedSigterm_eq env (c.serveOnce env).1
  rw [hk] at he
  obtain ⟨o, rfl⟩ := flushed_out he
  obtain ⟨code, rfl⟩ := forLog_code hlog
  refine ⟨⟨hserved.line, hserved.referer, hserved.userAgent, hserved.host⟩, ?_, ?_⟩
  · show lf ∉ (c.serveOnce env).1.localIpAddr
    rw [hsame.1]
    exact hc.2.1
  · show lf ∉ (c.serveOnce env).1.remoteIpAddr
    rw [hsame.2]
    exact hc.2.2

end Request

/-- What a run of the server writes to the access log. -/
def accessLog (s : LogSettings) (es : List (Env × Request)) : Bytes := es.flatMap fun e => e.2.logAccess s e.1

/-- Entries that are lines make a log with as many lines. -/
lemma count_flatMap_lines {α : Type} {f g : α → Bytes} {es : List α}
    (h : ∀ e ∈ es, f e = g e ++ [lf] ∧ lf ∉ g e) : (es.flatMap f).count lf = es.length := by
  induction es with
  | nil => rfl
  | cons e es ih =>
    obtain ⟨he, hl⟩ := h e List.mem_cons_self
    have hone : (f e).count lf = 1 := by
      rw [he, List.count_append, List.count_eq_zero_of_not_mem hl]
      rfl
    have hrest := ih fun e' he' => h e' (List.mem_cons_of_mem _ he')
    rw [List.flatMap_cons, List.count_append, hone, hrest, List.length_cons, Nat.add_comm]

variable {W : Type} {M : Watch W} {σ : Sched W × Point} {es : List (Env × Request)} {s : LogSettings}

/-- Whatever the clients send, in either build and whatever order the server takes them in: the access log
has one line for each request that was logged, and each entry is a line of its own. -/
theorem access_log_lines (hM : M.Wakes) (hs : s.accessLogName.isSome) (h : ServerRun M P Peer.Numeric σ es) :
    (accessLog s es).count lf = es.length ∧
      ∀ e ∈ es, e.2.logAccess s e.1 = e.2.logEntry s e.1 ++ [lf] ∧ lf ∉ e.2.logEntry s e.1 := by
  have hsome : ¬ s.accessLogName.isNone = true := by
    rw [← Option.not_isSome, hs]
    decide
  have hlines : ∀ e ∈ es, e.2.logAccess s e.1 = e.2.logEntry s e.1 ++ [lf] ∧ lf ∉ e.2.logEntry s e.1 := by
    intro e he
    obtain ⟨c, hc, -, hlog⟩ := h.logged hM addressed_rule e he
    obtain ⟨hprint, hlocal, hremote⟩ := Request.loggedIn_printable hc hlog
    exact ⟨if_neg hsome, hprint.lf_not_mem_logEntry s e.1 hlocal hremote⟩
  exact ⟨count_flatMap_lines hlines, hlines⟩

/-- The log of a server in UTC. -/
def utcLog : LogSettings where
  accessLogName := some (confText "access_log" (by decide +kernel))
  zone := ⟨tinyEnv.gmtime, fun _ => 0, fun _ => by decide⟩

/-- The host of an absolute URL is the last that is printed of its line. -/
example : Request.loglineText
    { logline := true, clientStream := text "GET http://h/f HTTP/1.0" ++ [0], httpVersion := .http10 } =
      text "GET http://h" := by decide +kernel

/-- A request line without a version is read again as a header line. -/
example : Request.loglineText
    { logline := true
      clientStream := text "POST /a-b:c" ++ [0]
      httpVersion := .http09
      trace := [.optionLine (text "POST /a-b:c")] } =
      text "POST /A_B" := by decide +kernel

/-- A request for a file that is not there. -/
def absentClient : Env := tinyClient "GET /x HTTP/1.0\r\nReferer: y\r\nUser-Agent: z\r\n\r\n"

/-- It has come from the same machine. -/
def absentFirst : Sched FdSets := pairPending.getPending tinyEnv (.ok 7 ⟨text "::1", text "::1", 4711, false⟩) 1

/-- The server has read it. -/
def absentRead : Sched FdSets :=
  (absentFirst.round (selectWatch true) absentClient .nothing 2 1).1.getPending tinyEnv .nothing 2

theorem access_log_lines_absent : ∃ es : List (Env × Request),
    accessLog utcLog es =
        text "::1 - - [04/Jun/2005:03:02:01 +0000] \"GET /x HTTP/1.0\" 404 0 \"y\" \"z\"" ++ [lf] ∧
      (accessLog utcLog es).count lf = es.length ∧
      ∀ e ∈ es, e.2.logAccess utcLog e.1 = e.2.logEntry utcLog e.1 ++ [lf] ∧ lf ∉ e.2.logEntry utcLog e.1 := by
  have hnumeric : Peer.Numeric ⟨text "::1", text "::1", 4711, false⟩ := ⟨by decide +kernel, by decide +kernel⟩
  have hpending : ServerRun (selectWatch true) (fun _ _ => True) Peer.Numeric (pairPending, .loop) [] :=
    .pending true (fun _ => Nat.zero_le _) (.init _ _ 10 _)
  have hfirst : ServerRun (selectWatch true) (fun _ _ => True) Peer.Numeric (absentFirst, .serving (some 1)) [] := by
    refine .beginServe tinyEnv (.ok 7 _) 1 (by decide) (fun _ => trivial) (fun fd peer hacc b => ?_) hpending
    cases hacc
    exact hnumeric
  have hround := ServerRun.round absentClient .nothing 2 1 (by decide +kernel) ⟨trivial, fun _ => trivial⟩
    (fun fd peer hacc => by cases hacc) hfirst
  have hquiet : (absentFirst.conns 1).req.loggedIn absentClient = none := by decide +kernel
  have hend : (absentFirst.round (selectWatch true) absentClient .nothing 2 1).2 = none := by decide +kernel
  rw [hquiet, hend] at hround
  have hread : ServerRun (selectWatch true) (fun _ _ => True) Peer.Numeric
      (absentRead, .serving (absentRead.heads .ready)) [] :=
    .beginServe tinyEnv .nothing 2 (by decide +kernel) (fun _ => trivial) (fun fd peer hacc => by cases hacc)
      hround.endServe
  have hheads : absentRead.heads .ready = some 1 := by decide +kernel
  rw [hheads] at hread
  have hlogged := ServerRun.round tinyEnv .nothing 2 1 (by decide +kernel) ⟨trivial, fun _ => trivial⟩
    (fun fd peer hacc => by cases hacc) hread
  refine ⟨_, ?_, access_log_lines (selectWatch_wakes true) rfl hlogged⟩
  decide +kernel

end Boa
