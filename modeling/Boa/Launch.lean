import Boa.Script
import Boa.Told

/-! The environment that a script is started with. -/
namespace Boa
open Memory History

/-- The strings in front of the NULL that ends the array. -/
def Request.environ (c : Request) : List Bytes := (c.cgiEnv.takeWhile Option.isSome).filterMap id

/-- The byte `uc` ends the header of `b`, and with it a request line of HTTP/0.9; `e` is the
request at that point. -/
inductive EndsHeader (env : Env) (b : Request) (uc : UInt8) : Request → Prop
  | blank (hs : (b.advance uc).status = .bodyRead) : EndsHeader env b uc (b.advance uc)
  | short {e : Request} (hs : (b.advance uc).status = .oneLf)
      (hlong : (b.advance uc).terminateLine.lineLength < maxHeaderLength) (hl : b.logline = false)
      (he : (b.advance uc).terminateLine.processLogline env = (e, true)) (hv : e.httpVersion = .http09) :
      EndsHeader env b uc e

/-- In a round of `c`, `init_cgi` is called on `d` for a script: at the end of the header, or of
the body of a POST. -/
inductive StartsScript (env : Env) (c : Request) : Request → Prop
  | header {b e u d : Request} {pre post : Bytes} {uc : UInt8} (hin : c.status.inHeader)
      (hs : c.clientStream.drop c.parsePos = pre ++ uc :: post)
      (hb : Request.scanHeader env (c.arm env) pre = (b, none)) (hi : illegalChar uc = false)
      (he : EndsHeader env b uc e) (hu : (e.log .headerEnd).acceptUri env = (u, true))
      (hd : u.translateUri env = (d, true)) (hm : d.method ≠ .post) (ht : d.cgiType ≠ .none) :
      StartsScript env c d
  | body (hs : c.status = .bodyWrite) (hw : min c.lineLength (c.filesize - c.filepos) = 0)
      (hf : c.filesize ≤ c.filepos) (ht : c.cgiType ≠ .none) :
      StartsScript env c { c.arm env with headerLine := ⟨.buffer, 0⟩, headerEnd := ⟨.buffer, 0⟩ }

/-- A server that keeps the configuration `cfg` calls `init_cgi` on `d` for a script. -/
def Starts (cfg : Config) (d : Request) : Prop :=
  ∃ env c, Reach (Configured cfg) c .ready ∧ env.cfg = cfg ∧ StartsScript env c d

/-- Two requests over one connection, with one request line, for one script, whose headers give
the same two values. -/
structure SameRequest (c d : Request) : Prop where
  localIpAddr : c.localIpAddr = d.localIpAddr
  remoteIpAddr : c.remoteIpAddr = d.remoteIpAddr
  remotePort : c.remotePort = d.remotePort
  line : loglines c.trace = loglines d.trace
  pathInfo : c.pathInfo = d.pathInfo
  pathTranslated : c.pathTranslated = d.pathTranslated
  scriptName : c.scriptName = d.scriptName
  queryString : c.queryString = d.queryString
  type : firstValue (text "CONTENT_TYPE") (optionLines c.trace) =
    firstValue (text "CONTENT_TYPE") (optionLines d.trace)
  length : firstValue (text "CONTENT_LENGTH") (optionLines c.trace) =
    firstValue (text "CONTENT_LENGTH") (optionLines d.trace)

section Start

variable {cfg : Config} {env : Env} {c d : Request}

namespace Request

lemma scanHeader_cons (uc : UInt8) (l : Bytes) : scanHeader env c (uc :: l) =
    match c.headerByte env uc with
    | (d, some r) => (d, some r)
    | (d, none) => scanHeader env d l := rfl

lemma scanHeader_append {b : Request} {pre : Bytes} (h : scanHeader env c pre = (b, none)) (bs : Bytes) :
    scanHeader env c (pre ++ bs) = scanHeader env b bs := by
  induction pre generalizing c with
  | nil =>
    cases h
    rfl
  | cons uc pre ih =>
    rw [List.cons_append, scanHeader_cons]
    rw [scanHeader_cons] at h
    generalize c.headerByte env uc = r at h ⊢
    obtain ⟨d, _ | ret⟩ := r
    · exact ih h
    · cases (Prod.mk.inj h).2

lemma processHeaderEnd_script {u : Request} (hu : (c.log .headerEnd).acceptUri env = (u, true))
    (hd : u.translateUri env = (d, true)) (hm : d.method ≠ .post) (ht : d.cgiType ≠ .none) :
    c.processHeaderEnd env = d.initCgi env := by
  unfold processHeaderEnd
  rw [hu]
  dsimp only
  unfold dispatchUri
  rw [hd]
  dsimp only
  rw [if_neg hm, if_pos ht]

/-- The calls are those of the round. -/
lemma serveOnce_starts (hw : Whole False c) (h : StartsScript env c d) : c.serveOnce env = d.initCgi env := by
  cases h with
  | @header b e u _ pre post uc hin hs hb hi he hu hd hm ht =>
    have hend := processHeaderEnd_script hu hd hm ht
    have hbyte : b.headerByte env uc = ((d.initCgi env).1, some (d.initCgi env).2) := by
      unfold headerByte
      rw [if_neg (by simpa using hi)]
      dsimp only
      cases he with
      | blank hstatus =>
        have hmethod : (d.initCgi env).1.method ≠ .post := by
          rw [(of_kept (of_fixed (initCgi_effect (S := False) env d).fixed).1).2.2.2.1]
          exact hm
        have hheader : (b.advance uc).endHeader env = d.initCgi env := by
          unfold endHeader
          rw [hend]
          generalize d.initCgi env = r at hmethod ⊢
          obtain ⟨f, ret⟩ := r
          cases ret with
          | done => rfl
          | blocked => exact if_neg hmethod
          | more => exact if_neg hmethod
        rw [if_neg (by rw [hstatus]; decide), if_pos hstatus, hheader]
      | short hstatus hlong hl he hv =>
        rw [if_pos hstatus]
        unfold endLine
        dsimp only
        rw [if_neg (by omega), if_neg (by simp [terminateLine, advance, hl]), he]
        dsimp only
        rw [if_pos hv, hend]
    obtain ⟨-, -, hround⟩ | ⟨hout, -⟩ := serveOnce_cases env hw
    · rw [hround]
      unfold readHeader
      rw [show (c.arm env).clientStream.drop (c.arm env).parsePos = pre ++ uc :: post from hs,
        scanHeader_append hb]
      unfold scanHeader
      rw [hbyte]
    · exact absurd hin hout
  | body hs hwr hf ht =>
    have hlive : c.status < .timedOut := by
      rw [hs]
      decide
    have hempty : c.bufferEnd = 0 := (hw.live hlive env False.elim).early (by
      show c.status.rank < 6
      rw [hs]
      decide)
    rw [serveOnce_of_empty hempty]
    unfold handle
    rw [show (c.arm env).status = .bodyWrite from hs]
    dsimp only
    unfold writeBody
    dsimp only
    rw [if_pos (show min (c.arm env).lineLength ((c.arm env).filesize - (c.arm env).filepos) = 0 from hwr),
      if_pos (show (c.arm env).filesize ≤ (c.arm env).filepos from hf)]

end Request

open Request in
lemma StartsScript.touches (h : StartsScript env c d) : Touches env c d.squashKa := by
  cases h with
  | @header b e u _ pre post uc hin hs hb hi he hu hd hm ht =>
    have hscan : Touches env c b := by
      have harm := (scanHeader_touches env (c.arm env) pre).behind (c := c) rfl rfl
      rw [hb] at harm
      exact harm
    have hend : Touches env b e := by
      cases he with
      | blank hstatus => exact .of_eq rfl rfl
      | short hstatus hlong hl he hv =>
        obtain ⟨f, hf, hcase | ⟨g, hcase, -⟩⟩ := processLogline_cases env (b.advance uc).terminateLine
        · rw [hcase] at he
          cases he
          exact hf.touches.behind rfl rfl
        · rw [hcase] at he
          cases he
    obtain ⟨query, host, rfl⟩ := acceptUri_uri hu
    rcases translateUri_translated env _ with ⟨-, hl⟩ | ⟨hr, -⟩
    · rw [hd] at hl
      have hloc : Touches env e d := hl.touches.behind rfl rfl
      exact (hscan.trans hend).trans (hloc.trans (.of_eq rfl rfl))
    · rw [hd] at hr
      cases hr
  | body hs hwr hf ht => exact .of_eq rfl rfl

/-- How often the URI of a request was cleaned when its script starts: an HTTP/0.9 POST reaches
the end of its header twice. -/
def Request.cleanings (c : Request) : ℕ := if c.httpVersion = .http09 ∧ c.method = .post then 2 else 1

open Request in
lemma Starts.told (h : Starts cfg d) (hcommon : cfg.commonCgiEnv.length ≤ cgiEnvMax) :
    Told cfg d.cleanings d := by
  obtain ⟨env, c, hreach, hcfg, hstart⟩ := h
  have hw := (reach_whole (S := False) (fun hS => hS.elim) hreach).1 nofun
  have hhears : Hears cfg (c.arm env) := (reach_hears hcommon hreach nofun).congr rfl rfl rfl
  cases hstart with
  | @header b e u _ pre post uc hin hs hb hi he hu hd hm ht =>
    obtain ⟨-, hp, -⟩ | ⟨hout, -⟩ := serveOnce_cases env hw
    · have hscan := scanHeader_hears hcfg hcommon pre hp hhears (by rw [hb]; exact nofun)
      have hpb := (scanHeader_ended env hp pre).1 (by rw [hb])
      rw [hb] at hscan hpb
      have hone : d.cleanings = 1 := if_neg fun h => hm h.2
      rw [hone]
      cases he with
      | blank hstatus =>
        have hlog : b.logline = true :=
          acceptUri_logline (c := (b.advance uc).log .headerEnd) (congrArg Prod.snd hu)
        obtain ⟨ht0, hpost⟩ := hscan.head hpb.header hlog
        have hadv : Told cfg _ (b.advance uc) := ht0.congr rfl
        obtain ⟨htold, hmethod, hversion⟩ := hadv.located hcfg hu hd
        have hv : b.httpVersion ≠ .http09 := fun h => hm (hmethod.trans (hpost h))
        rw [if_neg hv] at htold
        exact htold
      | short hstatus hlong hl he hv =>
        have hblank : Blank (b.advance uc).terminateLine := (hscan.blank hpb.header hl).congr rfl
        have hline := hblank.logline hcfg hcommon (by rw [he])
        rw [he] at hline
        exact (hline.located hcfg hu hd).1
    · exact absurd hin hout
  | body hs hwr hf ht =>
    obtain ⟨htold, hpost⟩ := hhears.body (.inr hs)
    refine Told.congr (c := c.arm env) ?_ rfl
    unfold Request.cleanings
    rw [show Request.method _ = .post from hpost, show Request.httpVersion _ = (c.arm env).httpVersion from rfl]
    simpa using htold

/-! ### The array behind `complete_env` -/

lemma takeWhile_isSome {α : Type} {l : List α} {m : List (Option α)} (hl : ∀ i, i < l.length → m.getD i none = l[i]?)
    (hend : m.getD l.length none = none) : m.takeWhile Option.isSome = l.map some := by
  induction l generalizing m with
  | nil =>
    cases m with
    | nil => rfl
    | cons x m =>
      obtain rfl : x = none := hend
      rfl
  | cons a l ih =>
    cases m with
    | nil => simpa using hl 0 (Nat.zero_lt_succ _)
    | cons x m =>
      obtain rfl : x = some a := by simpa using hl 0 (Nat.zero_lt_succ _)
      have hrest : m.takeWhile Option.isSome = l.map some := by
        refine ih (fun i hi => ?_) (by simpa using hend)
        simpa using hl (i + 1) (Nat.succ_lt_succ hi)
      rw [List.takeWhile_cons_of_pos rfl, hrest, List.map_cons]

lemma mem_of_envCell {i : ℕ} {x : Option Bytes} (hi : i < c.cgiEnv.length) (hx : c.envCell i = x) :
    x ∈ c.cgiEnv := by
  unfold Request.envCell at hx
  rw [List.getD_eq_getElem?_getD, List.getElem?_eq_getElem hi, Option.getD_some] at hx
  rw [← hx]
  exact List.getElem_mem hi

open Request in
lemma addCgiEnvs_added {kvs : List (Bytes × Bytes)} (h : (c.addCgiEnvs kvs).2 = true) :
    Added c (c.addCgiEnvs kvs).1 (kvs.map fun kv => envGenExtra kv.1 kv.2 false) := by
  induction kvs generalizing c with
  | nil => exact .refl c
  | cons kv kvs ih =>
    unfold addCgiEnvs at h ⊢
    obtain ⟨hok, hadd⟩ | ⟨hfail, -⟩ := addCgiEnv_added c kv.1 kv.2 false
    · generalize c.addCgiEnv kv.1 kv.2 false = r at hok hadd h ⊢
      obtain ⟨d, ok⟩ := r
      cases hok
      exact hadd.trans (ih h)
    · generalize c.addCgiEnv kv.1 kv.2 false = r at hfail h
      obtain ⟨d, ok⟩ := r
      cases hfail
      cases h

/-- The environment that `complete_env` builds: the common variables, those behind them and the
server's. -/
lemma completeEnv_environ {es : List Bytes} (hindex : c.cgiEnvIndex = cfg.commonCgiEnv.length + es.length)
    (hcells : ∀ i, i < es.length → c.envCell (cfg.commonCgiEnv.length + i) = es[i]?)
    (hr : (c.completeEnv cfg).2 = true) :
    none ∈ (c.completeEnv cfg).1.cgiEnv ∧ (c.completeEnv cfg).1.environ = cfg.commonCgiEnv ++ es ++
      (c.serverVariables cfg).map fun kv => envGenExtra kv.1 kv.2 false := by
  have hcommon : (c.withCommon cfg).cgiEnvIndex = c.cgiEnvIndex := rfl
  have hall : ((c.withCommon cfg).addCgiEnvs (c.serverVariables cfg)).2 = true → Added (c.withCommon cfg) _ _ :=
    addCgiEnvs_added
  have hvars : (c.withCommon cfg).serverVariables cfg = c.serverVariables cfg := rfl
  rw [Request.completeEnv_eq, hvars] at hr ⊢
  generalize (c.withCommon cfg).addCgiEnvs (c.serverVariables cfg) = r at hall hr ⊢
  obtain ⟨e, ok⟩ := r
  cases ok with
  | false => cases hr
  | true =>
    have hadd := hall rfl
    generalize (c.serverVariables cfg).map (fun kv => envGenExtra kv.1 kv.2 false) = vars at hadd ⊢
    have hend := hadd.index
    dsimp only at hend hr ⊢
    split_ifs at hr ⊢ with hroom
    have hcell : ∀ i, ({ e with cgiEnv := store e.cgiEnv e.cgiEnvIndex [none] } : Request).envCell i =
        if i = e.cgiEnvIndex then none else e.envCell i := by
      intro i
      simp only [Request.envCell, getD_store, List.length_singleton]
      split_ifs with h1 h2 h2
      · simp [h2]
      · omega
      · omega
      · rfl
    have hlength : e.cgiEnvIndex < (store e.cgiEnv e.cgiEnvIndex [none]).length := by
      rw [length_store_one]
      omega
    refine ⟨mem_of_envCell (c := { e with cgiEnv := store e.cgiEnv e.cgiEnvIndex [none] }) hlength
      ((hcell _).trans (if_pos rfl)), ?_⟩
    have hsize : (cfg.commonCgiEnv ++ es ++ vars).length = e.cgiEnvIndex := by
      rw [List.length_append, List.length_append]
      omega
    have htake := takeWhile_isSome (l := cfg.commonCgiEnv ++ es ++ vars)
      (m := store e.cgiEnv e.cgiEnvIndex [none]) (fun i hi => ?_) (by
        rw [hsize]
        exact (hcell _).trans (if_pos rfl))
    · unfold Request.environ
      dsimp only
      rw [htake, List.filterMap_map, Function.id_comp, List.filterMap_some]
    · rw [hsize] at hi
      refine (hcell i).trans ?_
      rw [if_neg (by omega), hadd.cells, hcommon]
      by_cases hvar : c.cgiEnvIndex ≤ i ∧ i < e.cgiEnvIndex
      · rw [if_pos hvar, List.getElem?_append_right (by rw [List.length_append]; omega)]
        congr 1
        rw [List.length_append]
        omega
      · rw [if_neg hvar, List.getElem?_append_left (by rw [List.length_append]; omega), Request.envCell_withCommon]
        by_cases hlt : i < cfg.commonCgiEnv.length
        · rw [List.getElem?_append_left hlt, List.getElem?_eq_getElem hlt, Option.some_or]
        · rw [List.getElem?_append_right (by omega), List.getElem?_eq_none (by omega), Option.none_or]
          have hes := hcells (i - cfg.commonCgiEnv.length) (by omega)
          rw [Nat.add_sub_cancel' (by omega)] at hes
          exact hes

lemma Told.environ {k : ℕ} (h : Told cfg k c) (hr : (c.completeEnv cfg).2 = true) :
    none ∈ (c.completeEnv cfg).1.cgiEnv ∧ ∃ es : List Bytes, (∀ e ∈ es, isHttp e) ∧
      (c.completeEnv cfg).1.environ = cfg.commonCgiEnv ++ es ++
        (c.serverVariables cfg).map fun kv => envGenExtra kv.1 kv.2 false := by
  obtain ⟨es, hindex, hcells, hes⟩ := h.vars
  obtain ⟨hend, henv⟩ := completeEnv_environ hindex hcells hr
  exact ⟨hend, es, hes, henv⟩

/-- The `Host` header is the second of the server's variables. -/
lemma serverVariables_host (cfg : Config) (c : Request) : c.serverVariables cfg =
    (text "REQUEST_METHOD", c.method.cgiName) :: ((c.headerHost.map fun v => (text "HTTP_HOST", v)).toList ++
      (Request.serverVariables cfg { c with headerHost := none }).tail) := by
  unfold Request.serverVariables
  cases c.headerHost <;> rfl

lemma isHttp_host (v : Bytes) : isHttp (envGenExtra (text "HTTP_HOST") v false) = true := by
  have hname : text "HTTP_HOST" = text "HTTP_" ++ text "HOST" := by decide +kernel
  refine List.isPrefixOf_iff_prefix.mpr ⟨text "HOST" ++ [61] ++ v, ?_⟩
  simp [envGenExtra, hname, List.append_assoc]

lemma serverVariables_plain (cfg : Config) (c : Request) :
    ((c.serverVariables cfg).map fun kv => envGenExtra kv.1 kv.2 false).filter (fun e => !isHttp e) =
      (((text "REQUEST_METHOD", c.method.cgiName) ::
        (Request.serverVariables cfg { c with headerHost := none }).tail).map fun kv =>
          envGenExtra kv.1 kv.2 false).filter fun e => !isHttp e := by
  rw [serverVariables_host]
  cases c.headerHost with
  | none => rfl
  | some v =>
    simp only [Option.map_some, Option.toList_some, List.map_cons, List.cons_append,
      List.nil_append, List.filter_cons, isHttp_host, Bool.not_true, Bool.false_eq_true, if_false]

/-- The server's variables differ at most in the one that holds the `Host` header. -/
lemma SameRequest.serverVariables {k : ℕ} (h : SameRequest c d) (hc : Told cfg k c) (hd : Told cfg k d) :
    ((c.serverVariables cfg).map fun kv => envGenExtra kv.1 kv.2 false).filter (fun e => !isHttp e) =
      ((d.serverVariables cfg).map fun kv => envGenExtra kv.1 kv.2 false).filter fun e => !isHttp e := by
  obtain ⟨line, uri, hline, hasked, huri⟩ := hc.asked
  obtain ⟨line', uri', hline', hasked', huri'⟩ := hd.asked
  obtain rfl : line = line' := List.singleton_inj.mp (hline.symm.trans (h.line.trans hline'))
  have hsame := Option.some_inj.mp (hasked.symm.trans hasked')
  simp only [Prod.mk.injEq] at hsame
  obtain ⟨hm, hv, rfl⟩ := hsame
  have hu : c.requestUri = d.requestUri := huri.trans huri'.symm
  have ht : c.contentType = d.contentType := hc.type.trans (h.type.trans hd.type.symm)
  have hl : c.contentLength = d.contentLength := hc.length.trans (h.length.trans hd.length.symm)
  rw [serverVariables_plain, serverVariables_plain]
  unfold Request.serverVariables
  simp only [hm, hv, hu, ht, hl, h.localIpAddr, h.remoteIpAddr, h.remotePort, h.pathInfo, h.pathTranslated,
    h.scriptName, h.queryString]

end Start

/-- What a client writes into its header lines does not reach the server's variables: two runs
that differ there start a script with the same environment but for the entries whose names
begin with `HTTP_`, a header line only adds such entries, and the array keeps to its bounds and
ends in a NULL. -/
theorem environ_agree {cfg : Config} (hcommon : cfg.commonCgiEnv.length ≤ cgiEnvMax) :
    (∀ c d, Starts cfg c → Starts cfg d → SameRequest c d → (c.squashKa.completeEnv cfg).2 = true →
      (d.squashKa.completeEnv cfg).2 = true →
      (c.squashKa.completeEnv cfg).1.environ.filter (fun e => !isHttp e) =
        (d.squashKa.completeEnv cfg).1.environ.filter fun e => !isHttp e) ∧
    (∀ env (c : Request), ∃ es, Added c (c.processOptionLine env).1 es ∧ ∀ e ∈ es, isHttp e) ∧
    (∀ c p, Reach (Configured cfg) c p → c.cgiEnv.length ≤ cgiEnvMax + 4) ∧
    ∀ c, Starts cfg c → (c.squashKa.completeEnv cfg).1.cgiEnv.length ≤ cgiEnvMax + 4 ∧
      ((c.squashKa.completeEnv cfg).2 = true → none ∈ (c.squashKa.completeEnv cfg).1.cgiEnv) := by
  have hquiet : ∀ es : List Bytes, (∀ e ∈ es, isHttp e) → es.filter (fun e => !isHttp e) = [] := by
    intro es hes
    refine List.filter_eq_nil_iff.mpr fun e he => ?_
    rw [hes e he]
    decide
  have htold : ∀ c, Starts cfg c → Told cfg c.cleanings c.squashKa := fun c hc => (hc.told hcommon).congr rfl
  refine ⟨fun c d hc hd hsame hcr hdr => ?_, fun env c => (c.processOptionLine_env env).1,
    fun c p h => reach_room hcommon h, fun c hc => ⟨?_, fun hr => ((htold c hc).environ hr).1⟩⟩
  · obtain ⟨-, es, hes, hce⟩ := (htold c hc).environ hcr
    obtain ⟨-, es', hes', hde⟩ := (htold d hd).environ hdr
    have hsame' : SameRequest c.squashKa d.squashKa := ⟨hsame.1, hsame.2, hsame.3, hsame.4, hsame.5, hsame.6,
      hsame.7, hsame.8, hsame.9, hsame.10⟩
    have hclean : d.cleanings = c.cleanings := by
      obtain ⟨line, uri, hline, hasked, -⟩ := (htold c hc).asked
      obtain ⟨line', uri', hline', hasked', -⟩ := (htold d hd).asked
      obtain rfl : line = line' := List.singleton_inj.mp (hline.symm.trans (hsame'.line.trans hline'))
      have heq := Option.some_inj.mp (hasked'.symm.trans hasked)
      simp only [Prod.mk.injEq] at heq
      unfold Request.cleanings
      rw [show d.httpVersion = c.httpVersion from heq.2.1, show d.method = c.method from heq.1]
    have hd' := htold d hd
    rw [hclean] at hd'
    rw [hce, hde, List.filter_append, List.filter_append, List.filter_append, List.filter_append, hquiet es hes,
      hquiet es' hes', hsame'.serverVariables (htold c hc) hd']
  · obtain ⟨env, b, hreach, rfl, hstart⟩ := hc
    have hb := reach_room hcommon hreach
    have hroom := (hstart.touches.trans (Request.completeEnv_touches env c.squashKa)).room
    unfold Env.envRoom at hroom
    omega

/-- A server with one script, `/c`. -/
def scriptServer : Env :=
  { scriptEnv with cfg := { tinyConfig with aliasHashtable := List.replicate aliasHashtableSize [oneScript] } }

/-- A request that was received but for its last line end, which ends the header. -/
def askedScript (header : String) : Request := ((Request.getRequest scriptServer tinyPeer {}).processRequest
  { scriptServer with client := [.data (text ("GET /c HTTP/1.0\n" ++ header ++ "\n"))] }).1

/-- The request when the header is at its end, and when the script is found. -/
def endedScript (header : String) : Request :=
  ((Request.scanHeader scriptServer ((askedScript header).arm scriptServer)
    (text ("GET /c HTTP/1.0\n" ++ header))).1.advance lf)

def foundScript (header : String) : Request :=
  (Request.translateUri scriptServer (((endedScript header).log .headerEnd).acceptUri scriptServer).1).1

lemma foundScript_starts {header : String} (hready : ((Request.getRequest scriptServer tinyPeer {}).processRequest
      { scriptServer with client := [.data (text ("GET /c HTTP/1.0\n" ++ header ++ "\n"))] }).2 = .ready)
    (hin : (askedScript header).status.inHeader)
    (hs : (askedScript header).clientStream.drop (askedScript header).parsePos =
      text ("GET /c HTTP/1.0\n" ++ header) ++ lf :: [])
    (hb : (Request.scanHeader scriptServer ((askedScript header).arm scriptServer)
      (text ("GET /c HTTP/1.0\n" ++ header))).2 = none)
    (he : (endedScript header).status = .bodyRead)
    (hu : (((endedScript header).log .headerEnd).acceptUri scriptServer).2 = true)
    (hd : (Request.translateUri scriptServer (((endedScript header).log .headerEnd).acceptUri scriptServer).1).2 = true)
    (hm : (foundScript header).method ≠ .post) (ht : (foundScript header).cgiType ≠ .none) :
    Starts scriptServer.cfg (foundScript header) := by
  have hread := Reach.pass (P := Configured scriptServer.cfg)
    { scriptServer with client := [.data (text ("GET /c HTTP/1.0\n" ++ header ++ "\n"))] }
    (.accept scriptServer tinyPeer {} ⟨rfl, Nat.zero_le _⟩) rfl
  rw [hready] at hread
  exact ⟨scriptServer, askedScript header, hread, rfl,
    .header hin hs (Prod.ext rfl hb) (by decide) (.blank he) (Prod.ext rfl hu) (Prod.ext rfl hd) hm ht⟩

/-- A header line more changes the environment, but not the server's part of it. -/
theorem environ_agree_lines :
    ((foundScript "").squashKa.completeEnv scriptServer.cfg).1.environ ≠
      ((foundScript "Path-Info: /x\nHost: h\n").squashKa.completeEnv scriptServer.cfg).1.environ ∧
    ((foundScript "").squashKa.completeEnv scriptServer.cfg).1.environ.filter (fun e => !isHttp e) =
      ((foundScript "Path-Info: /x\nHost: h\n").squashKa.completeEnv scriptServer.cfg).1.environ.filter
        fun e => !isHttp e := by
  have h1 : Starts scriptServer.cfg (foundScript "") := foundScript_starts (by decide +kernel) (by decide +kernel)
    (by decide +kernel) (by decide +kernel) (by decide +kernel) (by decide +kernel) (by decide +kernel)
    (by decide +kernel) (by decide +kernel)
  have h2 : Starts scriptServer.cfg (foundScript "Path-Info: /x\nHost: h\n") := foundScript_starts
    (by decide +kernel) (by decide +kernel) (by decide +kernel) (by decide +kernel) (by decide +kernel)
    (by decide +kernel) (by decide +kernel) (by decide +kernel) (by decide +kernel)
  have hsame : SameRequest (foundScript "") (foundScript "Path-Info: /x\nHost: h\n") := by
    constructor <;> decide +kernel
  exact ⟨by decide +kernel, (environ_agree
    (by decide : scriptServer.cfg.commonCgiEnv.length ≤ cgiEnvMax)).1 _ _ h1 h2 hsame
    (by decide +kernel) (by decide +kernel)⟩

end Boa
