import Boa.Framing
import Boa.HeaderRuns
import Boa.Pipeline
import Boa.Trees

/-! In every run of a connection, the files that answer its requests lie in the trees that the
configuration names. -/
namespace Boa
open Memory History

/-- Nothing was chosen to be served but what `K` lets. -/
def Chooses (K : Bytes → Prop) (c d : Request) : Prop := ∀ p, .serve p ∈ d.trace → .serve p ∈ c.trace ∨ K p

variable {env : Env} {c d e : Request} {K : Bytes → Prop}

namespace Chooses

lemma refl (c : Request) : Chooses K c c := fun _ h => .inl h

lemma trans (h : Chooses K c d) (h' : Chooses K d e) : Chooses K c e :=
  fun p hp => (h' p hp).elim (h p) .inr

lemma of_unmarked (h : Unmarked c d) : Chooses K c d := fun _ hp => .inl ((h.mem_iff rfl).mp hp)

end Chooses

lemma Located.unmarked (h : Located c d) : Unmarked c d := by
  obtain ⟨es, _, _, _, _, _, rfl, hes⟩ := h
  refine .of_adds ⟨es, rfl, fun e he => ?_⟩
  have hlocating := hes e he
  cases e <;> first | rfl | exact hlocating.elim

lemma OptionOf.unmarked (h : OptionOf c d) : Unmarked c d := by
  obtain ⟨_, _, _, _, _, _, _, _, _, _, _, _, rfl⟩ := h
  exact .refl c

lemma LoglineOf.unmarked (h : LoglineOf c d) : Unmarked c d := by
  obtain ⟨_, _, _, _, _, _, rfl, -⟩ := h
  exact .of_adds (.snoc rfl)

namespace Request

/-! ### The end of a header -/

lemma openPostFile_unmarked (env : Env) (c : Request) : Unmarked c (c.openPostFile env).1 := by
  have hfd : Unmarked c (c.setPostDataFd env.tempFd) := by
    unfold setPostDataFd
    split_ifs
    · exact .log c rfl
    · exact .refl c
  have hopen : Unmarked c ((c.setPostDataFd env.tempFd).log (.opened env.tempFd)) := hfd.trans (.log _ rfl)
  unfold openPostFile
  dsimp only
  split_ifs
  · exact hfd.trans (sendRError_refused env _).unmarked
  · exact (hopen.trans (sendRError_refused env _).unmarked).trans (.log _ rfl)
  · exact hopen

/-- The files that may answer are those of `translate_uri`. -/
lemma dispatchUri_chooses (hlaw : env.fs.DotDirs) (hp : Polished c.requestUri)
    (hh : env.cfg.vhostRoot.isSome → IsHost (c.host.getD [])) :
    Chooses (Servable env.cfg env.getHomeDir c.localIpAddr) c (c.dispatchUri env).1 := by
  unfold dispatchUri
  obtain ⟨hr, hl⟩ | ⟨hr, d, hl, hrefused⟩ := translateUri_translated env c
  · cases ht : c.translateUri env with
    | mk d ok =>
      rw [ht] at hr hl
      cases hr
      have hlocated : Chooses (Servable env.cfg env.getHomeDir c.localIpAddr) c d := .of_unmarked hl.unmarked
      dsimp only
      split_ifs with hpost hcgi
      · exact hlocated.trans (.of_unmarked (openPostFile_unmarked env d))
      · exact hlocated.trans (.of_unmarked (initCgi_unmarked env d))
      · refine hlocated.trans fun p hserve => ?_
        have hleads := translateUri_leads ht (not_not.mp hcgi) hp hh
        obtain hold | hchoice := serve_of_initGet (mem_choices.mpr hserve)
        · exact .inl (mem_choices.mp hold)
        · exact .inr (servable_of_choice hleads hlaw hchoice)
  · have hunmarked := hl.unmarked.trans hrefused.unmarked
    generalize c.translateUri env = r at hr hunmarked
    obtain ⟨d, ok⟩ := r
    cases hr
    exact .of_unmarked (hunmarked.trans (.of_eq rfl))

lemma processHeaderEnd_chooses (hlaw : env.fs.DotDirs) (c : Request) :
    Chooses (Servable env.cfg env.getHomeDir c.localIpAddr) c (c.processHeaderEnd env).1 := by
  have hmark : Chooses (Servable env.cfg env.getHomeDir c.localIpAddr) c (c.log .headerEnd) := .of_unmarked (.log c rfl)
  refine hmark.trans ?_
  unfold processHeaderEnd
  cases hu : (c.log .headerEnd).acceptUri env with
  | mk u ok =>
    cases ok with
    | false =>
      obtain ⟨uri, query, host, he | ⟨d, he, hrefused⟩⟩ := acceptUri_cases env (c.log .headerEnd)
      · rw [hu] at he
        cases he
      · rw [hu] at he
        cases he
        exact .of_unmarked hrefused.unmarked
    | true =>
      obtain ⟨hp, hip, hh, ht⟩ := acceptUri_polished hu
      have hdispatch := dispatchUri_chooses hlaw hp hh
      rw [hip] at hdispatch
      have haccepted : Unmarked (c.log .headerEnd) u := .of_eq ht
      exact Chooses.trans (.of_unmarked haccepted) hdispatch

lemma endHeader_chooses (hlaw : env.fs.DotDirs) (c : Request) :
    Chooses (Servable env.cfg env.getHomeDir c.localIpAddr) c (c.endHeader env).1 := by
  have hend := processHeaderEnd_chooses hlaw c
  obtain ⟨-, he⟩ | ⟨-, he⟩ | ⟨-, -, he⟩ := endHeader_cases env c
  · rw [he]
    exact hend
  · rw [he]
    exact hend
  · rw [he]
    obtain ⟨hl, he, size, pos, hb | ⟨e, hb, hrefused⟩⟩ := startBody_cases env (c.processHeaderEnd env).1
    · rw [hb]
      exact hend.trans (.of_unmarked (.of_eq rfl))
    · rw [hb]
      exact hend.trans (.of_unmarked hrefused.unmarked)

end Request

open Request in
lemma ByteStep.chooses {uc : UInt8} {r : Option Ret} (hlaw : env.fs.DotDirs) (h : ByteStep env c uc d r) :
    Chooses (Servable env.cfg env.getHomeDir c.localIpAddr) c d := by
  have hline : Unmarked c (c.advance uc).terminateLine := .of_eq rfl
  cases h with
  | illegal hi hd => exact .of_unmarked ((Unmarked.log c rfl).trans hd.unmarked)
  | skip hi h1 h2 => exact .of_unmarked (.of_eq rfl)
  | tooLong hi hs hl hd => exact .of_unmarked ((hline.trans (.log _ rfl)).trans hd.unmarked)
  | option hi hs hl hd hcount => exact .of_unmarked ((hline.trans (.log _ rfl)).trans (hd.unmarked.trans (.of_eq rfl)))
  | optionStop hi hs hl hd =>
    obtain ⟨e, he, ⟨rfl, -⟩ | ⟨-, hr⟩⟩ := hd
    · exact .of_unmarked ((hline.trans (.log _ rfl)).trans he.unmarked)
    · exact .of_unmarked (((hline.trans (.log _ rfl)).trans he.unmarked).trans hr.unmarked)
  | logline hi hs hl hd hv => exact .of_unmarked (hline.trans (hd.unmarked.trans (.of_eq rfl)))
  | loglineStop hi hs hl hd he => exact .of_unmarked (hline.trans (hd.unmarked.trans he.unmarked))
  | @short d hi hs hl hd hv =>
    have hip : d.localIpAddr = c.localIpAddr := congrArg Prod.fst (of_tied hd.tied).2
    have hend := processHeaderEnd_chooses hlaw d
    rw [hip] at hend
    exact Chooses.trans (.of_unmarked (hline.trans hd.unmarked)) hend
  | finish hi hs =>
    have hend := endHeader_chooses hlaw (c.advance uc)
    have hadvance : Unmarked c (c.advance uc) := .of_eq rfl
    exact Chooses.trans (.of_unmarked hadvance) hend

namespace Request

/-! ### Rounds -/

lemma scanHeader_chooses (hlaw : env.fs.DotDirs) (bs : Bytes) (hp : Parsing False c) :
    Chooses (Servable env.cfg env.getHomeDir c.localIpAddr) c (scanHeader env c bs).1 := by
  induction bs generalizing c with
  | nil => exact .refl c
  | cons uc bs ih =>
    have hstep := headerByte_step env c uc
    have hended := hstep.ended hp
    have htied := (of_tied (hstep.tied hp.start)).2
    have hbyte := hstep.chooses hlaw
    unfold scanHeader
    generalize c.headerByte env uc = r at hended htied hbyte
    obtain ⟨d, _ | ret⟩ := r
    · have hrest := ih (hended.1 rfl)
      rw [show d.localIpAddr = c.localIpAddr from congrArg Prod.fst htied] at hrest
      exact hbyte.trans hrest
    · exact hbyte

lemma readMore_unmarked (c : Request) : Unmarked c c.readMore.1 := by
  unfold readMore
  dsimp only
  split_ifs
  · exact .log c rfl
  · split
    · exact .of_eq rfl
    · exact .of_eq rfl
    · exact .of_eq rfl
    · exact (Unmarked.of_eq rfl).trans (.log c.popClient rfl)
    · exact (Unmarked.of_eq rfl).trans (.log c.popClient rfl)

lemma readHeader_chooses (hlaw : env.fs.DotDirs) (hp : Parsing False c) :
    Chooses (Servable env.cfg env.getHomeDir c.localIpAddr) c (c.readHeader env).1 := by
  have hscan := scanHeader_chooses hlaw (c.clientStream.drop c.parsePos) hp
  unfold readHeader
  generalize scanHeader env c (c.clientStream.drop c.parsePos) = r at hscan
  obtain ⟨d, _ | ret⟩ := r
  · dsimp only
    split_ifs
    · exact hscan.trans (.of_unmarked (readMore_unmarked d))
    · exact hscan
  · exact hscan

lemma readBody_unmarked (env : Env) (c : Request) : Unmarked c (c.readBody env).1 := by
  have hpop : Unmarked c c.popClient := .of_eq rfl
  unfold readBody
  dsimp only
  split_ifs
  · exact .of_eq rfl
  · split
    · exact hpop
    · exact hpop.trans (sendRError_refused env _).unmarked
    · exact hpop.trans (sendRError_refused env _).unmarked
    · exact hpop.trans (sendRBadRequest_refused env _).unmarked
    · have hstore (bs : Bytes) : Unmarked c (c.popClient.storeAtEnd bs) := by
        unfold storeAtEnd
        split <;> exact .of_eq rfl
      exact hstore _

lemma writeBody_unmarked (env : Env) (c : Request) : Unmarked c (c.writeBody env).1 := by
  have hpop : Unmarked c { c with post := c.post.tail } := .of_eq rfl
  unfold writeBody
  dsimp only
  split_ifs
  · exact initCgi_unmarked env { c with headerLine := ⟨.buffer, 0⟩, headerEnd := ⟨.buffer, 0⟩ }
  · exact .of_eq rfl
  · split
    · exact hpop
    · exact hpop
    · exact hpop.trans (sendRError_refused env _).unmarked
    · exact hpop.trans (.log { c with post := c.post.tail } rfl)

/-- Behind the header nothing is chosen any more. -/
lemma handle_unmarked (env : Env) (c : Request) (hout : ¬ c.status.inHeader) : Unmarked c (c.handle env).1 := by
  unfold handle
  cases hs : c.status with
  | readHeader => exact absurd (hs ▸ hout) (by decide)
  | oneCr => exact absurd (hs ▸ hout) (by decide)
  | oneLf => exact absurd (hs ▸ hout) (by decide)
  | twoCr => exact absurd (hs ▸ hout) (by decide)
  | bodyRead => exact readBody_unmarked env c
  | bodyWrite => exact writeBody_unmarked env c
  | write => exact (processGet_carries env c).unmarked
  | pipeRead => exact readFromPipe_unmarked env c
  | pipeWrite => exact writeFromPipe_unmarked c
  | ioShuffle =>
    dsimp only
    split_ifs
    · exact (ioShuffleSendfile_carries env c).unmarked
    · exact (ioShuffle_carries env c).unmarked
  | done => exact (processDone_carries c).unmarked
  | timedOut => exact .of_eq rfl
  | dead => exact .of_eq rfl

lemma serveOnce_chooses (hlaw : env.fs.DotDirs) (hw : Whole False c) :
    Chooses (Servable env.cfg env.getHomeDir c.localIpAddr) c (c.serveOnce env).1 := by
  obtain ⟨-, hp, he⟩ | ⟨hout, -⟩ := serveOnce_cases env hw
  · rw [he]
    exact Chooses.trans (.of_unmarked (.of_eq rfl)) (readHeader_chooses hlaw hp)
  · refine .of_unmarked ?_
    by_cases hlive : c.status < .timedOut
    · obtain ⟨-, hmore⟩ := flushFirst_ended (hw.live hlive env False.elim) hlive
      have hflush : Unmarked c (c.arm env).flushFirst.1 := (flushFirst_carries (c.arm env)).unmarked
      unfold serveOnce
      generalize (c.arm env).flushFirst = r at hflush hmore
      obtain ⟨d, ret⟩ := r
      cases ret with
      | blocked => exact hflush
      | done => exact hflush
      | more =>
        have hst : d.status = c.status := (hmore rfl).1
        exact hflush.trans (handle_unmarked env d (hst ▸ hout))
    · rw [serveOnce_dead hlive]
      exact .of_eq rfl

/-! ### Runs -/

lemma release_addresses (env : Env) (c : Request) : (c.release env).addresses = c.addresses := by
  obtain ⟨es, code, he, -⟩ := release_spec env c
  rw [he]
  rfl

lemma endRequest_addresses (env : Env) (c : Request) : (c.endRequest env).1.addresses = c.addresses := by
  have hrelease := release_addresses env c
  unfold endRequest
  dsimp only
  split_ifs <;> exact hrelease

lemma freeRequest_addresses (env : Env) (c : Request) : (c.freeRequest env).1.addresses = c.addresses := by
  obtain ⟨-, -, n, -, he⟩ | ⟨-, -, -, he⟩ | ⟨-, -, -, he⟩ | ⟨-, he⟩ := freeRequest_cases env c
  · rw [he]
    rfl
  · rw [he, endRequest_addresses]
    rfl
  · rw [he, endRequest_addresses]
    rfl
  · rw [he, endRequest_addresses]

/-- A connection keeps its addresses. -/
lemma processRequest_addresses (env : Env) (hw : Whole False c) :
    (c.processRequest env).1.addresses = c.addresses := by
  have htied := (of_tied (serveOnce_tied env hw)).2
  unfold processRequest
  dsimp only
  generalize c.serveOnce env = r at htied
  obtain ⟨d, ret⟩ := r
  obtain ⟨k, hk⟩ := heedSigterm_eq env d
  have hheed : (d.heedSigterm env).addresses = c.addresses := by
    rw [hk]
    exact htied
  cases ret with
  | blocked => exact hheed
  | more => exact hheed
  | done => exact (freeRequest_addresses env _).trans hheed

end Request

/-- The rounds of a connection are all rounds at its address. -/
lemma Reach.at_address {P : Label → Request → Prop} {p : Place} (h : Reach P c p) :
    Reach (fun l d => P l d ∧ ∀ env, l = .pass env → d.localIpAddr = c.localIpAddr) c p := by
  induction h with
  | accept env peer old hP => exact .accept env peer old ⟨hP, fun _ hl => by cases hl⟩
  | @pass c env hr hP ih =>
    have hw := (reach_whole (S := False) False.elim hr).1 (by simp)
    have hip : (c.processRequest env).1.localIpAddr = c.localIpAddr :=
      congrArg Prod.fst (Request.processRequest_addresses env hw)
    rw [hip]
    exact .pass env ih ⟨hP, fun _ _ => rfl⟩
  | @wake c w hr hP ih =>
    have hip : (c.wake w).localIpAddr = c.localIpAddr := by cases w <;> rfl
    rw [hip]
    exact .wake w ih ⟨hP, fun _ hl => by cases hl⟩

/-- The runs with one configuration and one table of home directories. -/
def Unreloaded (cfg : Config) (homes : Bytes → Option Bytes) : Label → Request → Prop
  | .pass env, _ => env.cfg = cfg ∧ env.getHomeDir = homes ∧ env.fs.DotDirs
  | _, _ => True

/-- How the choices of a connection stay in the trees. -/
lemma servable_rule (cfg : Config) (homes : Bytes → Option Bytes) (ip : Bytes) :
    RunRule (fun l d => Unreloaded cfg homes l d ∧ ∀ env, l = .pass env → d.localIpAddr = ip)
      (fun t => ∀ p, .serve p ∈ t → Servable cfg homes ip p)
      (fun c => ∀ p, .serve p ∈ c.trace → Servable cfg homes ip p)
      fun c => ∀ p, .serve p ∈ c.trace → Servable cfg homes ip p where
  fresh o l hs ht p hp := by
    have hp : .serve p ∈ o.trace := hp
    rw [ht] at hp
    cases hp
  excess o l hs ht p hp := by
    have hp : .serve p ∈ o.trace := hp
    rw [ht] at hp
    cases hp
  weaken h := h
  late h _ := h
  refused h hr p hp := h p ((hr.unmarked.mem_iff rfl).mp hp)
  status h _ := h
  flush h p hp := h p (((Request.reqFlush_carries _).unmarked.mem_iff rfl).mp hp)
  heed _ _ h := h
  heedMore env c h := by
    obtain ⟨k, hk⟩ := Request.heedSigterm_eq env c
    rw [hk]
    exact h
  serve {env c} hr hP h := by
    have hw := (reach_whole (S := False) False.elim hr).1 (by simp)
    obtain ⟨⟨rfl, rfl, hlaw⟩, hip⟩ := hP
    obtain rfl := hip env rfl
    have hserves := Request.serveOnce_chooses hlaw hw
    have hkept : ∀ p, .serve p ∈ (c.serveOnce env).1.trace → Servable env.cfg env.getHomeDir c.localIpAddr p :=
      fun p hp => (hserves p hp).elim (h p) id
    exact ⟨hkept, fun _ => hkept⟩
  trace h := h
  release env c h p hp := by
    obtain hold | ⟨code, hlog⟩ | ⟨fd, hclosed⟩ := (Request.release_closes env c).mem hp
    · exact h p hold
    · cases hlog
    · cases hclosed

/-- Whatever the client asks for, the file that answers is in one of the trees that the configuration names. -/
theorem served_contained {cfg : Config} {homes : Bytes → Option Bytes} {p : Place} (h : Reach (Unreloaded cfg homes) c p) :
    ∀ t ∈ c.traces, ∀ path, .serve path ∈ t → Servable cfg homes c.localIpAddr path :=
  ((servable_rule cfg homes c.localIpAddr).reach h.at_address).traces

def climbingClient : Env := tinyClient "GET /../f HTTP/1.0\r\n\r\n"

/-- A request that tries to climb gets a file of the document root. -/
theorem served_contained_climb :
    .serve (text "/d/f") ∈ ((receivedBy climbingClient).processRequest tinyEnv).1.trace ∧
    ∀ t ∈ ((receivedBy climbingClient).processRequest tinyEnv).1.traces, ∀ path, .serve path ∈ t →
      Servable tinyConfig (fun _ => none) ((receivedBy climbingClient).processRequest tinyEnv).1.localIpAddr path := by
  have hfacts : (lastSegment (text "/d/f") ≠ [dot] ∧ lastSegment (text "/d/f") ≠ parentDir) ∧
      ((Request.getRequest tinyEnv tinyPeer {}).processRequest climbingClient).2 = .ready ∧
      .serve (text "/d/f") ∈ ((receivedBy climbingClient).processRequest tinyEnv).1.trace := by
    decide +kernel
  obtain ⟨hlast, hready, hserve⟩ := hfacts
  have hlaw : tinyFiles.DotDirs := by
    intro path f hopen hdots
    simp only [tinyFiles] at hopen
    split_ifs at hopen with hpath
    subst hpath
    exact absurd hdots (not_or.mpr hlast)
  have hstart : Reach (Unreloaded tinyConfig fun _ => none) (Request.getRequest tinyEnv tinyPeer {}) .ready :=
    .accept tinyEnv tinyPeer {} trivial
  have hread := Reach.pass climbingClient hstart ⟨rfl, rfl, hlaw⟩
  rw [hready] at hread
  exact ⟨hserve, served_contained (.pass tinyEnv hread ⟨rfl, rfl, hlaw⟩)⟩

end Boa
