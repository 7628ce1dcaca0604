import Boa.HeaderRuns

/-! How often a request reaches `process_header_end`. -/
namespace Boa
open Memory History

/-- One call of `process_header_end` at most, and no owned field overwritten. -/
def OnceIn (t : List Event) : Prop := t.count .headerEnd ≤ 1 ∧ ∀ f, .overwrite f ∉ t

/-- Neither a call of `process_header_end` nor an overwritten field. -/
def Event.neutral (e : Event) : Prop := e ≠ .headerEnd ∧ ∀ f, e ≠ .overwrite f

/-- The fields that `process_header_end` fills. -/
def Request.held (c : Request) := (c.pathname, c.scriptName, c.postDataFd)

/-- Between two rounds: in the header, but for the rest of an HTTP/0.9 request,
`process_header_end` is still to come. -/
structure Once (c : Request) : Prop where
  good : OnceIn c.trace
  fresh : c.status.inHeader → (c.logline = true → c.httpVersion ≠ .http09) →
    c.trace.count .headerEnd = 0 ∧ c.held = (none, none, 0)

/-- What was received but not parsed yet completes a blank line. -/
def Request.BlankAhead (c : Request) : Prop :=
  ∃ k, ((c.clientStream.drop c.parsePos).take k).foldl nextStatus c.status = .bodyRead

/-- The header of an accepted HTTP/0.9 request is about to end a second time. -/
def Request.Reentering (c : Request) : Prop :=
  c.status.inHeader ∧ c.logline = true ∧ c.httpVersion = .http09 ∧ c.BlankAhead

/-- The runs in which no HTTP/0.9 request is followed by a blank line. -/
def Single : Label → Request → Prop
  | .pass _, c => ¬ c.Reentering
  | _, _ => True

section Events

variable {t t' : List Event}

lemma Event.neutral_of_later {e : Event} (h : e.later) : e.neutral := by
  constructor
  · rintro rfl
    exact h
  · rintro f rfl
    exact h

lemma Event.neutral_of_answers {e : Event} (h : e.answers) : e.neutral :=
  Event.neutral_of_later (Event.later_of_answers h)

lemma Event.neutral_of_isNote {e : Event} (h : e.isNote) : e.neutral :=
  Event.neutral_of_answers (Event.answers_of_isNote h)

lemma count_of_neutral (h : Adds Event.neutral t t') :
    t'.count .headerEnd = t.count .headerEnd := by
  obtain ⟨es, rfl, hes⟩ := h
  have hnone : Event.headerEnd ∉ es := fun hm => (hes _ hm).1 rfl
  rw [List.count_append, List.count_eq_zero_of_not_mem hnone, Nat.add_zero]

lemma OnceIn.adds (ht : OnceIn t) (h : Adds Event.neutral t t') : OnceIn t' := by
  refine ⟨(count_of_neutral h).le.trans ht.1, fun f hf => ?_⟩
  obtain ⟨es, rfl, hes⟩ := h
  obtain hf | hf := List.mem_append.mp hf
  · exact ht.2 f hf
  · exact (hes _ hf).2 f rfl

end Events

section Steps

variable {env : Env} {c d : Request} {uc : UInt8} {r : Option Ret}

/-- A step that neither ends the header nor fills a field of it. -/
lemma Once.step (h : Once c) (ha : Adds Event.neutral c.trace d.trace)
    (hs : d.status.inHeader → c.status.inHeader) (hl : d.logline = c.logline)
    (hv : d.httpVersion = c.httpVersion) (hp : d.held = c.held) : Once d := by
  refine ⟨h.good.adds ha, fun hin hver => ?_⟩
  rw [hl, hv] at hver
  obtain ⟨h1, h2⟩ := h.fresh (hs hin) hver
  exact ⟨(count_of_neutral ha).trans h1, hp.trans h2⟩

lemma Refused.neutral (h : Refused c d) : Adds Event.neutral c.trace d.trace := by
  obtain ⟨o, code, rfl, -, hr⟩ := h
  exact hr.adds.mono fun e he => Event.neutral_of_answers (Event.answers_of_reply he)

lemma OptionOf.neutral (h : OptionOf c d) : d.trace = c.trace ∧ d.status = c.status ∧
    d.logline = c.logline ∧ d.httpVersion = c.httpVersion ∧ d.held = c.held := by
  obtain ⟨_, _, _, _, _, _, _, _, _, _, _, _, rfl⟩ := h
  exact ⟨rfl, rfl, rfl, rfl, rfl⟩

lemma LoglineOf.neutral (h : LoglineOf c d) : Adds Event.neutral c.trace d.trace ∧
    d.status = c.status ∧ d.held = c.held ∧ d.logline = true ∧ d.bufferStart = c.bufferStart := by
  obtain ⟨_, _, _, _, _, _, rfl, -⟩ := h
  exact ⟨.snoc ⟨nofun, nofun⟩, rfl, rfl, rfl, rfl⟩

/-- The first call of `process_header_end`. -/
lemma processHeaderEnd_onceIn (env : Env) (hstart : c.bufferStart = 0) (ht : OnceIn c.trace)
    (hzero : c.trace.count .headerEnd = 0) (hheld : c.held = (none, none, 0)) :
    OnceIn (c.processHeaderEnd env).1.trace := by
  have hend := (Request.processHeaderEnd_concluded (S := False) env c hstart).adds
  have hmark : OnceIn (c.log .headerEnd).trace := by
    constructor
    · simp [Request.log, List.count_append, hzero]
    · intro f hf
      obtain hf | hf := List.mem_append.mp hf
      · exact ht.2 f hf
      · simp at hf
  refine hmark.adds (hend.mono fun e he => ?_)
  simp only [Request.held, Prod.mk.injEq] at hheld
  obtain he | he := he
  · exact Event.neutral_of_answers he
  · cases e with
    | overwrite f =>
      cases f with
      | postDataFd => exact absurd hheld.2.2 he
      | pathname => exact absurd hheld.1 he
      | scriptName => exact absurd hheld.2.1 he
    | _ => exact he.elim

/-- A byte of the header: the end of the header block comes once. -/
lemma ByteStep.once (h : ByteStep env c uc d r) (hc : Once c) (hp : Parsing False c)
    (hend : (c.advance uc).status = .bodyRead → c.logline = true → c.httpVersion ≠ .http09) :
    OnceIn d.trace ∧ (r ≠ some .done → Once d) := by
  have hin : ∀ {s : Status}, s.inHeader → c.status.inHeader := fun _ => hp.header
  have hstart : c.bufferStart = 0 := hp.start
  have hrefuse : ∀ {e : Request}, OnceIn e.trace → Refused e d → OnceIn d.trace ∧
      (some Ret.done ≠ some .done → Once d) := fun he hd => ⟨he.adds hd.neutral, fun hn => absurd rfl hn⟩
  have hsnoc : ∀ {t : List Event} {e : Event}, OnceIn t → e.neutral → OnceIn (t ++ [e]) :=
    fun ht he => ht.adds (.snoc he)
  cases h with
  | illegal hi hd => exact hrefuse (by exact hsnoc hc.good ⟨nofun, nofun⟩) hd
  | tooLong hi hs hl hd => exact hrefuse (by exact hsnoc hc.good ⟨nofun, nofun⟩) hd
  | skip hi h1 h2 =>
    have hadv : Once (c.advance uc) := hc.step (.refl _) hin rfl rfl rfl
    exact ⟨hadv.good, fun _ => hadv⟩
  | option hi hs hl hd hcount =>
    obtain ⟨ht, hst, hlog, hv, hheld⟩ := hd.neutral
    have hline : Once _ := hc.step (by rw [ht]; exact .snoc ⟨nofun, nofun⟩) hin hlog hv hheld
    exact ⟨hline.good, fun _ => ⟨hline.good, hline.fresh⟩⟩
  | optionStop hi hs hl hd =>
    obtain ⟨e, he, ⟨rfl, -⟩ | ⟨-, hr⟩⟩ := hd
    · obtain ⟨ht, -⟩ := he.neutral
      refine ⟨?_, fun hn => absurd rfl hn⟩
      rw [ht]
      exact hsnoc hc.good ⟨nofun, nofun⟩
    · obtain ⟨ht, -⟩ := he.neutral
      refine hrefuse ?_ hr
      rw [ht]
      exact hsnoc hc.good ⟨nofun, nofun⟩
  | @logline d hi hs hl hd hv =>
    obtain ⟨ha, -, hheld, -⟩ := hd.neutral
    obtain ⟨hzero, hnone⟩ := hc.fresh hp.header fun ht => absurd (hl.symm.trans ht) nofun
    have hgood : OnceIn d.trace := OnceIn.adds hc.good ha
    exact ⟨hgood, fun _ => ⟨hgood, fun _ _ => ⟨(count_of_neutral ha).trans hzero, hheld.trans hnone⟩⟩⟩
  | loglineStop hi hs hl hd he =>
    obtain ⟨ha, -⟩ := hd.neutral
    exact hrefuse (OnceIn.adds hc.good ha) he
  | @short d hi hs hl hd hv =>
    obtain ⟨ha, -, hheld, hlog, hbuf⟩ := hd.neutral
    obtain ⟨hzero, hnone⟩ := hc.fresh hp.header fun ht => absurd (hl.symm.trans ht) nofun
    have hzero' : d.trace.count .headerEnd = 0 := (count_of_neutral ha).trans hzero
    have hgood := processHeaderEnd_onceIn env (hbuf.trans hstart) (OnceIn.adds hc.good ha) hzero'
      (hheld.trans hnone)
    have hkept := Request.of_kept (Request.of_fixed (Request.processHeaderEnd_concluded (S := False) env d
      (hbuf.trans hstart)).fixed).1
    refine ⟨hgood, fun _ => ⟨hgood, fun _ hver => absurd ?_ (hver ?_)⟩⟩
    · exact hkept.2.2.2.2.1.trans hv
    · exact hkept.2.2.2.2.2.2.1.trans hlog
  | finish hi hs =>
    obtain ⟨hzero, hnone⟩ := hc.fresh hp.header (hend hs)
    have hgood : OnceIn ((c.advance uc).processHeaderEnd env).1.trace :=
      processHeaderEnd_onceIn env hstart hc.good hzero hnone
    have hend : OnceIn ((c.advance uc).endHeader env).1.trace :=
      hgood.adds ((endHeader_adds env (c.advance uc)).mono fun _ => Event.neutral_of_answers)
    refine ⟨hend, fun hn => ⟨hend, fun hin => ?_⟩⟩
    exact absurd hin (endHeader_behind hstart fun hd => hn (congrArg some hd))

/-- The status along the bytes of the header. -/
lemma ByteStep.status (h : ByteStep env c uc d none) : d.status = nextStatus c.status uc := by
  cases h with
  | skip hi h1 h2 => rfl
  | option hi hs hl hd hcount => exact hd.neutral.2.1
  | logline hi hs hl hd hv => exact hd.neutral.2.1

/-- The version of a request whose request line was taken in. -/
lemma ByteStep.version (h : ByteStep env c uc d none) (hl : d.logline = true) (hv : d.httpVersion = .http09) :
    c.logline = true ∧ c.httpVersion = .http09 := by
  cases h with
  | skip hi h1 h2 => exact ⟨hl, hv⟩
  | option hi hs hlog hd hcount =>
    obtain ⟨-, -, h1, h2, -⟩ := hd.neutral
    exact ⟨h1.symm.trans hl, h2.symm.trans hv⟩
  | logline hi hs hlog hd hne => exact absurd hv hne

open Request in
/-- The loop of `read_header`, when an HTTP/0.9 request has no blank line ahead. -/
lemma scanHeader_once (env : Env) (bs : Bytes) {c : Request} (hc : Once c) (hp : Parsing False c)
    (hq : c.logline = true → c.httpVersion = .http09 →
      ∀ k, (bs.take k).foldl nextStatus c.status ≠ .bodyRead) :
    OnceIn (scanHeader env c bs).1.trace ∧
      ((scanHeader env c bs).2 ≠ some .done → Once (scanHeader env c bs).1) := by
  induction bs generalizing c with
  | nil => exact ⟨hc.good, fun _ => hc⟩
  | cons uc bs ih =>
    have hstep := headerByte_step env c uc
    have hended := hstep.ended hp
    have hbyte := hstep.once hc hp fun hb hl hv => hq hl hv 1 hb
    unfold scanHeader
    generalize c.headerByte env uc = r at hstep hended hbyte
    obtain ⟨d, _ | ret⟩ := r
    · refine ih (hbyte.2 (by simp)) (hended.1 rfl) fun hl hv k => ?_
      obtain ⟨hlog, hver⟩ := hstep.version hl hv
      rw [hstep.status]
      exact hq hlog hver (k + 1)
    · exact hbyte

lemma readMore_once (hc : Once c) : OnceIn c.readMore.1.trace ∧ (c.readMore.2 ≠ .done → Once c.readMore.1) := by
  have hsnoc : ∀ {e : Event}, e.neutral → OnceIn (c.trace ++ [e]) := fun he => hc.good.adds (.snoc he)
  unfold Request.readMore
  dsimp only
  split_ifs
  · exact ⟨hsnoc ⟨nofun, nofun⟩, fun hn => absurd rfl hn⟩
  · split
    · exact ⟨hc.good, fun _ => ⟨hc.good, hc.fresh⟩⟩
    · exact ⟨hc.good, fun _ => ⟨hc.good, hc.fresh⟩⟩
    · exact ⟨hc.good, fun hn => absurd rfl hn⟩
    · exact ⟨hsnoc ⟨nofun, nofun⟩, fun hn => absurd rfl hn⟩
    · next bs _ =>
      have hread := hc.step (d := { c.popClient.log (.received bs) with clientStream := c.clientStream ++ bs })
        (.snoc ⟨nofun, nofun⟩) id rfl rfl rfl
      exact ⟨hread.good, fun _ => hread⟩

open Request in
lemma readHeader_once (env : Env) (hc : Once c) (hp : Parsing False c)
    (hq : c.logline = true → c.httpVersion = .http09 → ¬ c.BlankAhead) :
    OnceIn (c.readHeader env).1.trace ∧ ((c.readHeader env).2 ≠ .done → Once (c.readHeader env).1) := by
  have hscan := scanHeader_once env (c.clientStream.drop c.parsePos) hc hp fun hl hv k hk => hq hl hv ⟨k, hk⟩
  unfold readHeader
  generalize scanHeader env c (c.clientStream.drop c.parsePos) = r at hscan
  obtain ⟨d, _ | ret⟩ := r
  · have hd : Once d := hscan.2 nofun
    dsimp only
    split_ifs
    · exact readMore_once hd
    · exact ⟨hd.good, fun _ => hd⟩
  · exact ⟨hscan.1, fun hn => hscan.2 fun he => hn (Option.some.inj he)⟩

end Steps

/-- How a header is read in runs without a blank line behind an accepted HTTP/0.9 request. -/
lemma once_rule : HeaderRule Single OnceIn Once where
  nil := ⟨Nat.zero_le _, fun f hf => absurd hf List.not_mem_nil⟩
  later ht h := ht.adds (h.mono fun _ => Event.neutral_of_later)
  fresh o l _ ht := by
    refine ⟨?_, fun _ _ => ⟨?_, rfl⟩⟩
    · show OnceIn o.trace
      rw [ht]
      exact ⟨Nat.zero_le _, fun f hf => absurd hf List.not_mem_nil⟩
    · show o.trace.count .headerEnd = 0
      rw [ht]
      rfl
  heed env c hc := by
    obtain ⟨k, hk⟩ := Request.heedSigterm_eq env c
    rw [hk]
    exact ⟨hc.good, hc.fresh⟩
  read env c hP hp _ hc := by
    have harm : Once (c.arm env) := ⟨hc.good, hc.fresh⟩
    exact readHeader_once env harm hp fun hlog hv hb => hP ⟨hp.header, hlog, hv, hb⟩

/-- In runs without a blank line behind an accepted HTTP/0.9 request, every request calls
`process_header_end` at most once and overwrites nothing it holds. -/
theorem headerEnd_once {c : Request} {p : Place} (h : Reach Single c p) :
    ∀ t ∈ c.traces, t.count .headerEnd ≤ 1 ∧ ∀ f, .overwrite f ∉ t := by
  exact (once_rule.reach h).1

/-- A server with an alias and a directory for temporary files. -/
def aliasConfig : Config :=
  { tinyConfig with
    aliasHashtable := List.replicate aliasHashtableSize
      [⟨confText "/a" text_a, confText "/x" text_x, .alias, confText_a_ne, confText_x_ne⟩] }

def aliasEnv : Env := { tinyEnv with cfg := aliasConfig, tempFd := 7 }

/-- The client sends `request`. -/
def aliasClient (request : String) : Env := { aliasEnv with client := [.data (text request)] }

/-- A request that was received but not parsed yet. -/
def receivedGet : Request := ((Request.getRequest aliasEnv tinyPeer {}).processRequest
  (aliasClient "GET /a HTTP/1.0\r\n\r\n")).1

theorem headerEnd_once_get : (receivedGet.processRequest aliasEnv).1.traces.length = 1 ∧
    ∀ t ∈ (receivedGet.processRequest aliasEnv).1.traces,
      t.count .headerEnd ≤ 1 ∧ ∀ f, .overwrite f ∉ t := by
  have hread := Reach.pass (P := Single) (aliasClient "GET /a HTTP/1.0\r\n\r\n")
    (.accept aliasEnv tinyPeer {} trivial) fun h => absurd h.2.1 (by decide)
  have hready : ((Request.getRequest aliasEnv tinyPeer {}).processRequest
    (aliasClient "GET /a HTTP/1.0\r\n\r\n")).2 = .ready := by decide +kernel
  rw [hready] at hread
  exact ⟨by decide +kernel,
    headerEnd_once (.pass aliasEnv hread fun h => absurd h.2.1 (by decide +kernel))⟩

/-- A POST without a version stays in the header, and the blank line behind it ends the header
again: the path and the temporary file of the first time are lost. -/
theorem headerEnd_twice : ∃ c p, Reachable c p ∧ ∃ t ∈ c.traces, t.count .headerEnd = 2 ∧
    .overwrite .pathname ∈ t ∧ .overwrite .postDataFd ∈ t := by
  have hstart : Reachable (Request.getRequest aliasEnv tinyPeer {}) .ready := .accept aliasEnv tinyPeer {} trivial
  have hrun : ((Request.getRequest aliasEnv tinyPeer {}).rounds
      [aliasClient "POST /a\n\n", aliasEnv]).any (fun c =>
        let t := (c.processRequest aliasEnv).1.trace
        decide (t.count .headerEnd = 2) && decide (.overwrite .pathname ∈ t) &&
          decide (.overwrite .postDataFd ∈ t)) = true := by
    decide +kernel
  obtain ⟨c, hc, ht⟩ := (Option.any_eq_true _ _).mp hrun
  have hreach : Reachable c .ready := reach_rounds hstart (fun _ => trivial) (fun _ _ _ => trivial) hc
  simp only [Bool.and_eq_true, decide_eq_true_eq] at ht
  exact ⟨_, _, .pass aliasEnv hreach trivial, (c.processRequest aliasEnv).1.trace, by simp [Request.traces],
    ht.1.1, ht.1.2, ht.2⟩

end Boa
