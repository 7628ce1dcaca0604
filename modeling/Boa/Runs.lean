import Boa.Rounds

/-! Whole runs of a connection. -/
namespace Boa
open Memory History

variable {S : Prop}

/-- The client socket answers neither with an interrupt nor with an error. -/
def Env.Steady (env : Env) : Prop := ∀ r ∈ env.sock, r ≠ .intr ∧ r ≠ .err

instance (env : Env) : Decidable env.Steady :=
  inferInstanceAs (Decidable (∀ r ∈ env.sock, r ≠ WriteRes.intr ∧ r ≠ .err))

namespace Request

/-- The traces of all requests of a connection. -/
def traces (c : Request) : List (List Event) := c.past ++ [c.trace]

/-- For every request of the connection, what was sent is a prefix of what was produced. -/
def Ordered (c : Request) : Prop := ∀ t ∈ c.traces, sentBytes t <+: produced t

instance (c : Request) : Decidable c.Ordered :=
  inferInstanceAs (Decidable (∀ t ∈ c.traces, sentBytes t <+: produced t))

lemma ordered_iff {c : Request} :
    c.Ordered ↔ (∀ t ∈ c.past, sentBytes t <+: produced t) ∧ sentBytes c.trace <+: produced c.trace := by
  unfold Ordered traces
  constructor
  · intro h
    exact ⟨fun t ht => h t (by simp [ht]), h c.trace (by simp)⟩
  · rintro ⟨h1, h2⟩ t ht
    rcases List.mem_append.mp ht with ht | ht
    · exact h1 t ht
    · rw [List.mem_singleton.mp ht]
      exact h2

end Request

/-- What holds of a request between two rounds. -/
structure Whole (S : Prop) (c : Request) : Prop where
  live : c.status < .timedOut → ∀ env : Env, (S → env.Steady) → Live S (c.arm env)
  order : S → c.Ordered

lemma Live.arm {c : Request} (h : Live S c) {env : Env} (hs : S → env.Steady) : Live S (c.arm env) :=
  ⟨⟨⟨h.start_le, h.end_le, h.size⟩, hs, h.flow, h.pipe⟩, h.early, h.body⟩

/-- What does not depend on the socket holds on any socket. -/
lemma Live.weaken {c : Request} (h : Live S c) {xs : List WriteRes} : Live False { c with sock := xs } :=
  ⟨⟨⟨h.start_le, h.end_le, h.size⟩, False.elim, False.elim, h.pipe⟩, h.early, h.body⟩

lemma Live.whole {c : Request} (h : Live S c) (hp : S → ∀ t ∈ c.past, sentBytes t <+: produced t) :
    Whole S c :=
  ⟨fun _ _ hs => h.arm hs, fun hS => Request.ordered_iff.mpr ⟨hp hS, h.toFlow.order hS⟩⟩

lemma Live.heedSigterm {c : Request} (h : Live S c) (env : Env) : Live S (c.heedSigterm env) := by
  unfold Request.heedSigterm
  split_ifs
  · exact ⟨⟨h.toBufOk, h.steady, h.flow, h.pipe⟩, h.early, h.body⟩
  · exact h

lemma Over.heedSigterm {c : Request} (h : Over S c) (env : Env) : Over S (c.heedSigterm env) := by
  unfold Request.heedSigterm
  split_ifs
  · exact ⟨h.ok, h.steady, h.flow, h.order⟩
  · exact h

lemma Refused.past {c d : Request} (h : Refused c d) : d.past = c.past := by
  obtain ⟨o, code, rfl, -⟩ := h
  rfl

/-- What a connection keeps over the rounds of a request: the earlier requests, and its addresses. -/
def Request.tied (c : Request) := (c.past, c.addresses)

lemma Request.of_tied {c d : Request} (h : d.tied = c.tied) : d.past = c.past ∧ d.addresses = c.addresses := by
  simpa only [Request.tied, Prod.mk.injEq] using h

lemma Request.tied_of_kept {c d : Request} (h : d.kept = c.kept) : d.tied = c.tied :=
  Prod.ext (Request.of_kept h).2.2.1 (congrArg Prod.fst (Request.noted_of_kept h) : d.addresses = c.addresses)

lemma Refused.tied {c d : Request} (h : Refused c d) : d.tied = c.tied := by
  obtain ⟨o, code, rfl, -⟩ := h
  rfl

lemma LoglineOf.tied {c d : Request} (h : LoglineOf c d) : d.tied = c.tied := by
  obtain ⟨_, _, _, _, _, _, rfl, -⟩ := h
  rfl

lemma OptionOf.tied {c d : Request} (h : OptionOf c d) : d.tied = c.tied := by
  obtain ⟨_, _, _, _, _, _, _, _, _, _, _, _, rfl⟩ := h
  rfl

/-- A byte of the header leaves the connection as it is. -/
lemma ByteStep.tied {env : Env} {c d : Request} {uc : UInt8} {r : Option Ret}
    (h : ByteStep env c uc d r) (h0 : c.bufferStart = 0) : d.tied = c.tied := by
  have hend : ∀ e : Request, e.bufferStart = 0 → (e.processHeaderEnd env).1.tied = e.tied := fun e he =>
    Request.tied_of_kept (Request.of_fixed
      (Request.processHeaderEnd_concluded (S := False) env e he).fixed).1
  cases h with
  | illegal hi hd => exact hd.tied
  | skip hi h1 h2 => rfl
  | tooLong hi hs hl hd => exact hd.tied
  | option hi hs hl hd hcount => exact hd.tied
  | optionStop hi hs hl hd =>
    obtain ⟨e, he, ⟨rfl, -⟩ | ⟨-, hr⟩⟩ := hd
    · exact he.tied
    · exact hr.tied.trans he.tied
  | logline hi hs hl hd hv => exact hd.tied
  | loglineStop hi hs hl hd he => exact he.tied.trans hd.tied
  | @short d hi hs hl hd hv =>
    have hstart : d.bufferStart = 0 := by
      obtain ⟨_, _, _, _, _, _, rfl, -⟩ := hd
      exact h0
    exact (hend d hstart).trans hd.tied
  | finish hi hs =>
    have h1 := hend (c.advance uc) h0
    rcases Request.endHeader_cases env (c.advance uc) with ⟨-, he⟩ | ⟨-, he⟩ | ⟨-, -, he⟩
    · rw [he]
      exact h1
    · rw [he]
      exact h1
    · rw [he]
      obtain ⟨_, _, _, _, hb | ⟨e, hb, href⟩⟩ :=
        Request.startBody_cases env ((c.advance uc).processHeaderEnd env).1
      · rw [hb]
        exact h1
      · rw [hb]
        exact href.tied.trans h1

namespace Request

lemma scanHeader_tied (env : Env) {c : Request} (h : Parsing False c) (bs : Bytes) :
    (scanHeader env c bs).1.tied = c.tied := by
  induction bs generalizing c with
  | nil => rfl
  | cons uc bs ih =>
    have hstep := (headerByte_step env c uc).ended h
    have htied := (headerByte_step env c uc).tied h.start
    unfold scanHeader
    generalize c.headerByte env uc = r at hstep htied
    obtain ⟨d, _ | ret⟩ := r
    · exact (ih (hstep.1 rfl)).trans htied
    · exact htied

lemma readMore_tied (c : Request) : c.readMore.1.tied = c.tied := by
  unfold readMore
  dsimp only
  split_ifs
  · rfl
  · split <;> rfl

lemma readHeader_tied {env : Env} {c : Request} (h : Parsing False c) :
    (c.readHeader env).1.tied = c.tied := by
  have hscan := scanHeader_tied env h (c.clientStream.drop c.parsePos)
  unfold readHeader
  generalize scanHeader env c (c.clientStream.drop c.parsePos) = r at hscan
  obtain ⟨d, _ | ret⟩ := r
  · dsimp only
    split_ifs
    · exact (readMore_tied d).trans hscan
    · exact hscan
  · exact hscan

/-- A request that is done for drops its output. -/
lemma serveOnce_dead {env : Env} {c : Request} (h : ¬ c.status < .timedOut) :
    c.serveOnce env = ({ (c.arm env).squashKa with bufferEnd := 0 }, .done) := by
  have hs : (c.arm env).status = .timedOut ∨ (c.arm env).status = .dead := by
    show c.status = .timedOut ∨ c.status = .dead
    revert h
    cases c.status <;> decide
  have hskip : (c.arm env).flushFirst = (c.arm env, .more) := if_neg fun hc => h hc.2
  unfold serveOnce
  rw [hskip]
  dsimp only
  unfold handle
  rcases hs with hs | hs <;> rw [hs]

/-- The flush at the top of a round is a short one, and the handler is run all the same. -/
def ShortFlush (env : Env) (c : Request) : Prop :=
  c.exposed env ∧ c.pending ≠ [] ∧ ∃ n, env.sock.head? = some (.wrote n) ∧ n < c.pending.length

instance (r : Option WriteRes) (k : ℕ) : Decidable (∃ n, r = some (.wrote n) ∧ n < k) :=
  match r with
  | some (.wrote n) => decidable_of_iff (n < k) (by simp)
  | some .again | some .intr | some .err | none => isFalse (by simp)

instance (env : Env) (c : Request) : Decidable (c.ShortFlush env) :=
  inferInstanceAs (Decidable ((_ ∨ _ ∨ _) ∧ _ ∧ ∃ n, _ ∧ n < c.pending.length))

lemma serveOnce_ended {env : Env} {c : Request} (h : Whole S c) (hs : S → env.Steady)
    (hq : S → ¬ c.ShortFlush env) : Ended S (c.serveOnce env) := by
  by_cases hlive : c.status < .timedOut
  · have hc := h.live hlive env hs
    obtain ⟨h1, h2⟩ := flushFirst_ended hc hlive
    unfold serveOnce
    generalize (c.arm env).flushFirst = r at h1 h2
    obtain ⟨d, ret⟩ := r
    cases ret with
    | blocked => exact h1
    | done => exact h1
    | more =>
      obtain ⟨hst, hm, hp⟩ := h2 rfl
      have hd : Live S d := h1.1 (by simp)
      refine handle_ended hd (show d.status < .timedOut by rw [hst]; exact hlive) fun hx hS => ?_
      refine hp.resolve_right fun ⟨hne, k, hk, hlt⟩ => hq hS ⟨?_, hne, k, ?_, hlt⟩
      · have hst : d.status = c.status := hst
        have hm : d.method = c.method := hm
        unfold exposed at hx ⊢
        rw [hst, hm] at hx
        exact hx
      · unfold Out.nextWrite at hk
        cases hsock : env.sock with
        | nil => simp [arm, hsock] at hk
        | cons w ws =>
          simp only [arm, hsock, List.head?_cons, Option.getD_some] at hk
          simp [hk]
  · rw [serveOnce_dead hlive]
    refine Over.ended ⟨fun hl => absurd hl hlive, hs, fun _ hl => absurd hl hlive, fun hS => ?_⟩
    exact (ordered_iff.mp (h.order hS)).2

/-- A round either reads the header or leaves alone what the parser owns. -/
lemma serveOnce_cases (env : Env) {c : Request} (h : Whole False c) :
    (c.status.inHeader ∧ Parsing False (c.arm env) ∧ c.serveOnce env = (c.arm env).readHeader env) ∨
    (¬ c.status.inHeader ∧ Later c (c.serveOnce env).1) := by
  have harm : Later c (c.arm env) := .of_eq rfl rfl rfl
  by_cases hlive : c.status < .timedOut
  · have hc := h.live hlive env (fun hS => hS.elim)
    by_cases hh : c.status.inHeader
    · have h0 : (c.arm env).bufferEnd = 0 :=
        hc.early (Nat.lt_of_lt_of_le (Status.inHeader_iff.mp hh) (by omega))
      have hskip : (c.arm env).flushFirst = (c.arm env, .more) := if_neg fun hcond => hcond.1 h0
      refine .inl ⟨hh, ⟨hc.toFlow.sound (Calm.window fun hp => absurd hp hh.not_piped), hh, h0⟩, ?_⟩
      unfold serveOnce
      rw [hskip]
      dsimp only
      unfold handle
      rw [show (c.arm env).status = c.status from rfl]
      cases hs : c.status <;> first | rfl | (rw [hs] at hh; exact absurd hh (by decide))
    · refine .inr ⟨hh, ?_⟩
      obtain ⟨h1, h2⟩ := flushFirst_ended hc hlive
      have hflush := harm.trans (flushFirst_later (c.arm env))
      unfold serveOnce
      generalize (c.arm env).flushFirst = r at h1 h2 hflush
      obtain ⟨d, ret⟩ := r
      cases ret with
      | blocked => exact hflush
      | done => exact hflush
      | more =>
        have hd : Live False d := h1.1 (by simp)
        have hst : d.status = c.status := (h2 rfl).1
        refine hflush.trans (handle_later (hst ▸ hh) fun hb => ?_)
        rw [(hd.body hb).2]
  · refine .inr ⟨fun hh => hlive ?_, ?_⟩
    · exact Nat.lt_trans (Status.inHeader_iff.mp hh) (by decide)
    · rw [serveOnce_dead hlive]
      exact (harm.trans (.squashKa _)).trans (.of_eq rfl rfl rfl)

lemma serveOnce_tied (env : Env) {c : Request} (h : Whole False c) :
    (c.serveOnce env).1.tied = c.tied := by
  rcases serveOnce_cases env h with ⟨-, hp, he⟩ | ⟨-, hl⟩
  · rw [he]
    exact readHeader_tied hp
  · exact tied_of_kept hl.kept

lemma serveOnce_past (env : Env) {c : Request} (h : Whole False c) :
    (c.serveOnce env).1.past = c.past := (of_tied (serveOnce_tied env h)).1

/-! ### The end of a request -/

/-- `free_request` only notes what it logs and closes. -/
lemma release_spec (env : Env) (c : Request) :
    ∃ es code, c.release env = { c with trace := c.trace ++ es, responseStatus := code } ∧
      (∀ e ∈ es, e.isNote) ∧ (c.status < .timedOut → code = c.responseStatus) := by
  have hnote : ∀ (d : Request) (p : Prop) [Decidable p] (e : Event), e.isNote →
      ∃ es, (if p then d.log e else d) = { d with trace := d.trace ++ es } ∧ ∀ e ∈ es, e.isNote := by
    intro d p _ e he
    split_ifs
    · exact ⟨[e], rfl, by simpa using he⟩
    · exact ⟨[], by simp, by simp⟩
  have hcode : ∃ code, (if c.status = .timedOut ∧ c.responseStatus = 0 then
      { c with responseStatus := 408 } else c) = { c with responseStatus := code } ∧
      (c.status < .timedOut → code = c.responseStatus) := by
    split_ifs with h
    · exact ⟨408, rfl, fun hl => absurd hl (by rw [h.1]; decide)⟩
    · exact ⟨c.responseStatus, rfl, fun _ => rfl⟩
  unfold release
  obtain ⟨code, hc, hlive⟩ := hcode
  rw [hc]
  dsimp only
  have hlog : ∃ es, (if silent env { c with responseStatus := code } then { c with responseStatus := code }
      else Request.log { c with responseStatus := code } (.logged code c.bytesWritten)) =
      { c with trace := c.trace ++ es, responseStatus := code } ∧ ∀ e ∈ es, e.isNote := by
    split_ifs
    · exact ⟨[], by simp, by simp⟩
    · exact ⟨[.logged code c.bytesWritten], rfl, by simp [Event.isNote]⟩
  obtain ⟨es1, h1, hn1⟩ := hlog
  rw [h1]
  obtain ⟨es2, h2, hn2⟩ := hnote { c with trace := c.trace ++ es1, responseStatus := code }
    (c.dataFd ≠ 0) (.closed c.dataFd) rfl
  rw [h2]
  obtain ⟨es3, h3, hn3⟩ := hnote { c with trace := c.trace ++ es1 ++ es2, responseStatus := code }
    (c.postDataFd ≠ 0) (.closed c.postDataFd) rfl
  rw [h3]
  refine ⟨es1 ++ es2 ++ es3, code, by simp, fun e he => ?_, hlive⟩
  simp only [List.mem_append] at he
  rcases he with (he | he) | he
  · exact hn1 e he
  · exact hn2 e he
  · exact hn3 e he

/-- The request that follows `c`, whose trace was `t`, on the same connection. -/
def recycled (c : Request) (t : List Event) : Request :=
  { buffer := c.buffer
    toLink := { c.toLink with
      kacount := c.kacount - 1
      clientStream := c.clientStream.drop c.parsePos
      past := c.past ++ [t] } }

/-- The connection is kept exactly if the request is reusable. -/
lemma endRequest_cases (env : Env) (c : Request) :
    ∃ es code, (∀ e ∈ es, e.isNote) ∧
      ((c.reusable ∧ c.endRequest env = (c.recycled (c.trace ++ es), .block)) ∨
        (c.reusable = false ∧
          c.endRequest env = ({ c with trace := c.trace ++ es, responseStatus := code }, .free))) := by
  obtain ⟨es, code, he, hes, hcode⟩ := release_spec env c
  have hr : (c.release env).reusable = c.reusable := by
    rw [he]
    unfold reusable
    by_cases hl : c.status < .timedOut
    · simp only [hcode hl]
    · simp only [hl, false_and]
  refine ⟨es, code, hes, ?_⟩
  unfold endRequest
  dsimp only
  rw [hr]
  cases hc : c.reusable with
  | true =>
    refine .inl ⟨rfl, ?_⟩
    rw [if_pos rfl, he]
    rfl
  | false =>
    refine .inr ⟨rfl, ?_⟩
    rw [if_neg (by simp), he]

lemma produced_notes {es : List Event} (hes : ∀ e ∈ es, e.isNote) (t : List Event) :
    produced (t ++ es) = produced t ∧ sentBytes (t ++ es) = sentBytes t := by
  induction es using List.reverseRecOn with
  | nil => simp
  | append_singleton es e ih =>
    obtain ⟨h1, h2⟩ := Event.quiet_of_isNote (hes e (by simp))
    obtain ⟨h3, h4⟩ := ih fun e' he' => hes e' (by simp [he'])
    rw [← List.append_assoc, produced_snoc, sentBytes_snoc, h1, h2, h3, h4, List.append_nil]
    exact ⟨rfl, rfl⟩

/-- A kept connection starts again with an empty buffer. -/
lemma recycled_whole {c : Request} {t : List Event} (hb : c.buffer.length = bufferSize + 1)
    (ho : S → ∀ t' ∈ c.past ++ [t], sentBytes t' <+: produced t') : Whole S (c.recycled t) := by
  refine ⟨fun _ env hs => ?_, fun hS => ordered_iff.mpr ⟨ho hS, List.prefix_refl _⟩⟩
  have hbuf : Out.BufOk ((c.recycled t).arm env).toOut := ⟨le_rfl, Nat.zero_le _, hb⟩
  refine Parsing.live ⟨⟨hbuf, hs, fun hS => ?_⟩, show Status.inHeader .readHeader by decide, rfl⟩
  rw [Out.channel, Channel.stream, Out.pending_eq_nil le_rfl]
  rfl

lemma endRequest_whole {env : Env} {c : Request} (h : Over S c)
    (hp : S → ∀ t ∈ c.past, sentBytes t <+: produced t) :
    ((c.endRequest env).2 ≠ .free → Whole S (c.endRequest env).1) ∧
      (S → (c.endRequest env).1.Ordered) := by
  obtain ⟨es, code, hes, ⟨hr, he⟩ | ⟨-, he⟩⟩ := endRequest_cases env c
  · have hlive : c.status < .timedOut := (decide_eq_true_eq.mp hr).1
    rw [he]
    have hw : Whole S (c.recycled (c.trace ++ es)) := by
      refine recycled_whole (h.ok hlive).size fun hS t ht => ?_
      rcases List.mem_append.mp ht with ht | ht
      · exact hp hS t ht
      · rw [List.mem_singleton.mp ht, (produced_notes hes c.trace).1, (produced_notes hes c.trace).2]
        exact h.order hS
    exact ⟨fun _ => hw, hw.order⟩
  · rw [he]
    refine ⟨fun hn => absurd rfl hn, fun hS => ordered_iff.mpr ⟨hp hS, ?_⟩⟩
    show sentBytes (c.trace ++ es) <+: produced (c.trace ++ es)
    rw [(produced_notes hes c.trace).1, (produced_notes hes c.trace).2]
    exact h.order hS

/-- A request that only has its buffer left to send. -/
lemma done_live {c : Request} (h : c.toOut.Sound S) (hs : c.status = .done) : Live S c := by
  refine ⟨h.flowing fun hp => absurd hp ?_, fun hr => absurd hr ?_, fun hb => ?_⟩
  · rw [hs]
    decide
  · rw [hs]
    decide
  · rw [hs] at hb
    cases hb

/-- All `free_request` can do. -/
lemma freeRequest_cases (env : Env) (c : Request) :
    (c.bufferEnd ≠ 0 ∧ c.status < .timedOut ∧
      ∃ n, { c.toOut with status := .done }.reqFlush.2 = .left (n + 1) ∧
        c.freeRequest env = ({ c with toOut := { c.toOut with status := .done }.reqFlush.1 }, .ready)) ∨
    (c.bufferEnd ≠ 0 ∧ c.status < .timedOut ∧ { c.toOut with status := .done }.reqFlush.2 = .error ∧
      c.freeRequest env = { c with toOut :=
        { { c.toOut with status := .done }.reqFlush.1 with status := .dead } }.endRequest env) ∨
    (c.bufferEnd ≠ 0 ∧ c.status < .timedOut ∧
      ({ c.toOut with status := .done }.reqFlush.2 = .left 0 ∨
        { c.toOut with status := .done }.reqFlush.2 = .blocked) ∧
      c.freeRequest env = { c with toOut := { c.toOut with status := .done }.reqFlush.1 }.endRequest env) ∨
    (¬ (c.bufferEnd ≠ 0 ∧ c.status < .timedOut) ∧ c.freeRequest env = c.endRequest env) := by
  unfold freeRequest
  split_ifs with hcond
  · dsimp only
    generalize { c.toOut with status := .done }.reqFlush = r
    obtain ⟨o, fl⟩ := r
    cases fl with
    | error => exact .inr (.inl ⟨hcond.1, hcond.2, rfl, rfl⟩)
    | blocked => exact .inr (.inr (.inl ⟨hcond.1, hcond.2, .inr rfl, rfl⟩))
    | left n =>
      cases n with
      | zero => exact .inr (.inr (.inl ⟨hcond.1, hcond.2, .inl rfl, rfl⟩))
      | succ n => exact .inl ⟨hcond.1, hcond.2, n, rfl, rfl⟩
  · exact .inr (.inr (.inr ⟨hcond, rfl⟩))

/-- A connection that `free_request` keeps still sends, or reads its next request. -/
lemma freeRequest_status {env : Env} {c : Request} (h : Over False c)
    (hp : (c.freeRequest env).2 ≠ .free) :
    (c.freeRequest env).1.status = .done ∨ (c.freeRequest env).1.status = .readHeader := by
  have hend : ∀ d : Request, (d.endRequest env).2 ≠ .free →
      (d.endRequest env).1.status = .readHeader := by
    intro d hd
    obtain ⟨es, code, -, ⟨-, he⟩ | ⟨-, he⟩⟩ := endRequest_cases env d
    · rw [he]
      rfl
    · rw [he] at hd
      exact absurd rfl hd
  obtain ⟨-, hl, n, hn, he⟩ | ⟨-, -, -, he⟩ | ⟨-, -, -, he⟩ | ⟨-, he⟩ := freeRequest_cases env c
  · have hok : Out.BufOk { c.toOut with status := .done } :=
      ⟨(h.ok hl).start_le, (h.ok hl).end_le, (h.ok hl).size⟩
    rw [he]
    exact .inl (Out.reqFlush_left hok hn).2.1
  all_goals
    rw [he] at hp ⊢
    exact .inr (hend _ hp)

lemma freeRequest_whole {env : Env} {c : Request} (h : Over S c)
    (hp : S → ∀ t ∈ c.past, sentBytes t <+: produced t) :
    ((c.freeRequest env).2 ≠ .free → Whole S (c.freeRequest env).1) ∧
      (S → (c.freeRequest env).1.Ordered) := by
  have hdone : c.status < .timedOut → Out.Sound S { c.toOut with status := .done } := fun hl =>
    ⟨⟨(h.ok hl).start_le, (h.ok hl).end_le, (h.ok hl).size⟩, h.steady, fun hS => h.flow hS hl⟩
  rcases freeRequest_cases env c with ⟨-, hl, n, hn, he⟩ | ⟨-, hl, hn, he⟩ | ⟨-, hl, hn, he⟩ | ⟨-, he⟩
  · have hs := Out.reqFlush_sound (hdone hl)
    have hst : { c.toOut with status := .done }.reqFlush.1.status = .done :=
      (Out.reqFlush_left (hdone hl).toBufOk hn).2.1
    have hlive : Live S { c with toOut := { c.toOut with status := .done }.reqFlush.1 } :=
      done_live hs hst
    rw [he]
    exact ⟨fun _ => hlive.whole hp, (hlive.whole hp).order⟩
  · rw [he]
    refine endRequest_whole ?_ hp
    exact Out.Sound.over (Out.setStatus_sound (Out.reqFlush_sound (hdone hl)) .dead)
  · rw [he]
    refine endRequest_whole ?_ hp
    exact Out.Sound.over (Out.reqFlush_sound (hdone hl))
  · rw [he]
    exact endRequest_whole h hp

lemma processRequest_whole {env : Env} {c : Request} (h : Whole S c) (hs : S → env.Steady)
    (hq : S → ¬ c.ShortFlush env) :
    ((c.processRequest env).2 ≠ .free → Whole S (c.processRequest env).1) ∧
      (S → (c.processRequest env).1.Ordered) := by
  have hF : Whole False c :=
    ⟨fun hl env _ => (h.live hl { env with sock := [] } (fun _ r hr => by simp at hr)).weaken, False.elim⟩
  have hend := serveOnce_ended h hs hq
  have hpast := serveOnce_past env hF
  have hp : S → ∀ t ∈ (c.serveOnce env).1.past, sentBytes t <+: produced t := fun hS => by
    rw [hpast]
    exact (ordered_iff.mp (h.order hS)).1
  unfold processRequest
  dsimp only
  generalize c.serveOnce env = r at hend hp
  obtain ⟨d, ret⟩ := r
  have hpast' : (d.heedSigterm env).past = d.past := by
    unfold heedSigterm
    split_ifs <;> rfl
  have hgo : Live S d → Whole S (d.heedSigterm env) := fun hd =>
    (hd.heedSigterm env).whole (hpast' ▸ hp)
  cases ret with
  | blocked => exact ⟨fun _ => hgo (hend.1 (by simp)), (hgo (hend.1 (by simp))).order⟩
  | more => exact ⟨fun _ => hgo (hend.1 (by simp)), (hgo (hend.1 (by simp))).order⟩
  | done => exact freeRequest_whole ((hend.2 rfl).heedSigterm env) (hpast' ▸ hp)

lemma getRequest_whole {env : Env} {peer : Peer} {old : Request} (hs : S → env.Steady) :
    Whole S (old.getRequest env peer) := by
  have hfresh : ∀ c : Request, c.toOut = { buffer := old.buffer.takeD (bufferSize + 1) 0, sock := env.sock } →
      c.toOut.Sound S := by
    intro c hc
    rw [hc]
    refine ⟨⟨le_rfl, Nat.zero_le _, List.takeD_length _ _ _⟩, hs, fun hS => ?_⟩
    rw [Out.channel, Channel.stream, Out.pending_eq_nil le_rfl]
    rfl
  unfold getRequest
  dsimp only
  split_ifs
  · refine Live.whole (done_live ?_ rfl) ?_
    · have href := sendRServiceUnavailable_refused env { (old.sanitizeNew env).arm env with
        localIpAddr := peer.localIpAddr, remoteIpAddr := peer.remoteIpAddr,
        remotePort := peer.remotePort, httpVersion := .http10, method := .get }
      exact Out.setStatus_sound ((href.effect (S := S)).sound (hfresh _ rfl)) .done
    · intro hS t ht
      rw [show Link.past _ = [] from (sendRServiceUnavailable_refused env _).past] at ht
      cases ht
  · refine Live.whole (Parsing.live ⟨hfresh _ rfl, show Status.inHeader .readHeader by decide, rfl⟩) ?_
    exact fun _ t ht => by cases ht

end Request

/-- The steps for which the response stays in order: the socket does not fail, and no
handler that writes past the buffer is run after a short flush. -/
def Orderly : Label → Request → Prop
  | .accept env, _ => env.Steady
  | .pass env, c => env.Steady ∧ ¬ c.ShortFlush env
  | .wake _, _ => True

instance (env : Env) (c : Request) : Decidable (Orderly (.pass env) c) :=
  inferInstanceAs (Decidable (env.Steady ∧ ¬ c.ShortFlush env))

/-- What every step keeps holds in every state reached. -/
lemma reach_whole {P : Label → Request → Prop} (hP : S → ∀ l c, P l c → Orderly l c) {c : Request}
    {p : Place} (h : Reach P c p) : (p ≠ .free → Whole S c) ∧ (S → c.Ordered) := by
  induction h with
  | accept env peer old hp =>
    have hw : Whole S (old.getRequest env peer) := Request.getRequest_whole fun hS => hP hS _ _ hp
    exact ⟨fun _ => hw, hw.order⟩
  | pass env h hp ih =>
    exact Request.processRequest_whole (ih.1 (by simp)) (fun hS => (hP hS _ _ hp).1)
      fun hS => (hP hS _ _ hp).2
  | wake w h hp ih =>
    have hw := ih.1 (by simp)
    refine ⟨fun _ => ?_, fun hS => ?_⟩ <;> cases w
    · exact hw
    · exact ⟨fun hl => absurd hl (show ¬ Status.timedOut < .timedOut by decide), hw.order⟩
    · exact ⟨fun hl => absurd hl (show ¬ Status.dead < .timedOut by decide), hw.order⟩
    · exact hw.order hS
    · exact hw.order hS
    · exact hw.order hS

/-- Rounds one after another, with a blocked request woken at once; `none` once the
connection is given up. -/
def Request.rounds (c : Request) : List Env → Option Request
  | [] => some c
  | env :: envs =>
    match c.processRequest env with
    | (_, .free) => none
    | (c, _) => c.rounds envs

/-- What a run asks of a pass holds of each of these rounds. -/
def Request.Passing (P : Label → Request → Prop) (c : Request) : List Env → Prop
  | [] => True
  | env :: envs => P (.pass env) c ∧ (c.processRequest env).1.Passing P envs

instance decPassing {P : Label → Request → Prop} [∀ env c, Decidable (P (.pass env) c)] :
    (c : Request) → (envs : List Env) → Decidable (c.Passing P envs)
  | _, [] => .isTrue trivial
  | c, env :: envs =>
    have := decPassing (P := P) (c.processRequest env).1 envs
    inferInstanceAs (Decidable (P (.pass env) c ∧ (c.processRequest env).1.Passing P envs))

lemma reach_passing {P : Label → Request → Prop} {c d : Request} {envs : List Env}
    (h : Reach P c .ready) (hw : ∀ c, P (.wake .ready) c) (hp : c.Passing P envs)
    (hd : c.rounds envs = some d) : Reach P d .ready := by
  induction envs generalizing c with
  | nil =>
    cases hd
    exact h
  | cons env envs ih =>
    obtain ⟨hpass, hp⟩ := hp
    have hstep := Reach.pass env h hpass
    unfold Request.rounds at hd
    generalize c.processRequest env = r at hstep hd hp
    obtain ⟨e, place⟩ := r
    cases place with
    | ready => exact ih hstep hp hd
    | block => exact ih (Reach.wake .ready hstep (hw e)) hp hd
    | free => cases hd

/-- The same where the request of the pass makes no difference. -/
lemma reach_rounds {P : Label → Request → Prop} {c d : Request} {envs : List Env}
    (h : Reach P c .ready) (hw : ∀ c, P (.wake .ready) c) (hp : ∀ env ∈ envs, ∀ c, P (.pass env) c)
    (hd : c.rounds envs = some d) : Reach P d .ready := by
  refine reach_passing h hw ?_ hd
  clear h hd
  induction envs generalizing c with
  | nil => trivial
  | cons env envs ih => exact ⟨hp env (by simp) c, ih fun env' h' => hp env' (by simp [h'])⟩

end Boa
