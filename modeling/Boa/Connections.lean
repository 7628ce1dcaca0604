import Boa.Poll
import Boa.Select

/-! The connections of the server, whatever order it takes them in: each of them runs as one does
alone. -/
namespace Boa
open DList

variable {W : Type} {M : Watch W} {σ : Sched W} {L : Place → List ℕ} {a : ℕ}

/-! ### The requests that are logged -/

namespace Request

/-- The request that `free_request` ends, behind its flush; `none` while there is more to send. -/
def flushed (c : Request) : Option Request :=
  if c.bufferEnd ≠ 0 ∧ c.status < .timedOut then
    let c : Request := { c with status := .done }
    match c.toOut.reqFlush with
    | (o, .error) => some { c with toOut := { o with status := .dead } }
    | (_, .left (_ + 1)) => none
    | (o, .left 0) | (o, .blocked) => some { c with toOut := o }
  else some c

/-- The request as `free_request` hands it to `log_access`, unless it is not logged. -/
def forLog (env : Env) (c : Request) : Option Request :=
  let c := if c.status = .timedOut ∧ c.responseStatus = 0 then { c with responseStatus := 408 } else c
  if c.silent env then none else some c

/-- What a round of `process_requests` hands to `log_access`. -/
def loggedIn (env : Env) (c : Request) : Option Request :=
  let r := c.serveOnce env
  if r.2 = .done then (r.1.heedSigterm env).flushed.bind (forLog env) else none

variable {env : Env} {c d : Request}

lemma freeRequest_flushed (env : Env) (c : Request) :
    c.freeRequest env = match c.flushed with
      | some d => d.endRequest env
      | none => ({ c with toOut := { c.toOut with status := .done }.reqFlush.1 }, .ready) := by
  unfold freeRequest flushed
  split_ifs
  · dsimp only
    generalize { c.toOut with status := .done }.reqFlush = r
    obtain ⟨o, f⟩ := r
    cases f with
    | error => rfl
    | blocked => rfl
    | left n => cases n <;> rfl
  · rfl

/-- The entry of the log is the event of the trace. -/
lemma release_forLog (h : c.forLog env = some d) :
    ∃ es, (c.release env).trace = d.trace ++ [.logged d.responseStatus d.bytesWritten] ++ es := by
  unfold forLog at h
  unfold release
  dsimp only at h ⊢
  generalize (if c.status = .timedOut ∧ c.responseStatus = 0 then { c with responseStatus := 408 } else c) = e at h ⊢
  split_ifs at h
  cases h
  split_ifs
  · exact ⟨[.closed d.dataFd, .closed d.postDataFd], by simp [log]⟩
  · exact ⟨[.closed d.dataFd], by simp [log]⟩
  · exact ⟨[.closed d.postDataFd], by simp [log]⟩
  · exact ⟨[], by simp [log]⟩

lemma endRequest_traces (env : Env) (c : Request) : (c.release env).trace ∈ (c.endRequest env).1.traces := by
  unfold endRequest traces
  dsimp only
  split_ifs
  · exact List.mem_append_left _ (List.mem_append_right _ (List.mem_singleton_self _))
  · exact List.mem_append_right _ (List.mem_singleton_self _)

/-- What a round logs is in the trace of a request of the connection. -/
lemma loggedIn_event (h : c.loggedIn env = some d) : ∃ t ∈ (c.processRequest env).1.traces,
    .logged d.responseStatus d.bytesWritten ∈ t := by
  unfold loggedIn at h
  unfold processRequest
  dsimp only at h ⊢
  generalize c.serveOnce env = r at h ⊢
  obtain ⟨e, ret⟩ := r
  split_ifs at h with hret
  dsimp only at hret
  subst hret
  obtain ⟨f, hf, hlog⟩ := Option.bind_eq_some_iff.mp h
  dsimp only
  rw [freeRequest_flushed, hf]
  obtain ⟨es, he⟩ := release_forLog hlog
  exact ⟨_, endRequest_traces env f, by rw [he]; simp⟩

end Request

/-! ### One round for one connection -/

/-- The build does nothing to a request but watch its descriptors and wake it. -/
structure Watch.Wakes (M : Watch W) : Prop where
  fdSet : ∀ w c fd dir, (M.fdSet w c fd dir).2.req = c.req
  stays : ∀ clock w c, (M.scan clock w c).2.2 = false → (M.scan clock w c).2.1.req = c.req
  wakes : ∀ clock w c, (M.scan clock w c).2.2 = true → ∃ x, (M.scan clock w c).2.1.req = c.req.wake x

/-- What `fdset_update` does to a request that has not timed out. -/
lemma FdSets.check_req (w : FdSets) (c : Conn) (t : ℕ × Dir) : (w.check c t).2.1 = c := by
  unfold check
  split_ifs <;> rfl

lemma selectScan_req (haveSendfile : Bool) (clock : Clock) (w : FdSets) (c : Conn) :
    ((selectWatch haveSendfile).scan clock w c).2.1 = c ∨
      ((selectWatch haveSendfile).scan clock w c).2 = (c.setStatus .timedOut, true) := by
  by_cases htime : c.timedOut clock = true
  · have hlate : ¬Status.timedOut < .done := by decide
    right
    simp [selectWatch, htime, Conn.setStatus, hlate]
  · left
    simp only [selectWatch, htime, Bool.false_eq_true, if_false]
    split
    · exact w.check_req c _
    · cases c.req.status <;> dsimp only
      case ioShuffle =>
        split_ifs
        · rfl
        · exact w.check_req c _
      all_goals first | rfl | exact w.check_req c _

lemma selectWatch_wakes (haveSendfile : Bool) : (selectWatch haveSendfile).Wakes where
  fdSet w c fd dir := rfl
  stays clock w c h := by
    obtain he | he := selectScan_req haveSendfile clock w c
    · rw [he]
    · rw [he] at h
      cases h
  wakes clock w c h := by
    obtain he | he := selectScan_req haveSendfile clock w c
    · exact ⟨.ready, by rw [he]; rfl⟩
    · exact ⟨.timedOut, by rw [he]; rfl⟩

lemma pollWatch_wakes (haveSendfile : Bool) : (pollWatch haveSendfile).Wakes where
  fdSet w c fd dir := rfl
  stays clock w c h := by
    obtain ⟨c', he⟩ | he := pollScan_cases haveSendfile clock w c
    · rw [he] at h
      cases h
    · rw [he]
  wakes clock w c h := by
    simp only [pollWatch] at h ⊢
    split_ifs at h ⊢
    · exact ⟨.dead, rfl⟩
    · exact ⟨.timedOut, rfl⟩
    · exact ⟨.ready, rfl⟩

namespace Sched

/-- The body of the loop of `process_requests` for the request `a`: the handler, `get_request` if a
connection is waiting, and what the return value of the handler asks for. -/
def round (M : Watch W) (σ : Sched W) (env : Env) (acc : Accept) (fresh a : ℕ) : Sched W × Option ℕ :=
  let r := σ.handle env a
  (r.1.getPending env acc fresh).dispatch M env a r.2

end Sched

/-- The runs of the server in which every step of a connection is one that `P` allows and every client
one that `N` allows, with what was handed to `log_access` so far. -/
inductive ServerRun (M : Watch W) (P : Label → Request → Prop) (N : Peer → Prop) :
    Sched W × Point → List (Env × Request) → Prop
  | init (conns : ℕ → Conn) (links : Links ℕ) (maxConnections : ℕ) (w : W) :
      ServerRun M P N (.init conns links maxConnections w, .loop) []
  | watch {σ : Sched W} {es : List (Env × Request)} (w : W) (h : ServerRun M P N (σ, .loop) es) :
      ServerRun M P N ({ σ with watch := w }, .loop) es
  | pending {σ : Sched W} {es : List (Env × Request)} (b : Bool)
      (hb : b = true → σ.totalConnections ≤ σ.maxConnections) (h : ServerRun M P N (σ, .loop) es) :
      ServerRun M P N ({ σ with pendingRequests := b }, .loop) es
  | reload {σ : Sched W} {es : List (Env × Request)} (m : ℕ) (h : ServerRun M P N (σ, .loop) es) :
      ServerRun M P N ({ σ.freeRequests with maxConnections := m }, .loop) es
  | beginUpdate {σ : Sched W} {es : List (Env × Request)} (h : ServerRun M P N (σ, .loop) es) :
      ServerRun M P N (σ, .updating (σ.heads .block)) es
  | update {σ : Sched W} {es : List (Env × Request)} (clock : Clock) (a : ℕ)
      (hP : ∀ x, P (.wake x) (σ.conns a).req) (h : ServerRun M P N (σ, .updating (some a)) es) :
      ServerRun M P N ((σ.updateRound M clock a).1, .updating (σ.updateRound M clock a).2) es
  | endUpdate {σ : Sched W} {es : List (Env × Request)} (h : ServerRun M P N (σ, .updating none) es) :
      ServerRun M P N (σ, .loop) es
  | beginServe {σ : Sched W} {es : List (Env × Request)} (env : Env) (acc : Accept) (fresh : ℕ)
      (hf : fresh ∉ σ.objects) (hP : ∀ old, P (.accept env) old)
      (hN : ∀ fd peer, acc = .ok fd peer → ∀ b, N { peer with tooMany := b })
      (h : ServerRun M P N (σ, .loop) es) :
      ServerRun M P N (σ.getPending env acc fresh, .serving ((σ.getPending env acc fresh).heads .ready)) es
  | round {σ : Sched W} {es : List (Env × Request)} (env : Env) (acc : Accept) (fresh a : ℕ)
      (hf : fresh ∉ σ.objects) (hP : P (.pass env) (σ.conns a).req ∧ ∀ old, P (.accept env) old)
      (hN : ∀ fd peer, acc = .ok fd peer → ∀ b, N { peer with tooMany := b })
      (h : ServerRun M P N (σ, .serving (some a)) es) :
      ServerRun M P N ((σ.round M env acc fresh a).1, .serving (σ.round M env acc fresh a).2)
        (es ++ ((σ.conns a).req.loggedIn env).toList.map (env, ·))
  | endServe {σ : Sched W} {es : List (Env × Request)} (h : ServerRun M P N (σ, .serving none) es) :
      ServerRun M P N (σ, .loop) es

variable {P : Label → Request → Prop} {N : Peer → Prop} {J : Request → Place → Prop} {s : Sched W × Point}
  {es : List (Env × Request)} {env : Env}

/-- A run of the server is a run of its scheduler. -/
lemma ServerRun.reach (h : ServerRun M P N s es) : ∃ keep, SchedReach M keep s := by
  induction h with
  | init conns links m w => exact ⟨_, .init conns links m w⟩
  | watch w _ ih =>
    obtain ⟨_, ih⟩ := ih
    exact ⟨_, .step ih (.watch _ w)⟩
  | pending b hb _ ih =>
    obtain ⟨_, ih⟩ := ih
    exact ⟨_, .step ih (.pending _ b hb)⟩
  | reload m _ ih =>
    obtain ⟨_, ih⟩ := ih
    exact ⟨_, .step ih (.reload _ m)⟩
  | beginUpdate _ ih =>
    obtain ⟨_, ih⟩ := ih
    exact ⟨_, .step ih (.beginUpdate _)⟩
  | update clock a hP _ ih =>
    obtain ⟨_, ih⟩ := ih
    exact ⟨_, .step ih (.update _ clock a)⟩
  | endUpdate _ ih =>
    obtain ⟨_, ih⟩ := ih
    exact ⟨_, .step ih (.endUpdate _)⟩
  | beginServe env acc fresh hf hP hN _ ih =>
    obtain ⟨_, ih⟩ := ih
    exact ⟨_, .step ih (.beginServe _ env acc fresh hf)⟩
  | @round σ _ env acc fresh a hf hP hN _ ih =>
    obtain ⟨_, ih⟩ := ih
    have hhandled := SchedReach.step ih (.handle σ env a)
    exact ⟨_, .step (.step hhandled (.accept (σ.handle env a).1 env acc fresh hf a _)) (.dispatch _ env a _)⟩
  | endServe _ ih =>
    obtain ⟨_, ih⟩ := ih
    exact ⟨_, .step ih (.endServe _)⟩

/-! ### One connection among many -/

/-- What the steps of a connection keep. -/
structure ConnRule (P : Label → Request → Prop) (N : Peer → Prop) (J : Request → Place → Prop) : Prop where
  accept : ∀ {env : Env} {peer : Peer} {old : Request}, P (.accept env) old → N peer →
    J (old.getRequest env peer) .ready
  pass : ∀ {env : Env} {c : Request}, P (.pass env) c → J c .ready →
    J (c.processRequest env).1 (c.processRequest env).2
  wake : ∀ {x : Wake} {c : Request}, P (.wake x) c → J c .block → J (c.wake x) .ready

/-- It holds of each connection that is ready or blocked, except for the one in its round. -/
structure Each (J : Request → Place → Prop) (σ : Sched W) (L : Place → List ℕ) (current : Option ℕ) :
    Prop extends Queues σ L where
  each : ∀ p, p ≠ .free → ∀ b ∈ L p, current ≠ some b → J (σ.conns b).req p

namespace Each

lemma congr {τ : Sched W} {current : Option ℕ} (h : Each J σ L current) (hl : τ.links = σ.links)
    (hh : τ.heads = σ.heads) (ho : τ.objects = σ.objects) (ht : τ.totalConnections = σ.totalConnections)
    (hc : τ.conns = σ.conns) : Each J τ L current :=
  ⟨h.toQueues.congr hl hh ho ht, by rw [hc]; exact h.each⟩

lemma handle (h : Each J σ L none) (env : Env) : Each J (σ.handle env a).1 L (some a) := by
  refine ⟨h.toQueues.congr rfl rfl rfl rfl, fun p hp b hb hne => ?_⟩
  have hba : b ≠ a := fun he => hne (congrArg some he.symm)
  have hsame : (σ.handle env a).1.conns b = σ.conns b := Function.update_of_ne hba _ _
  rw [hsame]
  exact h.each p hp b hb (by simp)

/-- A new connection keeps it. -/
lemma getPending {current : Option ℕ} {fresh : ℕ} {acc : Accept} (h : Each J σ L current) (hJ : ConnRule P N J)
    (hf : fresh ∉ σ.objects) (hP : ∀ old, P (.accept env) old)
    (hN : ∀ fd peer, acc = .ok fd peer → ∀ b, N { peer with tooMany := b }) :
    ∃ L', Each J (σ.getPending env acc fresh) L' current ∧ ∀ b ∈ L .ready, b ∈ L' .ready ∧
      (σ.getPending env acc fresh).conns b = σ.conns b := by
  obtain ⟨L', hq, hblock, hjoin⟩ := h.toQueues.getPending hf env acc
  have hold : ∀ {p b}, p ≠ .free → b ∈ L p → (σ.getPending env acc fresh).conns b = σ.conns b :=
    fun hp hb => h.toQueues.getPending_conns hf hp hb
  refine ⟨L', ⟨hq, fun p hp b hb hne => ?_⟩, fun b hb => ⟨hjoin.ready_mem hb, hold (by decide) hb⟩⟩
  have hkeep (hb : b ∈ L p) : J ((σ.getPending env acc fresh).conns b).req p := by
    rw [hold hp hb]
    exact h.each p hp b hb hne
  cases p with
  | free => exact absurd rfl hp
  | block => exact hkeep (hblock ▸ hb)
  | ready =>
    obtain ⟨hready, -⟩ | ⟨fd, peer, n, c, hacc, -, -, hready, hc, -, m, old, hreq⟩ := hjoin
    · exact hkeep (hready ▸ hb)
    · rw [hready] at hb
      obtain rfl | hb := List.mem_cons.1 hb
      · rw [hc, Function.update_self, hreq]
        exact hJ.accept (hP old) (hN fd peer hacc m)
      · exact hkeep hb

/-- The connection in its round goes where its state belongs. -/
lemma of_moved {τ : Sched W} {p : Place} (h : Each J σ L (some a)) (ha : a ∈ L .ready)
    (hq : Queues τ (moved L .ready p a)) (hc : ∀ b, b ≠ a → τ.conns b = σ.conns b)
    (hJ : p ≠ .free → J (τ.conns a).req p) : Each J τ (moved L .ready p a) none := by
  refine ⟨hq, fun q hne b hb _ => ?_⟩
  obtain ⟨rfl, rfl⟩ | ⟨hba, hb⟩ := (mem_moved h.toLists ha).1 hb
  · exact hJ hne
  · rw [hc b hba]
    exact h.each q hne b hb fun he => hba (Option.some.inj he).symm

/-- It stays on the ready list. -/
lemma of_stays {τ : Sched W} (h : Each J σ L (some a)) (ha : a ∈ L .ready) (hq : Queues τ L)
    (hc : ∀ b, b ≠ a → τ.conns b = σ.conns b) (hJ : J (τ.conns a).req .ready) : Each J τ L none := by
  refine ⟨hq, fun q hne b hb _ => ?_⟩
  by_cases hba : b = a
  · subst hba
    rw [h.apart q .ready b hb ha]
    exact hJ
  · rw [hc b hba]
    exact h.each q hne b hb fun he => hba (Option.some.inj he).symm

end Each

lemma Watch.Wakes.blockRequest (hM : M.Wakes) (a : ℕ) :
    (∀ b, b ≠ a → (σ.blockRequest M a).conns b = σ.conns b) ∧
      ((σ.blockRequest M a).conns a).req = (σ.conns a).req := by
  refine ⟨fun b hb => Function.update_of_ne hb _ _, ?_⟩
  unfold Sched.blockRequest Sched.fdSet
  dsimp only
  rw [Function.update_self, hM.fdSet]
  rfl

/-- `free_request` writes to one request only. -/
lemma Watch.Wakes.freeRequest (hM : M.Wakes) (env : Env) (a : ℕ) :
    (∀ b, b ≠ a → (σ.freeRequest M env a).conns b = σ.conns b) ∧
      ((σ.freeRequest M env a).conns a).req = ((σ.conns a).req.freeRequest env).1 := by
  obtain ⟨-, -, -, -, -, -, h7⟩ := (σ.dequeue .ready a).dropData_fields (M := M) (σ.conns a).req
  have h7 : ((σ.dequeue .ready a).dropData M (σ.conns a).req).conns = σ.conns := h7
  unfold Sched.freeRequest
  dsimp only
  generalize (σ.dequeue .ready a).dropData M (σ.conns a).req = τ at h7 ⊢
  split
  · exact ⟨fun b hb => Function.update_of_ne hb _ _, by simp [Sched.setConn]⟩
  · refine ⟨fun b hb => ?_, ?_⟩
    · simp [Sched.fdClr, Sched.fdSet, Sched.enqueue, Sched.setConn, h7, hb]
    · simp [Sched.fdClr, Sched.fdSet, Sched.enqueue, Sched.setConn, hM.fdSet]
  · refine ⟨fun b hb => ?_, ?_⟩
    · simp [Sched.fdClr, Sched.enqueue, Sched.setConn, h7, hb]
    · simp [Sched.fdClr, Sched.enqueue, Sched.setConn]

/-- Behind its round a connection is where its own run takes it. -/
lemma Each.dispatch {c : Request} {d : Conn} (h : Each J σ L (some a)) (hM : M.Wakes) (ha : a ∈ L .ready)
    (hd : σ.conns a = { d with req := (c.serveOnce env).1.heedSigterm env })
    (hJ : J (c.processRequest env).1 (c.processRequest env).2) :
    ∃ L', Each J (σ.dispatch M env a (c.serveOnce env).2).1 L' none ∧
      ∀ b ∈ (σ.dispatch M env a (c.serveOnce env).2).2, b ∈ L' .ready := by
  have hreq : (σ.conns a).req = (c.serveOnce env).1.heedSigterm env := by rw [hd]
  have htouch : Each J (σ.touch env a) L (some a) := by
    refine ⟨h.toQueues.congr rfl rfl rfl rfl, fun p hp b hb hne => ?_⟩
    have hsame : (σ.touch env a).conns b = σ.conns b :=
      Function.update_of_ne (fun he => hne (congrArg some he.symm)) _ _
    rw [hsame]
    exact h.each p hp b hb hne
  have htouched : ((σ.touch env a).conns a).req = (c.serveOnce env).1.heedSigterm env := by
    simp [Sched.touch, Sched.setConn, hreq]
  unfold Request.processRequest at hJ
  dsimp only at hJ
  generalize (c.serveOnce env).2 = ret at hJ ⊢
  cases ret with
  | blocked =>
    obtain ⟨hother, hself⟩ := hM.blockRequest (σ := σ) a
    refine ⟨_, h.of_moved ha (h.toQueues.blockRequest ha) hother fun _ => ?_, fun b hb => h.toLists.next_moved ha hb⟩
    show J ((σ.blockRequest M a).conns a).req .block
    rw [hself, hreq]
    exact hJ
  | more =>
    refine ⟨L, htouch.of_stays ha htouch.toQueues (fun b _ => rfl) ?_, fun b hb => (h.linked .ready).next_mem ha hb⟩
    show J ((σ.touch env a).conns a).req .ready
    rw [htouched]
    exact hJ
  | done =>
    obtain ⟨hother, hself⟩ := hM.freeRequest (σ := σ.touch env a) env a
    have hq : Queues ((σ.touch env a).freeRequest M env a) _ := htouch.toQueues.freeRequest ha
    rw [htouched] at hself hq
    dsimp only at hJ
    simp only [Sched.dispatch]
    generalize hr : ((c.serveOnce env).1.heedSigterm env).freeRequest env = r at hJ hself hq
    obtain ⟨e, p⟩ := r
    cases p with
    | ready =>
      refine ⟨L, htouch.of_stays ha hq hother ?_, fun b hb => (h.linked .ready).next_mem ha hb⟩
      rw [hself]
      exact hJ
    | block =>
      refine ⟨_, htouch.of_moved ha hq hother fun _ => ?_, fun b hb => h.toLists.next_moved ha hb⟩
      rw [hself]
      exact hJ
    | free =>
      exact ⟨_, htouch.of_moved ha hq hother fun hn => absurd rfl hn, fun b hb => h.toLists.next_moved ha hb⟩

/-- A round of the server for one connection keeps what each connection keeps. -/
lemma Each.round {acc : Accept} {fresh : ℕ} (h : Each J σ L none) (hM : M.Wakes) (hJ : ConnRule P N J)
    (ha : a ∈ L .ready) (hf : fresh ∉ σ.objects) (hP : P (.pass env) (σ.conns a).req ∧ ∀ old, P (.accept env) old)
    (hN : ∀ fd peer, acc = .ok fd peer → ∀ b, N { peer with tooMany := b }) :
    ∃ L', Each J (σ.round M env acc fresh a).1 L' none ∧ ∀ b ∈ (σ.round M env acc fresh a).2, b ∈ L' .ready := by
  have hhandled : Each J (σ.handle env a).1 L (some a) := h.handle env
  obtain ⟨L', hjoined, hsame⟩ := hhandled.getPending hJ hf hP.2 hN
  obtain ⟨ha', hconn⟩ := hsame a ha
  have hpass := hJ.pass hP.1 (h.each .ready (by decide) a ha (by simp))
  exact hjoined.dispatch hM ha' (hconn.trans (Function.update_self _ _ _)) hpass

/-- A round of `fdset_update` or `update_blocked` keeps it. -/
lemma Each.updateRound {clock : Clock} (h : Each J σ L none) (hM : M.Wakes) (hJ : ConnRule P N J) (ha : a ∈ L .block)
    (hP : ∀ x, P (.wake x) (σ.conns a).req) :
    ∃ L', Each J (σ.updateRound M clock a).1 L' none ∧ ∀ b ∈ (σ.updateRound M clock a).2, b ∈ L' .block := by
  have hstays := hM.stays clock σ.watch (σ.conns a)
  have hwakes := hM.wakes clock σ.watch (σ.conns a)
  have hold := h.each .block (by decide) a ha (by simp)
  unfold Sched.updateRound
  dsimp only
  generalize M.scan clock σ.watch (σ.conns a) = r at hstays hwakes ⊢
  obtain ⟨w, c, ready⟩ := r
  dsimp only at hstays hwakes ⊢
  have hq : Queues ({ σ with watch := w }.setConn a c) L := h.toQueues.congr rfl rfl rfl rfl
  have hother (b : ℕ) (hb : b ≠ a) : ({ σ with watch := w }.setConn a c).conns b = σ.conns b :=
    Function.update_of_ne hb _ _
  have hself : ({ σ with watch := w }.setConn a c).conns a = c := Function.update_self _ _ _
  cases ready with
  | false =>
    rw [if_neg (by decide)]
    refine ⟨L, ⟨hq, fun p hp b hb _ => ?_⟩, fun b hb => (h.linked .block).next_mem ha hb⟩
    by_cases hba : b = a
    · subst hba
      rw [hself, hstays rfl]
      exact h.each p hp b hb (by simp)
    · rw [hother b hba]
      exact h.each p hp b hb (by simp)
  | true =>
    rw [if_pos rfl]
    obtain ⟨x, hx⟩ := hwakes rfl
    refine ⟨_, ⟨hq.readyRequest (M := M) ha, fun p hp b hb _ => ?_⟩, fun b hb => h.toLists.next_moved ha hb⟩
    obtain ⟨rfl, rfl⟩ | ⟨hba, hb⟩ := (mem_moved h.toLists ha).1 hb
    · have hready : (({ σ with watch := w }.setConn b c).readyRequest M b).conns b = c := hself
      rw [hready, hx]
      exact hJ.wake (hP x) hold
    · have hready : (({ σ with watch := w }.setConn a c).readyRequest M a).conns b = σ.conns b := hother b hba
      rw [hready]
      exact h.each p hp b hb (by simp)

/-- In every state of the server between two rounds, what the steps of a connection keep holds of each
connection. -/
lemma ServerRun.each (h : ServerRun M P N s es) (hM : M.Wakes) (hJ : ConnRule P N J) :
    ∃ L, Each J s.1 L none ∧ s.2.On L := by
  induction h with
  | init conns links m w =>
    refine ⟨fun _ => [], ⟨⟨⟨fun p => ⟨rfl, trivial, List.nodup_nil⟩, fun p q a ha => ?_⟩, fun a => ?_, rfl⟩,
      fun p _ b hb _ => ?_⟩, trivial⟩
    · cases ha
    · simp [Sched.init]
    · cases hb
  | watch w _ ih =>
    obtain ⟨L, ih, -⟩ := ih
    exact ⟨L, ih.congr rfl rfl rfl rfl rfl, trivial⟩
  | pending b hb _ ih =>
    obtain ⟨L, ih, -⟩ := ih
    exact ⟨L, ih.congr rfl rfl rfl rfl rfl, trivial⟩
  | @reload σ _ m _ ih =>
    obtain ⟨L, ih, -⟩ := ih
    refine ⟨_, ⟨ih.toQueues.freeRequests.congr rfl rfl rfl rfl, fun p hp b hb hn => ?_⟩, trivial⟩
    rw [Function.update_of_ne hp] at hb
    exact ih.each p hp b hb hn
  | beginUpdate _ ih =>
    obtain ⟨L, ih, -⟩ := ih
    exact ⟨L, ih, fun a ha => (ih.linked .block).head_mem ha⟩
  | update clock a hP _ ih =>
    obtain ⟨L, ih, hon⟩ := ih
    exact ih.updateRound hM hJ (hon a rfl) hP
  | endUpdate _ ih =>
    obtain ⟨L, ih, -⟩ := ih
    exact ⟨L, ih, trivial⟩
  | beginServe env acc fresh hf hP hN _ ih =>
    obtain ⟨L, ih, -⟩ := ih
    obtain ⟨L', ih', -⟩ := ih.getPending hJ hf hP hN
    exact ⟨L', ih', fun a ha => (ih'.linked .ready).head_mem ha⟩
  | round env acc fresh a hf hP hN _ ih =>
    obtain ⟨L, ih, hon⟩ := ih
    exact ih.round hM hJ (hon a rfl) hf hP hN
  | endServe _ ih =>
    obtain ⟨L, ih, -⟩ := ih
    exact ⟨L, ih, trivial⟩

/-- What was logged was logged in a round of one of the connections. -/
lemma ServerRun.logged (h : ServerRun M P N s es) (hM : M.Wakes) (hJ : ConnRule P N J) :
    ∀ e ∈ es, ∃ c, J c .ready ∧ P (.pass e.1) c ∧ c.loggedIn e.1 = some e.2 := by
  induction h with
  | init => simp
  | round env acc fresh a hf hP hN hrun ih =>
    intro e he
    obtain he | he := List.mem_append.1 he
    · exact ih e he
    · obtain ⟨d, hd, rfl⟩ := List.mem_map.1 he
      obtain ⟨L, hL, hon⟩ := hrun.each hM hJ
      exact ⟨_, hL.each .ready (by decide) a (hon a rfl) (by simp), hP.1, Option.mem_toList.1 hd⟩
  | _ => assumption

/-- The steps of a connection keep it reachable. -/
lemma reach_rule (P : Label → Request → Prop) (N : Peer → Prop) : ConnRule P N (Reach P) where
  accept hP _ := .accept _ _ _ hP
  pass hP hc := .pass _ hc hP
  wake hP hc := .wake _ hc hP

/-- In every state of the server, in either build and whatever order it takes its connections in, each
connection that is ready or blocked is where its own run takes it, and `log_access` got only what a round
of such a run hands to it. -/
theorem server_connections (hM : M.Wakes) (h : ServerRun M P N s es) :
    (∀ p l, p ≠ .free → Linked s.1.links (s.1.heads p) l → ∀ a ∈ l, Reach P (s.1.conns a).req p) ∧
      ∀ e ∈ es, ∃ c, Reach P c .ready ∧ P (.pass e.1) c ∧ c.loggedIn e.1 = some e.2 := by
  obtain ⟨L, hL, -⟩ := h.each hM (reach_rule P N)
  refine ⟨fun p l hp hl a ha => ?_, h.logged hM (reach_rule P N)⟩
  rw [hl.unique (hL.linked p)] at ha
  exact hL.each p hp a ha (by simp)

/-- The client has closed its end. -/
def hangupEnv : Env := { tinyEnv with client := [.eof] }

/-- The select build, about to look for its first connection. -/
def pairPending : Sched FdSets :=
  { Sched.init (fun _ => { req := {} }) ⟨fun _ => none, fun _ => none⟩ 10 ⟨fun _ _ => false, -1⟩ with
    pendingRequests := true }

/-- A connection has come on descriptor 7. -/
def pairFirst : Sched FdSets := pairPending.getPending tinyEnv (.ok 7 tinyPeer) 1

/-- Nothing could be read from it, and one has come on descriptor 8. -/
def pairSecond : Sched FdSets := (pairFirst.round (selectWatch true) tinyEnv (.ok 8 tinyPeer) 2 1).1

/-- Nothing could be read from that one either. -/
def pairBlocked : Sched FdSets :=
  ((pairSecond.getPending tinyEnv .nothing 3).round (selectWatch true) tinyEnv .nothing 3 2).1

/-- Then `select` reports the first of them. -/
def pairWoken : Sched FdSets :=
  let σ := pairBlocked.setWatch ⟨fun d fd => decide (d = .read ∧ fd = 7), 7⟩
  ((σ.updateRound (selectWatch true) ⟨2, 10, 10⟩ 2).1.updateRound (selectWatch true) ⟨2, 10, 10⟩ 1).1

/-- Its client has hung up. -/
def pairClosed : Sched FdSets := (pairWoken.round (selectWatch true) hangupEnv .nothing 3 1).1

/-- The next connection gets its request object. -/
def pairReused : Sched FdSets := (pairClosed.setPending true).getPending tinyEnv (.ok 9 tinyPeer) 3

abbrev PairRun : Sched FdSets × Point → List (Env × Request) → Prop :=
  ServerRun (selectWatch true) (fun _ _ => True) fun _ => True

lemma PairRun.begin {σ : Sched FdSets} {es : List (Env × Request)} (env : Env) (acc : Accept) (fresh : ℕ)
    (hf : fresh ∉ σ.objects) (h : PairRun (σ, .loop) es) :
    PairRun (σ.getPending env acc fresh, .serving ((σ.getPending env acc fresh).heads .ready)) es :=
  .beginServe env acc fresh hf (fun _ => trivial) (fun _ _ _ _ => trivial) h

lemma PairRun.turn {σ : Sched FdSets} {es : List (Env × Request)} (env : Env) (acc : Accept) (fresh a : ℕ)
    (hf : fresh ∉ σ.objects) (h : PairRun (σ, .serving (some a)) es) :
    PairRun ((σ.round (selectWatch true) env acc fresh a).1,
      .serving (σ.round (selectWatch true) env acc fresh a).2)
      (es ++ ((σ.conns a).req.loggedIn env).toList.map (env, ·)) :=
  .round env acc fresh a hf ⟨trivial, fun _ => trivial⟩ (fun _ _ _ _ => trivial) h

lemma pairBlocked_run : PairRun (pairBlocked, .loop) [] := by
  have hfirst : PairRun (pairFirst, .serving (some 1)) [] :=
    PairRun.begin tinyEnv (.ok 7 tinyPeer) 1 (by decide) (.pending true (fun _ => Nat.zero_le _) (.init _ _ 10 _))
  have hsecond := hfirst.turn tinyEnv (.ok 8 tinyPeer) 2 1 (by decide)
  have hquiet1 : (pairFirst.conns 1).req.loggedIn tinyEnv = none := by decide +kernel
  have hend1 : (pairFirst.round (selectWatch true) tinyEnv (.ok 8 tinyPeer) 2 1).2 = none := by decide
  rw [hquiet1, hend1] at hsecond
  have hsecond : PairRun (pairSecond, .serving none) [] := hsecond
  have hblocked := (PairRun.begin tinyEnv .nothing 3 (by decide) hsecond.endServe).turn tinyEnv .nothing 3 2
    (by decide)
  have hquiet2 : ((pairSecond.getPending tinyEnv .nothing 3).conns 2).req.loggedIn tinyEnv = none := by
    decide +kernel
  have hend2 : ((pairSecond.getPending tinyEnv .nothing 3).round (selectWatch true) tinyEnv .nothing 3 2).2 =
      none := by decide
  rw [hquiet2, hend2] at hblocked
  exact hblocked.endServe

lemma pairWoken_run : PairRun (pairWoken, .serving (some 1)) [] := by
  have hanswer := pairBlocked_run.watch ⟨fun d fd => decide (d = .read ∧ fd = 7), 7⟩
  have hlater := hanswer.beginUpdate.update ⟨2, 10, 10⟩ 2 fun _ => trivial
  have hwoken := hlater.update ⟨2, 10, 10⟩ 1 fun _ => trivial
  have hend : PairRun (pairWoken, .updating none) [] := hwoken
  exact PairRun.begin tinyEnv .nothing 3 (by decide) hend.endUpdate

/-- Two connections, one of them woken and hung up, and one more that gets its request object. -/
theorem server_connections_pair :
    pairReused.heads .ready = some 1 ∧ pairReused.heads .block = some 2 ∧
      Reach (fun _ _ => True) (pairReused.conns 1).req .ready ∧
      Reach (fun _ _ => True) (pairReused.conns 2).req .block ∧
      ∃ es : List (Env × Request), es.length = 1 ∧
        ∀ e ∈ es, ∃ c, Reach (fun _ _ => True) c .ready ∧ True ∧ c.loggedIn e.1 = some e.2 := by
  have hclosed := pairWoken_run.turn hangupEnv .nothing 3 1 (by decide)
  have hlogged : ((pairWoken.conns 1).req.loggedIn hangupEnv).toList.length = 1 := by decide +kernel
  have hend : (pairWoken.round (selectWatch true) hangupEnv .nothing 3 1).2 = none := by decide +kernel
  rw [hend] at hclosed
  have hpending := hclosed.endServe.pending true fun _ => by decide +kernel
  have hreused := PairRun.begin tinyEnv (.ok 9 tinyPeer) 3 (by decide +kernel) hpending
  obtain ⟨hruns, hlog⟩ := server_connections (selectWatch_wakes true) hreused
  have hready : Linked pairReused.links (pairReused.heads .ready) [1] :=
    ⟨by decide +kernel, ⟨by decide +kernel, by decide +kernel, trivial⟩, by decide⟩
  have hblock : Linked pairReused.links (pairReused.heads .block) [2] :=
    ⟨by decide +kernel, ⟨by decide +kernel, by decide +kernel, trivial⟩, by decide⟩
  refine ⟨by decide +kernel, by decide +kernel, hruns .ready [1] (by decide) hready 1 (by simp),
    hruns .block [2] (by decide) hblock 2 (by simp), _, ?_, hlog⟩
  rw [List.nil_append, List.length_map]
  exact hlogged

end Boa
