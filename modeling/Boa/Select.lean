import Boa.Descriptors
import Boa.Queues

/-! The main loop of the select build (select.c) and its sets of descriptors. -/
namespace Boa
open DList

/-- `block_read_fdset`, `block_write_fdset` and `max_fd`. -/
structure FdSets where
  set : Dir → ℕ → Bool
  maxFd : ℤ

namespace FdSets

/-- `BOA_FD_SET`. -/
def add (w : FdSets) (fd : ℕ) (dir : Dir) : FdSets where
  set d x := decide (d = dir ∧ x = fd) || w.set d x
  maxFd := max w.maxFd fd

/-- `BOA_FD_CLR`. -/
def clear (w : FdSets) (fd : ℕ) (dir : Dir) : FdSets :=
  { w with set := fun d x => !decide (d = dir ∧ x = fd) && w.set d x }

/-- `if (FD_ISSET(..)) ready_request(..) else BOA_FD_SET(..)`. -/
def check (w : FdSets) (c : Conn) (t : ℕ × Dir) : FdSets × Conn × Bool :=
  if w.set t.2 t.1 then (w, c, true) else (w.add t.1 t.2, c, false)

end FdSets

/-- The macros of the select build, and the body of the loop of `fdset_update`. -/
def selectWatch (haveSendfile : Bool) : Watch FdSets where
  haveSendfile := haveSendfile
  fdSet w c fd dir := (w.add fd dir, c)
  fdClr w fd dir := w.clear fd dir
  scan clock w c :=
    let c := if c.timedOut clock then c.setStatus .timedOut else c
    if c.req.bufferEnd ≠ 0 ∧ c.req.status < .done then w.check c (c.fd, .write)
    else
      match c.req.status with
      | .ioShuffle =>
        -- without sendfile the descriptor is not set again
        if !haveSendfile && c.req.bufferEnd == c.req.bufferStart then (w, c, w.set .read c.req.dataFd)
        else w.check c (c.fd, .write)
      | .write | .pipeWrite | .done => w.check c (c.fd, .write)
      | .bodyWrite => w.check c (c.req.postDataFd, .write)
      | .pipeRead => w.check c (c.req.dataFd, .read)
      | .timedOut | .dead => (w, c, true)
      | _ => w.check c (c.fd, .read)

/-- Where the loop is: at its top, at the call of `select`, in `fdset_update` or in
`process_requests`. -/
inductive SelectPhase
  | top | selecting
  | updating (current : Option ℕ)
  | serving (pt : Point)

structure SelectState where
  sched : Sched FdSets
  phase : SelectPhase
  sigterm : Sigterm
  serverFd : ℕ

/-- A descriptor that the connection has open. -/
def Conn.Holds (c : Conn) (x : ℕ) : Prop :=
  x = c.fd ∨ (x ≠ 0 ∧ (x = c.req.dataFd ∨ x = c.req.postDataFd))

/-- The request is on the ready or the block list. -/
def Sched.Live {W : Type} (σ : Sched W) (a : ℕ) : Prop :=
  ∃ p l, p ≠ .free ∧ Linked σ.links (σ.heads p) l ∧ a ∈ l

namespace SelectState

/-- The listening socket is open until shutdown starts. -/
def Listens (s : SelectState) (x : ℕ) : Prop := s.sigterm ≠ .started ∧ x = s.serverFd

/-- The descriptor is in use neither for a connection nor for listening. -/
def Unused (s : SelectState) (x : ℕ) : Prop :=
  ¬s.Listens x ∧ ∀ a, s.sched.Live a → ¬(s.sched.conns a).Holds x

/-- What `accept` returns is a new descriptor. -/
def Accepts (s : SelectState) (acc : Accept) : Prop := ∀ fd peer, acc = .ok fd peer → s.Unused fd

/-- So is what the system calls of a round return. -/
def Supplies (s : SelectState) (env : Env) : Prop := ∀ x, env.Gives x → x ≠ 0 → s.Unused x

def setSched (s : SelectState) (σ : Sched FdSets) : SelectState := { s with sched := σ }

/-- The state at the call of `select`, with `pending_requests` cleared. -/
def enter (s : SelectState) (w : FdSets) : SelectState :=
  { s with phase := .selecting, sched := (s.sched.setWatch w).setPending false }

/-- Behind `select`: `max_fd` is reset and `fdset_update` starts. -/
def leave (s : SelectState) (set : Dir → ℕ → Bool) (pending : Bool) : SelectState :=
  { s with
    phase := .updating (s.sched.heads .block)
    sched := (s.sched.setWatch ⟨set, -1⟩).setPending pending }

end SelectState

/-- The steps of the loop of the build with sendfile. A signal may arrive at any point.
`select` leaves a subset of the sets, or all of them if it is interrupted; the system
hands out only descriptors that are not in use. -/
inductive SelectStep : SelectState → SelectState → Prop
  | catchSigterm (s : SelectState) (h : s.sigterm = .none) :
      SelectStep s { s with sigterm := .caught }
  | reload (s : SelectState) (m : ℕ) (h : s.phase = .top) :
      SelectStep s (s.setSched { s.sched.freeRequests with maxConnections := m })
  | shutdown (s : SelectState) (h : s.phase = .top) (hs : s.sigterm = .caught) :
      SelectStep s { s.enter (s.sched.watch.clear s.serverFd .read) with sigterm := .started }
  | drain (s : SelectState) (h : s.phase = .top) (hs : s.sigterm = .started) :
      SelectStep s (s.enter s.sched.watch)
  | listen (s : SelectState) (h : s.phase = .top) (hs : s.sigterm = .none)
      (hroom : s.sched.totalConnections ≤ s.sched.maxConnections) :
      SelectStep s (s.enter (s.sched.watch.add s.serverFd .read))
  | full (s : SelectState) (h : s.phase = .top) (hs : s.sigterm = .none)
      (hroom : s.sched.maxConnections < s.sched.totalConnections) :
      SelectStep s (s.enter (s.sched.watch.clear s.serverFd .read))
  | eintr (s : SelectState) (h : s.phase = .selecting) (hmax : s.sched.watch.maxFd ≠ 0) :
      SelectStep s { s with phase := .top }
  | select (s : SelectState) (h : s.phase = .selecting) (hmax : s.sched.watch.maxFd ≠ 0)
      (set : Dir → ℕ → Bool) (hset : ∀ d x, set d x → s.sched.watch.set d x) :
      SelectStep s (s.leave set (decide (s.sigterm = .none) && set .read s.serverFd))
  | skip (s : SelectState) (h : s.phase = .selecting) (hmax : s.sched.watch.maxFd = 0) :
      SelectStep s (s.leave s.sched.watch.set false)
  | update (s : SelectState) (clock : Clock) (a : ℕ) (h : s.phase = .updating (some a)) :
      SelectStep s { s with
        phase := .updating (s.sched.updateRound (selectWatch true) clock a).2
        sched := (s.sched.updateRound (selectWatch true) clock a).1 }
  | idle (s : SelectState) (h : s.phase = .updating none) (hp : s.sched.pendingRequests = false)
      (hr : s.sched.heads .ready = none) : SelectStep s { s with phase := .top }
  | begin (s : SelectState) (h : s.phase = .updating none) (env : Env) (acc : Accept) (fresh : ℕ)
      (hf : fresh ∉ s.sched.objects) (hacc : s.Accepts acc) :
      SelectStep s { s with
        phase := .serving (.serving ((s.sched.getPending env acc fresh).heads .ready))
        sched := s.sched.getPending env acc fresh }
  | handle (s : SelectState) (a : ℕ) (h : s.phase = .serving (.serving (some a))) (env : Env)
      (henv : s.Supplies env) :
      SelectStep s { s with
        phase := .serving (.handled a (s.sched.handle env a).2)
        sched := (s.sched.handle env a).1 }
  | accept (s : SelectState) (a : ℕ) (ret : Ret) (h : s.phase = .serving (.handled a ret)) (env : Env)
      (acc : Accept) (fresh : ℕ) (hf : fresh ∉ s.sched.objects) (hacc : s.Accepts acc) :
      SelectStep s { s with
        phase := .serving (.dispatching a ret)
        sched := s.sched.getPending env acc fresh }
  | dispatch (s : SelectState) (a : ℕ) (ret : Ret) (h : s.phase = .serving (.dispatching a ret))
      (env : Env) :
      SelectStep s { s with
        phase := .serving (.serving (s.sched.dispatch (selectWatch true) env a ret).2)
        sched := (s.sched.dispatch (selectWatch true) env a ret).1 }
  | finish (s : SelectState) (h : s.phase = .serving (.serving none)) :
      SelectStep s { s with phase := .top }

/-- The states of the loop. -/
inductive SelectReach : SelectState → Prop
  | init (conns : ℕ → Conn) (links : Links ℕ) (m serverFd : ℕ) :
      SelectReach ⟨.init conns links m ⟨fun _ _ => false, -1⟩, .top, .none, serverFd⟩
  | step {s t : SelectState} (h : SelectReach s) (hs : SelectStep s t) : SelectReach t

/-- The descriptor that a request waits for. -/
def Conn.awaits (c : Conn) : ℕ × Dir :=
  if c.req.bufferEnd ≠ 0 ∨ c.req.status ∈ [.write, .ioShuffle, .pipeWrite, .done] then (c.fd, .write)
  else if c.req.status = .pipeRead then (c.req.dataFd, .read)
  else if c.req.status = .bodyWrite then (c.req.postDataFd, .write)
  else (c.fd, .read)

/-- It is in its set and not above `max_fd`. -/
def FdSets.Armed (w : FdSets) (c : Conn) : Prop :=
  w.set c.awaits.2 c.awaits.1 = true ∧ (c.awaits.1 : ℤ) ≤ w.maxFd

/-! ### The sets -/

/-- `block_request` and `ready_request` agree with that. -/
lemma Conn.target_eq_awaits (c : Conn) : c.target true = c.awaits := by
  unfold target awaits
  by_cases hend : c.req.bufferEnd = 0
  · cases hs : c.req.status <;> simp [hend]
  · simp [hend]

/-- A connection holds the descriptor it waits for. -/
lemma Conn.holds_awaits {c : Conn} (h : Waits c.req) : c.Holds c.awaits.1 := by
  unfold awaits
  split_ifs with h1 h2 h3
  · exact .inl rfl
  · exact .inr ⟨h.pipe (.inl h2), .inl rfl⟩
  · exact .inr ⟨h.body (.inr h3), .inr rfl⟩
  · exact .inl rfl

namespace FdSets.Armed

variable {w : FdSets} {c : Conn}

lemma add (h : w.Armed c) (fd : ℕ) (dir : Dir) : (w.add fd dir).Armed c := by
  constructor
  · simp only [FdSets.add, h.1, Bool.or_true]
  · exact Int.le_trans h.2 (Int.le_max_left w.maxFd fd)

lemma clear (h : w.Armed c) {fd : ℕ} {dir : Dir} (hne : c.awaits ≠ (fd, dir)) :
    (w.clear fd dir).Armed c := by
  refine ⟨?_, h.2⟩
  have hne : ¬(c.awaits.2 = dir ∧ c.awaits.1 = fd) := fun he => hne (Prod.ext he.2 he.1)
  simp only [FdSets.clear, h.1, hne, decide_false, Bool.not_false, Bool.and_true]

lemma of_add (w : FdSets) (c : Conn) : (w.add c.awaits.1 c.awaits.2).Armed c := by
  constructor
  · simp [FdSets.add]
  · exact Int.le_max_right w.maxFd c.awaits.1

end FdSets.Armed

/-- A request leaves the block list, or its descriptor is set again. -/
lemma selectScan_cases (clock : Clock) (w : FdSets) (c : Conn) :
    (selectWatch true).scan clock w c = (w, c, true) ∨
      (selectWatch true).scan clock w c = (w, c.setStatus .timedOut, true) ∨
      (selectWatch true).scan clock w c = (w.add c.awaits.1 c.awaits.2, c, false) := by
  have hcheck : ∀ t, c.awaits = t → w.check c t = (w, c, true) ∨
      w.check c t = (w, c.setStatus .timedOut, true) ∨
      w.check c t = (w.add c.awaits.1 c.awaits.2, c, false) := by
    rintro t rfl
    unfold FdSets.check
    split_ifs
    · exact .inl rfl
    · exact .inr (.inr rfl)
  by_cases htime : c.timedOut clock = true
  · have hlate : ¬Status.timedOut < .done := by decide
    right
    left
    simp [selectWatch, htime, Conn.setStatus, hlate]
  · simp only [selectWatch, htime, Bool.false_eq_true, if_false]
    split
    · next hbuf => exact hcheck _ (if_pos (.inl hbuf.1))
    · next hbuf =>
      have hend : c.req.status < .done → c.req.bufferEnd = 0 := by
        intro hs
        by_contra he
        exact hbuf ⟨he, hs⟩
      cases hs : c.req.status <;> rw [hs] at hend
      case timedOut => exact .inl rfl
      case dead => exact .inl rfl
      case done => exact hcheck _ (by simp [Conn.awaits, hs])
      all_goals exact hcheck _ (by simp [Conn.awaits, hs, hend (by decide)])

/-! ### Who holds what -/

/-- The requests `A` hold different descriptors, and none that is reserved. -/
structure Owners (conns : ℕ → Conn) (A reserved : ℕ → Prop) : Prop where
  apart : ∀ a b, A a → A b → a ≠ b → ∀ x, (conns a).Holds x → ¬(conns b).Holds x
  free : ∀ a, A a → ∀ x, (conns a).Holds x → ¬ reserved x

namespace Owners

variable {conns conns' : ℕ → Conn} {A A' reserved : ℕ → Prop} {a : ℕ}

/-- One request changes, and takes only descriptors that it had or that nobody has. -/
lemma update (h : Owners conns A reserved) (hc : ∀ b, b ≠ a → conns' b = conns b)
    (hA : ∀ b, A' b → b ≠ a → A b)
    (hx : A' a → ∀ x, (conns' a).Holds x → (A a ∧ (conns a).Holds x) ∨
      (¬ reserved x ∧ ∀ b, A b → ¬(conns b).Holds x)) : Owners conns' A' reserved := by
  have hnew : A' a → ∀ x, (conns' a).Holds x → ∀ b, A' b → b ≠ a → ¬(conns' b).Holds x := by
    intro hA'' x ha b hb hne
    rw [hc b hne]
    obtain ⟨hA', hold⟩ | ⟨-, hfree⟩ := hx hA'' x ha
    · exact h.apart a b hA' (hA b hb hne) hne.symm x hold
    · exact hfree b (hA b hb hne)
  constructor
  · intro b b' hb hb' hne x hx1 hx2
    by_cases he : b = a
    · subst he
      exact hnew hb x hx1 b' hb' hne.symm hx2
    · by_cases he' : b' = a
      · subst he'
        exact hnew hb' x hx2 b hb he hx1
      · rw [hc b he] at hx1
        rw [hc b' he'] at hx2
        exact h.apart b b' (hA b hb he) (hA b' hb' he') hne x hx1 hx2
  · intro b hb x hxb
    by_cases he : b = a
    · subst he
      obtain ⟨hA', hold⟩ | ⟨hfree, -⟩ := hx hb x hxb
      · exact h.free b hA' x hold
      · exact hfree
    · rw [hc b he] at hxb
      exact h.free b (hA b hb he) x hxb

lemma mono (h : Owners conns A reserved) (hA : ∀ b, A' b → A b) {reserved' : ℕ → Prop}
    (hr : ∀ x, reserved' x → reserved x) : Owners conns A' reserved' :=
  ⟨fun a b ha hb => h.apart a b (hA a ha) (hA b hb), fun a ha x hx hres => h.free a (hA a ha) x hx (hr x hres)⟩

end Owners

/-! ### The loop -/

/-- The requests that are ready or blocked. -/
def InUse (L : Place → List ℕ) (a : ℕ) : Prop := a ∈ L .ready ∨ a ∈ L .block

/-- The request whose handler has returned 0. -/
def Point.ending : Point → Option ℕ
  | .handled a .done | .dispatching a .done => some a
  | _ => none

/-- What holds of the requests at a point of the loop, up to the sets. -/
structure Kept (σ : Sched FdSets) (L : Place → List ℕ) (ending : Option ℕ) (reserved : ℕ → Prop) :
    Prop where
  queues : Queues σ L
  owners : Owners σ.conns (InUse L) reserved
  fit : ∀ a, InUse L a → ending ≠ some a → Fit (σ.conns a).req
  ended : ∀ a, ending = some a → Over False (σ.conns a).req

/-- All blocked requests are in their sets. -/
def Sched.AllArmed (σ : Sched FdSets) (B : List ℕ) : Prop := ∀ a ∈ B, σ.watch.Armed (σ.conns a)

/-- The request whose handler has returned 0, in any phase. -/
def SelectPhase.ending : SelectPhase → Option ℕ
  | .serving pt => pt.ending
  | _ => none

/-- The sets in the phases of the loop: in `fdset_update` those of the requests seen. -/
def SelectState.Set (s : SelectState) (L : Place → List ℕ) : Prop :=
  match s.phase with
  | .top | .selecting => s.sched.AllArmed (L .block)
  | .updating current => ∃ seen todo, L .block = seen ++ todo ∧ current = todo.head? ∧
      s.sched.AllArmed seen
  | .serving pt => pt.On L ∧ s.sched.AllArmed (L .block)

/-- The invariant of the loop. -/
structure SelectInv (s : SelectState) (L : Place → List ℕ) : Prop where
  kept : Kept s.sched L s.phase.ending s.Listens
  set : s.Set L

section Loop

variable {σ τ : Sched FdSets} {L : Place → List ℕ} {ending : Option ℕ} {reserved : ℕ → Prop} {a : ℕ}

lemma Kept.congr (h : Kept σ L ending reserved) (hq : Queues τ L) (hc : τ.conns = σ.conns) :
    Kept τ L ending reserved := by
  refine ⟨hq, ?_, ?_, ?_⟩
  · rw [hc]
    exact h.owners
  · rw [hc]
    exact h.fit
  · rw [hc]
    exact h.ended

/-- The requests in use are those on the lists that the heads point to. -/
lemma Queues.live_iff {W : Type} {σ : Sched W} (h : Queues σ L) : σ.Live a ↔ InUse L a := by
  constructor
  · rintro ⟨p, l, hp, hl, ha⟩
    rw [hl.unique (h.linked p)] at ha
    cases p
    · exact .inl ha
    · exact .inr ha
    · exact absurd rfl hp
  · rintro (ha | ha)
    · exact ⟨.ready, _, by decide, h.linked .ready, ha⟩
    · exact ⟨.block, _, by decide, h.linked .block, ha⟩

/-- No other blocked request waits for a descriptor of `a`. -/
lemma Kept.awaits_ne (h : Kept σ L ending reserved) (ha : InUse L a) {x : ℕ} (hx : (σ.conns a).Holds x)
    {b : ℕ} (hb : b ∈ L .block) (hne : b ≠ a) (hover : ending ≠ some b) (dir : Dir) :
    (σ.conns b).awaits ≠ (x, dir) := by
  intro he
  have hheld := Conn.holds_awaits (h.fit b (.inr hb) hover).toWaits
  rw [he] at hheld
  exact h.owners.apart a b ha (.inr hb) hne.symm x hx hheld

/-- `get_request` adds a connection on a descriptor that was not in use. -/
lemma Kept.getPending {fresh : ℕ} (h : Kept σ L ending reserved) (hf : fresh ∉ σ.objects) (env : Env)
    {acc : Accept} (hacc : ∀ fd peer, acc = .ok fd peer →
      ¬ reserved fd ∧ ∀ b, InUse L b → ¬(σ.conns b).Holds fd)
    (hover : ∀ b, ending = some b → InUse L b) (harm : σ.AllArmed (L .block)) :
    ∃ L', Kept (σ.getPending env acc fresh) L' ending reserved ∧
      (∀ b ∈ L .ready, b ∈ L' .ready) ∧ (σ.getPending env acc fresh).AllArmed (L' .block) := by
  obtain ⟨L', hq, hblock, hjoin⟩ := h.queues.getPending hf env acc
  have hwatch := σ.getPending_watch env acc fresh
  have harm' : (σ.getPending env acc fresh).AllArmed (L' .block) := by
    intro b hb
    rw [hblock] at hb
    rw [hwatch, h.queues.getPending_conns hf (by decide) hb]
    exact harm b hb
  refine ⟨L', ?_, fun b hb => hjoin.ready_mem hb, harm'⟩
  obtain ⟨hready, hc⟩ | ⟨fd, peer, n, c, he, hn1, hn2, hready, hc, hfd, b, old, hreq⟩ := hjoin
  · have hin : ∀ b, InUse L' b → InUse L b := by
      intro b hb
      rw [InUse, hready, hblock] at hb
      exact hb
    refine ⟨hq, ?_, ?_, ?_⟩
    · rw [hc]
      exact h.owners.mono hin fun _ hx => hx
    · rw [hc]
      exact fun b hb => h.fit b (hin b hb)
    · rw [hc]
      exact h.ended
  · obtain ⟨hfit, hfds⟩ := Request.getRequest_fit env { peer with tooMany := b } old
    rw [← hreq] at hfit hfds
    have hin : ∀ b, InUse L' b → b ≠ n → InUse L b := by
      intro b hb hne
      rw [InUse, hready, hblock] at hb
      exact hb.imp_left fun hb => (List.mem_cons.1 hb).resolve_left hne
    have hother : ∀ b, b ≠ n → (σ.getPending env acc fresh).conns b = σ.conns b := by
      intro b hb
      rw [hc]
      exact Function.update_of_ne hb _ _
    have hself : (σ.getPending env acc fresh).conns n = c := by
      rw [hc]
      exact Function.update_self _ _ _
    refine ⟨hq, h.owners.update hother hin fun _ x hx => .inr ?_, fun b hb hob => ?_, fun b hb => ?_⟩
    · rw [hself] at hx
      simp only [Request.fds, Prod.mk.injEq] at hfds
      obtain hx | ⟨hx, hx' | hx'⟩ := hx
      · rw [hx, hfd]
        exact hacc fd peer he
      · exact absurd (hx'.trans hfds.1) hx
      · exact absurd (hx'.trans hfds.2) hx
    · by_cases hbn : b = n
      · subst hbn
        rw [hself]
        exact hfit
      · rw [hother b hbn]
        exact h.fit b (hin b hb hbn) hob
    · have hbn : b ≠ n := by
        rintro rfl
        exact (hover b hb).elim hn1 hn2
      rw [hother b hbn]
      exact h.ended b hb

/-- The requests in use when one has changed its list. -/
lemma InUse.of_moved {W : Type} {σ : Sched W} (h : Lists σ L) {p q : Place} (ha : a ∈ L p)
    (hp : p ≠ .free) {b : ℕ} (hb : InUse (moved L p q a) b) : InUse L b := by
  have hmem : ∀ r, r ≠ .free → b ∈ moved L p q a r → InUse L b := by
    intro r hr hbr
    obtain ⟨rfl, -⟩ | ⟨-, hbr⟩ := (mem_moved h ha).1 hbr
    · cases p
      · exact .inl ha
      · exact .inr ha
      · exact absurd rfl hp
    · cases r
      · exact .inl hbr
      · exact .inr hbr
      · exact absurd rfl hr
  exact hb.elim (hmem .ready (by decide)) (hmem .block (by decide))

/-- The connection of a request that is not blocked does not matter for the sets. -/
lemma Sched.AllArmed.of_conns {B : List ℕ} (h : σ.AllArmed B) (hw : τ.watch = σ.watch)
    (hc : ∀ b ∈ B, τ.conns b = σ.conns b) : τ.AllArmed B := by
  intro b hb
  rw [hw, hc b hb]
  exact h b hb

lemma Conn.holds_congr {c d : Conn} (hfd : d.fd = c.fd) (hfds : d.req.fds = c.req.fds) {x : ℕ} :
    d.Holds x ↔ c.Holds x := by
  simp only [Request.fds, Prod.mk.injEq] at hfds
  unfold Holds
  rw [hfd, hfds.1, hfds.2]

/-- A handler keeps the descriptors of its request or takes new ones. -/
lemma Kept.handle {env : Env} (h : Kept σ L none reserved) (ha : a ∈ L .ready)
    (henv : ∀ x, env.Gives x → x ≠ 0 → ¬ reserved x ∧ ∀ b, InUse L b → ¬(σ.conns b).Holds x) :
    Kept (σ.handle env a).1 L (Point.handled a (σ.handle env a).2).ending reserved := by
  have hfit := h.fit a (.inl ha) nofun
  obtain ⟨hkeeps, hwaits⟩ := Request.serveOnce_handled env hfit
  have hended : Ended False ((σ.conns a).req.serveOnce env) :=
    Request.serveOnce_ended hfit.whole False.elim False.elim
  have hsig : ∀ c : Request, (c.heedSigterm env).fds = c.fds ∧ (c.heedSigterm env).status = c.status := by
    intro c
    unfold Request.heedSigterm
    split_ifs <;> exact ⟨rfl, rfl⟩
  have hother : ∀ b, b ≠ a → (σ.handle env a).1.conns b = σ.conns b :=
    fun b hb => Function.update_of_ne hb _ _
  have hself : (σ.handle env a).1.conns a =
      { σ.conns a with req := ((σ.conns a).req.serveOnce env).1.heedSigterm env } :=
    Function.update_self _ _ _
  have hret : (σ.handle env a).2 = ((σ.conns a).req.serveOnce env).2 := rfl
  refine ⟨h.queues.congr rfl rfl rfl rfl, h.owners.update hother (fun b hb _ => hb) fun _ x hx => ?_,
    fun b hb hover => ?_, fun b hb => ?_⟩
  · obtain ⟨h1, h2⟩ := Prod.mk.inj (hsig ((σ.conns a).req.serveOnce env).1).1
    rw [hself] at hx
    obtain hx | ⟨h0, hx | hx⟩ := hx
    · exact .inl ⟨.inl ha, .inl hx⟩
    · rw [h1] at hx
      obtain hd | hd | hd := hkeeps.data
      · exact .inl ⟨.inl ha, .inr ⟨h0, .inl (hx.trans hd)⟩⟩
      · exact absurd (hx.trans hd) h0
      · exact .inr (henv x (hx ▸ hd) h0)
    · rw [h2] at hx
      obtain hd | hd | hd := hkeeps.post
      · exact .inl ⟨.inl ha, .inr ⟨h0, .inr (hx.trans hd)⟩⟩
      · exact absurd (hx.trans hd) h0
      · exact .inr (henv x (hx ▸ hd) h0)
  · by_cases hba : b = a
    · subst hba
      have hne : ((σ.conns b).req.serveOnce env).2 ≠ .done := by
        intro he
        apply hover
        rw [hret, he]
        rfl
      rw [hself]
      exact ⟨(hwaits hne).congr (hsig _).2 (hsig _).1, ((hended.1 hne).heedSigterm env).whole False.elim⟩
    · rw [hother b hba]
      exact h.fit b hb nofun
  · rw [hret] at hb
    cases hr : ((σ.conns a).req.serveOnce env).2 with
    | done =>
      rw [hr] at hb
      cases hb
      rw [hself]
      exact (hended.2 hr).heedSigterm env
    | more =>
      rw [hr] at hb
      cases hb
    | blocked =>
      rw [hr] at hb
      cases hb

/-- The time of the last round is no descriptor. -/
lemma Kept.touch {env : Env} (h : Kept σ L ending reserved) : Kept (σ.touch env a) L ending reserved := by
  have hreq : ∀ b, ((σ.touch env a).conns b).req = (σ.conns b).req ∧
      ((σ.touch env a).conns b).fd = (σ.conns b).fd := by
    intro b
    simp only [Sched.touch, Sched.setConn, Function.update_apply]
    split_ifs with he
    · rw [he]
      exact ⟨rfl, rfl⟩
    · exact ⟨rfl, rfl⟩
  have hholds : ∀ b x, ((σ.touch env a).conns b).Holds x ↔ (σ.conns b).Holds x :=
    fun b x => Conn.holds_congr (hreq b).2 (by rw [(hreq b).1])
  refine ⟨h.queues.congr rfl rfl rfl rfl, ⟨fun b b' hb hb' hne x => ?_, fun b hb x => ?_⟩,
    fun b hb hover => ?_, fun b hb => ?_⟩
  · rw [hholds, hholds]
    exact h.owners.apart b b' hb hb' hne x
  · rw [hholds]
    exact h.owners.free b hb x
  · rw [(hreq b).1]
    exact h.fit b hb hover
  · rw [(hreq b).1]
    exact h.ended b hb

/-- `block_request`. -/
lemma Kept.blockRequest (h : Kept σ L none reserved) (ha : a ∈ L .ready)
    (harm : σ.AllArmed (L .block)) :
    Kept (σ.blockRequest (selectWatch true) a) (moved L .ready .block a) none reserved ∧
      (σ.blockRequest (selectWatch true) a).AllArmed (moved L .ready .block a .block) := by
  have hc : (σ.blockRequest (selectWatch true) a).conns = σ.conns := Function.update_eq_self a σ.conns
  have hw : (σ.blockRequest (selectWatch true) a).watch =
      σ.watch.add (σ.conns a).awaits.1 (σ.conns a).awaits.2 := by
    rw [← Conn.target_eq_awaits]
    rfl
  have hin : ∀ b, InUse (moved L .ready .block a) b → InUse L b :=
    fun b hb => hb.of_moved h.queues.toLists ha (by decide)
  refine ⟨⟨h.queues.blockRequest ha, ?_, ?_, nofun⟩, fun b hb => ?_⟩
  · rw [hc]
    exact h.owners.mono hin fun _ hx => hx
  · rw [hc]
    exact fun b hb => h.fit b (hin b hb)
  · rw [hc, hw]
    rw [moved_block] at hb
    obtain rfl | hb := List.mem_cons.1 hb
    · exact .of_add _ _
    · exact (harm b hb).add _ _

lemma Sched.freeRequest_conns (env : Env) :
    (∀ b, b ≠ a → (σ.freeRequest (selectWatch true) env a).conns b = σ.conns b) ∧
      ((σ.freeRequest (selectWatch true) env a).conns a).fd = (σ.conns a).fd ∧
      ((σ.freeRequest (selectWatch true) env a).conns a).req = ((σ.conns a).req.freeRequest env).1 := by
  obtain ⟨-, -, -, -, -, -, h7⟩ :=
    (σ.dequeue .ready a).dropData_fields (M := selectWatch true) (σ.conns a).req
  have h7 : ((σ.dequeue .ready a).dropData (selectWatch true) (σ.conns a).req).conns = σ.conns := h7
  unfold Sched.freeRequest
  dsimp only
  generalize (σ.dequeue .ready a).dropData (selectWatch true) (σ.conns a).req = τ at h7 ⊢
  split
  · refine ⟨fun b hb => Function.update_of_ne hb _ _, ?_, ?_⟩ <;> simp [Sched.setConn]
  · refine ⟨fun b hb => ?_, ?_, ?_⟩
    · simp [Sched.fdClr, Sched.fdSet, Sched.enqueue, Sched.setConn, selectWatch, h7, hb]
    · simp [Sched.fdClr, Sched.fdSet, Sched.enqueue, Sched.setConn, selectWatch]
    · simp [Sched.fdClr, Sched.fdSet, Sched.enqueue, Sched.setConn, selectWatch]
  · refine ⟨fun b hb => ?_, ?_, ?_⟩
    · simp [Sched.fdClr, Sched.enqueue, Sched.setConn, h7, hb]
    · simp [Sched.fdClr, Sched.enqueue, Sched.setConn]
    · simp [Sched.fdClr, Sched.enqueue, Sched.setConn]

/-- Closing the descriptors of an answer concerns nobody who waits for another one. -/
lemma Sched.dropData_armed {c : Conn} {r : Request} (h : σ.watch.Armed c)
    (hd : r.dataFd ≠ 0 → ∀ dir, c.awaits ≠ (r.dataFd, dir))
    (hp : r.postDataFd ≠ 0 → ∀ dir, c.awaits ≠ (r.postDataFd, dir)) :
    (σ.dropData (selectWatch true) r).watch.Armed c := by
  unfold dropData fdClrOpen
  dsimp only
  split_ifs with h2 h1 h1
  · exact (h.clear (hd h1 .read)).clear (hp h2 .write)
  · exact h.clear (hp h2 .write)
  · exact h.clear (hd h1 .read)
  · exact h

/-- `free_request` as far as the descriptors of the requests go. -/
lemma Kept.freeRequest {env : Env} (h : Kept σ L (some a) reserved) (ha : a ∈ L .ready) :
    Kept (σ.freeRequest (selectWatch true) env a)
      (afterFree L a ((σ.conns a).req.freeRequest env).2) none reserved := by
  obtain ⟨hother, hfd, hreq⟩ := σ.freeRequest_conns (a := a) env
  have hkept := Request.freeRequest_kept env (h.ended a rfl)
  have hin : ∀ b, InUse (afterFree L a ((σ.conns a).req.freeRequest env).2) b → InUse L b := by
    intro b hb
    cases hp : ((σ.conns a).req.freeRequest env).2 <;> rw [hp] at hb
    · exact hb
    · exact hb.of_moved h.queues.toLists ha (by decide)
    · exact hb.of_moved h.queues.toLists ha (by decide)
  have hself : InUse (afterFree L a ((σ.conns a).req.freeRequest env).2) a →
      ((σ.conns a).req.freeRequest env).2 ≠ .free := by
    intro hb he
    rw [he, afterFree, InUse, mem_moved h.queues.toLists ha, mem_moved h.queues.toLists ha] at hb
    simp at hb
  refine ⟨h.queues.freeRequest ha, h.owners.update hother (fun b hb _ => hin b hb) fun hA x hx => .inl
    ⟨.inl ha, ?_⟩, fun b hb _ => ?_, nofun⟩
  · obtain hx | ⟨h0, hx⟩ := hx
    · exact .inl (hx.trans hfd)
    · rw [hreq] at hx
      obtain he | he := (hkept (hself hA)).2
      · obtain ⟨h1, h2⟩ := Prod.mk.inj he
        rw [h1, h2] at hx
        exact .inr ⟨h0, hx⟩
      · obtain ⟨h1, h2⟩ := Prod.mk.inj he
        rw [h1, h2] at hx
        exact absurd (or_self_iff.1 hx) h0
  · by_cases hba : b = a
    · subst hba
      rw [hreq]
      exact (hkept (hself hb)).1
    · rw [hother b hba]
      exact h.fit b (hin b hb) fun he => hba (Option.some.inj he).symm

/-- `free_request` clears only descriptors of its own request. -/
lemma Kept.free_block {env : Env} (h : Kept σ L (some a) reserved) (ha : a ∈ L .ready)
    (harm : σ.AllArmed (L .block)) : (σ.freeRequest (selectWatch true) env a).AllArmed (L .block) := by
  intro b hb
  have hne : b ≠ a := fun he => h.queues.toLists.not_mem ha (by decide) (he ▸ hb)
  have hnot : ∀ x, (σ.conns a).Holds x → ∀ dir, (σ.conns b).awaits ≠ (x, dir) :=
    fun x hx => h.awaits_ne (.inl ha) hx hb hne fun he => hne (Option.some.inj he).symm
  have hdrop : ((σ.dequeue .ready a).dropData (selectWatch true) (σ.conns a).req).watch.Armed
      (σ.conns b) :=
    Sched.dropData_armed (harm b hb) (fun h0 => hnot _ (.inr ⟨h0, .inl rfl⟩))
      fun h0 => hnot _ (.inr ⟨h0, .inr rfl⟩)
  have hclose := hnot (σ.conns a).fd (.inl rfl)
  rw [(σ.freeRequest_conns env).1 b hne]
  unfold Sched.freeRequest
  dsimp only
  split
  · exact harm b hb
  · exact (hdrop.add _ _).clear (hclose .write)
  · exact (hdrop.clear (hclose .read)).clear (hclose .write)

/-- A connection that is kept alive waits for its next request. -/
lemma Sched.free_self {env : Env} (hp : ((σ.conns a).req.freeRequest env).2 = .block) :
    (σ.freeRequest (selectWatch true) env a).watch.Armed
      ((σ.freeRequest (selectWatch true) env a).conns a) := by
  obtain ⟨-, hfd, hreq⟩ := σ.freeRequest_conns (a := a) env
  obtain ⟨hend, hstatus⟩ := Request.freeRequest_block hp
  have hawaits : ((σ.freeRequest (selectWatch true) env a).conns a).awaits =
      ((σ.conns a).fd, .read) := by
    unfold Conn.awaits
    rw [hreq, hfd, hend, hstatus]
    simp
  have hset := FdSets.Armed.of_add
    ((σ.dequeue .ready a).dropData (selectWatch true) (σ.conns a).req).watch
    ((σ.freeRequest (selectWatch true) env a).conns a)
  rw [hawaits] at hset
  have hwatch : (σ.freeRequest (selectWatch true) env a).watch =
      (((σ.dequeue .ready a).dropData (selectWatch true) (σ.conns a).req).watch.add
        (σ.conns a).fd .read).clear (σ.conns a).fd .write := by
    unfold Sched.freeRequest
    dsimp only
    rw [hp]
    rfl
  rw [hwatch]
  refine hset.clear ?_
  rw [hawaits]
  simp

lemma Kept.free_armed {env : Env} (h : Kept σ L (some a) reserved) (ha : a ∈ L .ready)
    (harm : σ.AllArmed (L .block)) :
    (σ.freeRequest (selectWatch true) env a).AllArmed
      (afterFree L a ((σ.conns a).req.freeRequest env).2 .block) := by
  have hblock : (σ.freeRequest (selectWatch true) env a).AllArmed (L .block) := h.free_block ha harm
  intro b hb
  cases hp : ((σ.conns a).req.freeRequest env).2 with
  | ready =>
    rw [hp] at hb
    exact hblock b hb
  | free =>
    rw [hp, afterFree, moved_other (by decide) (by decide)] at hb
    exact hblock b hb
  | block =>
    rw [hp, afterFree, moved_block] at hb
    obtain rfl | hb := List.mem_cons.1 hb
    · exact Sched.free_self hp
    · exact hblock b hb

/-- A request that keeps its descriptors. -/
lemma Kept.setConn (h : Kept σ L none reserved) (ha : InUse L a) {c : Conn}
    (hfd : c.fd = (σ.conns a).fd) (hfds : c.req.fds = (σ.conns a).req.fds) (hfit : Fit c.req) :
    Kept (σ.setConn a c) L none reserved := by
  have hother : ∀ b, b ≠ a → (σ.setConn a c).conns b = σ.conns b :=
    fun b hb => Function.update_of_ne hb _ _
  have hself : (σ.setConn a c).conns a = c := Function.update_self _ _ _
  refine ⟨h.queues.setConn a c, h.owners.update hother (fun b hb _ => hb) fun _ x hx => .inl ⟨ha, ?_⟩,
    fun b hb _ => ?_, nofun⟩
  · rw [hself] at hx
    exact (Conn.holds_congr hfd hfds).1 hx
  · by_cases hba : b = a
    · subst hba
      rw [hself]
      exact hfit
    · rw [hother b hba]
      exact h.fit b hb nofun

lemma Conn.fit_timedOut (c : Conn) : Fit (c.setStatus .timedOut).req := by
  refine ⟨.of_late (fun hp => absurd hp (by decide : ¬Status.timedOut.piped)) ?_, fun hl => ?_, False.elim⟩
  · exact (by decide : 6 ≤ Status.timedOut.rank)
  · exact absurd hl (by decide : ¬Status.timedOut < .timedOut)

/-- `ready_request` in `fdset_update`, for a request between those seen and those to come. -/
lemma Kept.readyRequest {seen todo : List ℕ} (h : Kept σ L none reserved)
    (hB : L .block = seen ++ a :: todo) (harm : ∀ b ∈ seen, σ.watch.Armed (σ.conns b)) :
    ∃ L', Kept (σ.readyRequest (selectWatch true) a) L' none reserved ∧ L' .block = seen ++ todo ∧
      ∀ b ∈ seen, (σ.readyRequest (selectWatch true) a).watch.Armed
        ((σ.readyRequest (selectWatch true) a).conns b) := by
  have ha : a ∈ L .block := by simp [hB]
  have hnodup := (h.queues.linked .block).nodup
  rw [hB] at hnodup
  have haseen : a ∉ seen := fun hx =>
    (List.nodup_append.1 hnodup).2.2 a hx a List.mem_cons_self rfl
  have hin : ∀ b, InUse (moved L .block .ready a) b → InUse L b :=
    fun b hb => hb.of_moved h.queues.toLists ha (by decide)
  have hwatch : (σ.readyRequest (selectWatch true) a).watch =
      σ.watch.clear (σ.conns a).awaits.1 (σ.conns a).awaits.2 := by
    rw [← Conn.target_eq_awaits]
    rfl
  refine ⟨_, ⟨h.queues.readyRequest ha, h.owners.mono hin fun _ hx => hx,
    fun b hb => h.fit b (hin b hb), by simp⟩, ?_, fun b hb => ?_⟩
  · simp only [moved, ne_eq, reduceCtorEq, not_false_eq_true, Function.update_of_ne,
      Function.update_self, hB]
    rw [List.erase_append_right _ haseen, List.erase_cons_head]
  · have hbB : b ∈ L .block := by simp [hB, hb]
    have hne : b ≠ a := fun he => haseen (he ▸ hb)
    rw [hwatch]
    refine (harm b hb).clear ?_
    exact h.awaits_ne (.inr ha) (Conn.holds_awaits (h.fit a (.inr ha) (by simp)).toWaits) hbB hne (by simp) _

/-- One round of `fdset_update`. -/
lemma Kept.updateRound {seen todo : List ℕ} (h : Kept σ L none reserved)
    (hB : L .block = seen ++ a :: todo) (harm : ∀ b ∈ seen, σ.watch.Armed (σ.conns b)) (clock : Clock) :
    (σ.updateRound (selectWatch true) clock a).2 = todo.head? ∧
      ∃ L' seen', Kept (σ.updateRound (selectWatch true) clock a).1 L' none reserved ∧
        L' .block = seen' ++ todo ∧
        ∀ b ∈ seen', (σ.updateRound (selectWatch true) clock a).1.watch.Armed
          ((σ.updateRound (selectWatch true) clock a).1.conns b) := by
  have ha : a ∈ L .block := by simp [hB]
  have hl := h.queues.linked .block
  rw [hB] at hl
  have hseen : ∀ b ∈ seen, b ≠ a := by
    rintro b hb rfl
    exact (List.nodup_append.1 hl.nodup).2.2 b hb b List.mem_cons_self rfl
  refine ⟨hl.around.2.1, ?_⟩
  have hfit := h.fit a (.inr ha) nofun
  -- a request that goes to the ready list
  have hready : ∀ c : Conn, c.fd = (σ.conns a).fd → c.req.fds = (σ.conns a).req.fds → Fit c.req →
      ∃ L' seen', Kept ((σ.setConn a c).readyRequest (selectWatch true) a) L' none reserved ∧
        L' .block = seen' ++ todo ∧
        ∀ b ∈ seen', ((σ.setConn a c).readyRequest (selectWatch true) a).watch.Armed
          (((σ.setConn a c).readyRequest (selectWatch true) a).conns b) := by
    intro c hfd hfds hc
    obtain ⟨L', h1, h2, h3⟩ := (h.setConn (.inr ha) hfd hfds hc).readyRequest hB fun b hb => by
      simp only [Sched.setConn, Function.update_of_ne (hseen b hb)]
      exact harm b hb
    exact ⟨L', seen, h1, h2, h3⟩
  unfold Sched.updateRound
  obtain hscan | hscan | hscan := selectScan_cases clock σ.watch (σ.conns a)
  · simp only [hscan, if_true]
    exact hready _ rfl rfl hfit
  · simp only [hscan, if_true]
    exact hready _ rfl rfl (Conn.fit_timedOut _)
  · simp only [hscan, Bool.false_eq_true, if_false]
    have hc : ({ σ with watch := σ.watch.add (σ.conns a).awaits.1 (σ.conns a).awaits.2 }.setConn a
        (σ.conns a)).conns = σ.conns := Function.update_eq_self a σ.conns
    refine ⟨L, seen ++ [a], h.congr (h.queues.congr rfl rfl rfl rfl) hc, by simp [hB], fun b hb => ?_⟩
    rw [hc]
    obtain hb | hb := List.mem_append.1 hb
    · exact (harm b hb).add _ _
    · rw [List.mem_singleton.1 hb]
      exact .of_add _ _

variable {s t : SelectState}

/-- A descriptor that is not in use, in terms of the lists. -/
lemma SelectInv.unused (h : SelectInv s L) {x : ℕ} (hx : s.Unused x) :
    ¬s.Listens x ∧ ∀ b, InUse L b → ¬(s.sched.conns b).Holds x :=
  ⟨hx.1, fun b hb => hx.2 b (h.kept.queues.live_iff.2 hb)⟩

/-- The call of `select`, with the listening socket set or cleared. -/
lemma SelectInv.enter (h : SelectInv s L) (hs : s.phase = .top) {w : FdSets}
    (hw : ∀ b ∈ L .block, w.Armed (s.sched.conns b)) : SelectInv (s.enter w) L := by
  have hkept := h.kept
  rw [hs] at hkept
  exact ⟨hkept.congr (hkept.queues.congr rfl rfl rfl rfl) rfl, hw⟩

/-- Nobody waits for the listening socket. -/
lemma SelectInv.clear_server (h : SelectInv s L) (hs : s.phase = .top) (hl : s.sigterm ≠ .started) :
    ∀ b ∈ L .block, (s.sched.watch.clear s.serverFd .read).Armed (s.sched.conns b) := by
  intro b hb
  have harm := h.set
  simp only [SelectState.Set, hs] at harm
  have hover : s.phase.ending ≠ some b := by simp [hs, SelectPhase.ending]
  refine (harm b hb).clear fun he => ?_
  have hheld := Conn.holds_awaits (h.kept.fit b (.inr hb) hover).toWaits
  rw [he] at hheld
  exact h.kept.owners.free b (.inr hb) s.serverFd hheld ⟨hl, rfl⟩

/-- Behind `select` none of the blocked requests has been seen. -/
lemma SelectInv.leave (h : SelectInv s L) (hs : s.phase = .selecting) (set : Dir → ℕ → Bool)
    (pending : Bool) : SelectInv (s.leave set pending) L := by
  have hkept := h.kept
  rw [hs] at hkept
  refine ⟨hkept.congr (hkept.queues.congr rfl rfl rfl rfl) rfl, [], L .block, rfl, ?_, fun b hb => ?_⟩
  · exact (hkept.queues.linked .block).head_eq
  · cases hb

/-- At the end of `fdset_update` all blocked requests have been seen. -/
lemma SelectInv.updated (h : SelectInv s L) (hs : s.phase = .updating none) :
    s.sched.AllArmed (L .block) := by
  have hset := h.set
  simp only [SelectState.Set, hs] at hset
  obtain ⟨seen, todo, hB, hcur, harm⟩ := hset
  obtain rfl : todo = [] := List.head?_eq_none_iff.1 hcur.symm
  rw [hB, List.append_nil]
  exact harm

lemma SelectStep.inv (hs : SelectStep s t) (h : SelectInv s L) : ∃ L', SelectInv t L' := by
  have hkept := h.kept
  have hset := h.set
  cases hs with
  | catchSigterm hnone =>
    refine ⟨L, ⟨hkept.queues, hkept.owners.mono (fun _ hb => hb) fun x hx => ⟨?_, hx.2⟩, hkept.fit,
      hkept.ended⟩, hset⟩
    rw [hnone]
    decide
  | reload m hphase =>
    simp only [SelectState.Set, hphase] at hset
    have hblock : Function.update L .free [] .block = L .block := Function.update_of_ne (by decide) _ _
    have hin : ∀ b, InUse (Function.update L .free []) b → InUse L b := by
      intro b hb
      rw [InUse, hblock, Function.update_of_ne (by decide)] at hb
      exact hb
    refine ⟨_, ⟨hkept.queues.freeRequests.congr rfl rfl rfl rfl, hkept.owners.mono hin fun _ hx => hx,
      fun b hb => hkept.fit b (hin b hb), hkept.ended⟩, ?_⟩
    simp only [SelectState.Set, SelectState.setSched, hphase, hblock]
    exact hset
  | shutdown hphase hterm =>
    obtain ⟨h1, h2⟩ := h.enter hphase (h.clear_server hphase (by simp [hterm]))
    exact ⟨L, ⟨h1.queues, h1.owners.mono (fun _ hb => hb) fun x hx => absurd rfl hx.1, h1.fit, h1.ended⟩, h2⟩
  | drain hphase hterm =>
    simp only [SelectState.Set, hphase] at hset
    exact ⟨L, h.enter hphase hset⟩
  | listen hphase hterm hroom =>
    simp only [SelectState.Set, hphase] at hset
    exact ⟨L, h.enter hphase fun b hb => (hset b hb).add _ _⟩
  | full hphase hterm hroom =>
    exact ⟨L, h.enter hphase (h.clear_server hphase (by simp [hterm]))⟩
  | eintr hphase hmax =>
    simp only [SelectState.Set, hphase] at hset
    rw [hphase] at hkept
    exact ⟨L, hkept, hset⟩
  | select hphase hmax set hsub => exact ⟨L, h.leave hphase set _⟩
  | skip hphase hmax => exact ⟨L, h.leave hphase _ false⟩
  | update clock a hphase =>
    simp only [SelectState.Set, hphase] at hset
    rw [hphase] at hkept
    obtain ⟨seen, todo, hB, hcur, harm⟩ := hset
    obtain ⟨todo, rfl⟩ : ∃ m, todo = a :: m := by
      cases todo with
      | nil => cases hcur
      | cons b m =>
        cases hcur
        exact ⟨m, rfl⟩
    obtain ⟨hnext, L', seen', h1, h2, h3⟩ := hkept.updateRound hB harm clock
    exact ⟨L', h1, seen', todo, h2, hnext, h3⟩
  | idle hphase hp hr =>
    have harm := h.updated hphase
    rw [hphase] at hkept
    exact ⟨L, hkept, harm⟩
  | begin hphase env acc fresh hf hacc =>
    have harm := h.updated hphase
    have hfd := fun fd peer he => h.unused (hacc fd peer he)
    rw [hphase] at hkept
    obtain ⟨L', h1, -, h3⟩ := hkept.getPending hf env hfd nofun harm
    exact ⟨L', h1, fun a ha => (h1.queues.linked .ready).head_mem ha, h3⟩
  | handle a hphase env henv =>
    simp only [SelectState.Set, hphase] at hset
    rw [hphase] at hkept
    have ha : a ∈ L .ready := hset.1 a rfl
    have hab : a ∉ L .block := hkept.queues.toLists.not_mem ha (by decide)
    refine ⟨L, hkept.handle ha fun x hx h0 => h.unused (henv x hx h0), ha, ?_⟩
    refine hset.2.of_conns rfl fun b hb => ?_
    have hne : b ≠ a := fun he => hab (he ▸ hb)
    exact Function.update_of_ne hne _ _
  | accept a ret hphase env acc fresh hf hacc =>
    simp only [SelectState.Set, hphase] at hset
    have hfd := fun fd peer he => h.unused (hacc fd peer he)
    rw [hphase] at hkept
    have ha : a ∈ L .ready := hset.1
    have hover : ∀ b, (Point.handled a ret).ending = some b → InUse L b := by
      intro b hb
      cases ret <;> cases hb
      exact .inl ha
    obtain ⟨L', h1, h2, h3⟩ := hkept.getPending hf env hfd hover hset.2
    have he : (Point.handled a ret).ending = (Point.dispatching a ret).ending := by cases ret <;> rfl
    refine ⟨L', ?_, h2 a ha, h3⟩
    show Kept _ L' (Point.dispatching a ret).ending _
    rw [← he]
    exact h1
  | dispatch a ret hphase env =>
    simp only [SelectState.Set, hphase] at hset
    rw [hphase] at hkept
    have ha : a ∈ L .ready := hset.1
    have hab : a ∉ L .block := hkept.queues.toLists.not_mem ha (by decide)
    have htouch : (s.sched.touch env a).AllArmed (L .block) := by
      refine hset.2.of_conns rfl fun b hb => ?_
      have hne : b ≠ a := fun he => hab (he ▸ hb)
      exact Function.update_of_ne hne _ _
    have hnext : ∀ p, ∀ b ∈ s.sched.links.next a, b ∈ afterFree L a p .ready := by
      intro p b hb
      cases p with
      | ready => exact (hkept.queues.linked .ready).next_mem ha hb
      | block => exact hkept.queues.toLists.next_moved ha hb
      | free => exact hkept.queues.toLists.next_moved ha hb
    cases ret with
    | blocked =>
      obtain ⟨h1, h2⟩ := Kept.blockRequest hkept ha hset.2
      exact ⟨_, h1, hnext .block, h2⟩
    | more => exact ⟨L, Kept.touch hkept, hnext .ready, htouch⟩
    | done =>
      have hover : Kept (s.sched.touch env a) L (some a) s.Listens := Kept.touch hkept
      exact ⟨_, hover.freeRequest ha, hnext _, hover.free_armed ha htouch⟩
  | finish hphase =>
    simp only [SelectState.Set, hphase] at hset
    rw [hphase] at hkept
    exact ⟨L, hkept, hset.2⟩

end Loop

/-- No wake-up is lost: whenever the loop is about to call `select`, every request on the
block list has the descriptor that it waits for in the matching set, and `max_fd` is not
below it. -/
theorem select_armed {s : SelectState} (h : SelectReach s) (hs : s.phase = .selecting) :
    ∃ B, Linked s.sched.links (s.sched.heads .block) B ∧
      ∀ a ∈ B, s.sched.watch.Armed (s.sched.conns a) := by
  have hinv : ∃ L, SelectInv s L := by
    clear hs
    induction h with
    | init conns links m serverFd =>
      refine ⟨fun _ => [], ⟨⟨⟨fun p => ⟨rfl, trivial, List.nodup_nil⟩, fun p q a ha => ?_⟩, fun a => ?_,
        rfl⟩, ⟨fun a b ha => ?_, fun a ha => ?_⟩, fun a ha => ?_, nofun⟩, fun a ha => ?_⟩
      · cases ha
      · simp [Sched.init]
      · simp [InUse] at ha
      · simp [InUse] at ha
      · simp [InUse] at ha
      · cases ha
    | step _ hstep ih =>
      obtain ⟨L, hL⟩ := ih
      exact hstep.inv hL
  obtain ⟨L, hL⟩ := hinv
  have hset := hL.set
  simp only [SelectState.Set, hs] at hset
  exact ⟨L .block, hL.kept.queues.linked .block, hset⟩

/-- The select build before its first round, listening on descriptor 3. -/
def idleSelect : SelectState :=
  ⟨.init (fun _ => { req := {} }) ⟨fun _ => none, fun _ => none⟩ 10 ⟨fun _ _ => false, -1⟩, .top, .none, 3⟩

/-- Up to the call of `select` with the listening socket set. -/
def SelectState.listening (s : SelectState) : SelectState :=
  s.enter (s.sched.watch.add s.serverFd .read)

/-- A connection has come on descriptor 7. -/
def acceptedSelect : SelectState :=
  let s := idleSelect.listening.leave idleSelect.listening.sched.watch.set true
  { s with
    phase := .serving (.serving (some 1))
    sched := s.sched.getPending tinyEnv (.ok 7 tinyPeer) 1 }

/-- Nothing has been read from it yet, and the next call of `select` is due. -/
def waitingSelect : SelectState :=
  let s := acceptedSelect
  let σ := ((s.sched.handle tinyEnv 1).1.getPending tinyEnv .nothing 2).blockRequest (selectWatch true) 1
  { s with phase := .top, sched := σ }.listening

theorem select_armed_waiting :
    waitingSelect.sched.heads .block = some 1 ∧
      ∃ B, Linked waitingSelect.sched.links (waitingSelect.sched.heads .block) B ∧
        ∀ a ∈ B, waitingSelect.sched.watch.Armed (waitingSelect.sched.conns a) := by
  have h1 : SelectReach idleSelect.listening := .step (.init _ _ 10 3) (.listen idleSelect rfl rfl (by decide))
  have h2 : SelectReach (idleSelect.listening.leave idleSelect.listening.sched.watch.set true) :=
    .step h1 (.select _ rfl (by decide) _ fun _ _ hx => hx)
  have h3 : SelectReach acceptedSelect := by
    refine .step h2 (.begin _ rfl tinyEnv (.ok 7 tinyPeer) 1 (by decide) fun fd peer he => ?_)
    cases he
    refine ⟨fun hl => absurd hl.2 (by decide), fun a ha => ?_⟩
    obtain ⟨p, l, -, hl, ha⟩ := ha
    have hnil : l = [] := List.head?_eq_none_iff.1 hl.head_eq.symm
    rw [hnil] at ha
    cases ha
  have hsupply : acceptedSelect.Supplies tinyEnv := by
    intro x hx h0
    have hx : x = 5 := by
      obtain hx | hx | ⟨path, f, hf, hx⟩ | ⟨f, hf, -⟩ := hx
      · exact absurd hx h0
      · exact absurd hx h0
      · simp only [tinyEnv, tinyFiles] at hf
        split_ifs at hf
        cases hf
        exact hx
      · cases hf
    subst hx
    refine ⟨fun hl => absurd hl.2 (by decide), fun a _ => ?_⟩
    by_cases ha : a = 1
    · subst ha
      rintro (hx | ⟨-, hx | hx⟩)
      · exact absurd hx (by decide)
      · exact absurd hx (by decide)
      · exact absurd hx (by decide)
    · have hc : acceptedSelect.sched.conns a = { req := {} } := Function.update_of_ne ha _ _
      rw [hc]
      rintro (hx | ⟨-, hx | hx⟩) <;> exact absurd hx (by decide)
  have hret : (acceptedSelect.sched.handle tinyEnv 1).2 = .blocked := by decide
  have h4 := h3.step (.handle acceptedSelect 1 rfl tinyEnv hsupply)
  rw [hret] at h4
  have h5 := h4.step (.accept _ 1 .blocked rfl tinyEnv .nothing 2 (by decide) nofun)
  have h6 := h5.step (.dispatch _ 1 .blocked rfl tinyEnv)
  have hnext : ((acceptedSelect.sched.handle tinyEnv 1).1.getPending tinyEnv .nothing 2).links.next 1 =
      none := by decide
  have h7 := h6.step (.finish _ (congrArg (fun n => SelectPhase.serving (.serving n)) hnext))
  have h8 : SelectReach waitingSelect := h7.step (.listen _ rfl rfl (by decide))
  exact ⟨by decide, select_armed h8 rfl⟩

end Boa
