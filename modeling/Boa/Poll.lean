import Boa.Queues

/-! The main loop of the poll build (poll.c) and its tables of descriptors. -/
namespace Boa
open DList

def maxFd : ℕ := 1024

/-- `revents`: an error flag, any other flag. -/
structure Revents where
  error : Bool := false
  ready : Bool := false
  deriving DecidableEq, Repr

structure PollFd where
  fd : Fd
  events : Dir
  revents : Revents := {}
  deriving DecidableEq, Repr

/-- The two arrays of `loop`: `pfds` is the one in use. -/
structure Pfds where
  pfds : ℕ → PollFd
  other : ℕ → PollFd
  len : ℕ

/-- The macros of the poll build, and the body of the loop of `update_blocked`: a request
that stays blocked gets an entry in the other array. -/
def pollWatch (haveSendfile : Bool) : Watch Pfds where
  haveSendfile := haveSendfile
  fdSet w c fd dir :=
    ({ w with
      pfds := Function.update w.pfds w.len { w.pfds w.len with fd := .conn fd, events := dir }
      len := w.len + 1 }, { c with pollfdId := w.len })
  fdClr w _ _ := w
  scan clock w c :=
    let e := w.pfds c.pollfdId
    if e.revents.error then (w, c.setStatus .dead, true)
    else if c.timedOut clock then (w, c.setStatus .timedOut, true)
    else if e.revents.ready then (w, c, true)
    else
      ({ w with
        other := Function.update w.other w.len { w.other w.len with fd := e.fd, events := e.events }
        len := w.len + 1 }, { c with pollfdId := w.len }, false)

/-- Where the loop is: at its top, at the call of `poll`, in `update_blocked` or in
`process_requests`. -/
inductive PollPhase
  | top | polling
  | updating (current : Option ℕ)
  | serving (pt : Point)

structure PollState where
  sched : Sched Pfds
  phase : PollPhase
  sigterm : Sigterm
  serverPfd : ℕ
  watchServer : Bool

/-- The loop that removes the listening socket: the entry with its index is skipped, and
entry `j` is copied to `j`. The result is the number of entries. -/
def compact (serverPfd len : ℕ) (src dst : ℕ → PollFd) : (ℕ → PollFd) × ℕ :=
  (List.range len).foldl
    (fun (acc : (ℕ → PollFd) × ℕ) i =>
      if i = serverPfd then acc
      else
        let j := acc.2
        (Function.update acc.1 j { acc.1 j with fd := (src j).fd, events := (src j).events }, j + 1))
    (dst, 0)

/-- The first stage of SIGTERM: the arrays change places. -/
def Pfds.removeServer (w : Pfds) (serverPfd : ℕ) : Pfds :=
  let r := compact serverPfd w.len w.pfds w.other
  { pfds := r.1, other := w.pfds, len := r.2 }

/-- An entry for the listening socket behind the others. -/
def Pfds.addServer (w : Pfds) : Pfds :=
  { w with
    pfds := Function.update w.pfds w.len { w.pfds w.len with fd := .server, events := .read }
    len := w.len + 1 }

/-- `poll` answers in `revents` only. -/
def Pfds.answer (w : Pfds) (revents : ℕ → Revents) : Pfds :=
  { w with pfds := fun i => { w.pfds i with revents := revents i } }

def Pfds.swap (w : Pfds) : Pfds := { w with pfds := w.other, other := w.pfds }

/-- The steps of the loop. A signal may arrive at any point; the limit that a reload sets is
at most `FD_SETSIZE - 20`. -/
inductive PollStep (haveSendfile : Bool) : PollState → PollState → Prop
  | catchSigterm (s : PollState) (h : s.sigterm = .none) :
      PollStep haveSendfile s { s with sigterm := .caught }
  | reload (s : PollState) (m : ℕ) (h : s.phase = .top) (hm : m ≤ maxFd - 20) :
      PollStep haveSendfile s
        { s with sched := { s.sched.freeRequests with maxConnections := m } }
  | shutdown (s : PollState) (h : s.phase = .top) (hs : s.sigterm = .caught) :
      PollStep haveSendfile s { s with
        phase := .polling
        sched := (s.sched.setWatch (s.sched.watch.removeServer s.serverPfd)).setPending false
        sigterm := .started
        watchServer := false }
  | drain (s : PollState) (h : s.phase = .top) (hs : s.sigterm = .started) :
      PollStep haveSendfile s { s with phase := .polling, sched := s.sched.setPending false }
  | watchServer (s : PollState) (h : s.phase = .top) (hs : s.sigterm = .none)
      (hroom : s.sched.totalConnections < s.sched.maxConnections) :
      PollStep haveSendfile s { s with
        phase := .polling
        sched := (s.sched.setWatch s.sched.watch.addServer).setPending false
        serverPfd := s.sched.watch.len
        watchServer := true }
  | full (s : PollState) (h : s.phase = .top) (hs : s.sigterm = .none)
      (hroom : s.sched.maxConnections ≤ s.sched.totalConnections) :
      PollStep haveSendfile s { s with
        phase := .polling
        sched := s.sched.setPending false
        watchServer := false }
  | eintr (s : PollState) (h : s.phase = .polling) (hlen : s.sched.watch.len ≠ 0) :
      PollStep haveSendfile s { s with phase := .top }
  | poll (s : PollState) (h : s.phase = .polling) (revents : ℕ → Revents) :
      PollStep haveSendfile s { s with
        phase := .updating (s.sched.heads .block)
        sched := (s.sched.setWatch { s.sched.watch.answer revents with len := 0 }).setPending
          (decide (s.sigterm = .none) && s.watchServer && (revents s.serverPfd).ready &&
            decide (s.sched.watch.len ≠ 0)) }
  | update (s : PollState) (clock : Clock) (a : ℕ) (h : s.phase = .updating (some a)) :
      PollStep haveSendfile s { s with
        phase := .updating (s.sched.updateRound (pollWatch haveSendfile) clock a).2
        sched := (s.sched.updateRound (pollWatch haveSendfile) clock a).1 }
  | swap (s : PollState) (h : s.phase = .updating none) (env : Env) (acc : Accept) (fresh : ℕ)
      (hf : fresh ∉ s.sched.objects) :
      PollStep haveSendfile s { s with
        phase := .serving (.serving
          (((s.sched.setWatch s.sched.watch.swap).getPending env acc fresh).heads .ready))
        sched := (s.sched.setWatch s.sched.watch.swap).getPending env acc fresh }
  | serve (s : PollState) (pt : Point) (h : s.phase = .serving pt) (t : Sched Pfds × Point)
      (ht : SchedStep (pollWatch haveSendfile) (s.sched, pt) t) (hpt : pt.InProcess) :
      PollStep haveSendfile s { s with phase := .serving t.2, sched := t.1 }
  | finish (s : PollState) (h : s.phase = .serving .loop) :
      PollStep haveSendfile s { s with phase := .top }

/-- A state from which the loop calls `poll` without a slip: the listening socket is not put
into the array a second time, and SIGTERM takes out no entry but that of the listening socket. -/
def PollState.Clean (s : PollState) : Prop :=
  (s.sigterm = .none → s.sched.totalConnections < s.sched.maxConnections →
    ∀ i < s.sched.watch.len, (s.sched.watch.pfds i).fd ≠ .server) ∧
  (s.sigterm = .caught → s.serverPfd < s.sched.watch.len →
    (s.sched.watch.pfds s.serverPfd).fd = .server)

/-- The states of the loop; `P` holds of the states from which it went on to `poll`. -/
inductive PollReach (haveSendfile : Bool) (P : PollState → Prop) : PollState → Prop
  | init (conns : ℕ → Conn) (links : Links ℕ) (m : ℕ) (hm : m ≤ maxFd - 20) (w : Pfds)
      (hw : w.len = 0) :
      PollReach haveSendfile P ⟨.init conns links m w, .top, .none, 0, true⟩
  | step {s t : PollState} (h : PollReach haveSendfile P s) (hs : PollStep haveSendfile s t)
      (hP : s.phase = .top → t.phase = .polling → P s) : PollReach haveSendfile P t

/-- What the table must be when `poll` is called: every blocked request has an entry of its
own for the descriptor it waits for, the listening socket is there at most once, and not any
more after shutdown started, and the table fits its array. -/
def PollState.Consistent (haveSendfile : Bool) (s : PollState) : Prop :=
  ∃ B, Linked s.sched.links (s.sched.heads .block) B ∧
    (∀ a ∈ B, (s.sched.conns a).pollfdId < s.sched.watch.len ∧
      (s.sched.watch.pfds (s.sched.conns a).pollfdId).fd =
        .conn ((s.sched.conns a).target haveSendfile).1) ∧
    (∀ a ∈ B, ∀ b ∈ B, (s.sched.conns a).pollfdId = (s.sched.conns b).pollfdId → a = b) ∧
    (∀ i < s.sched.watch.len, ∀ j < s.sched.watch.len, (s.sched.watch.pfds i).fd = .server →
      (s.sched.watch.pfds j).fd = .server → i = j) ∧
    (s.sigterm = .started → ∀ i < s.sched.watch.len, (s.sched.watch.pfds i).fd ≠ .server) ∧
    s.sched.watch.len ≤ maxFd

/-! ### The table -/

/-- The first `n` entries are those of the requests `B`, one each. -/
structure Table (haveSendfile : Bool) (pf : ℕ → PollFd) (n : ℕ) (conns : ℕ → Conn)
    (B : List ℕ) : Prop where
  len : n = B.length
  lt : ∀ a ∈ B, (conns a).pollfdId < n
  entry : ∀ a ∈ B, (pf (conns a).pollfdId).fd = .conn ((conns a).target haveSendfile).1
  inj : ∀ a ∈ B, ∀ b ∈ B, (conns a).pollfdId = (conns b).pollfdId → a = b
  onto : ∀ i < n, ∃ a ∈ B, (conns a).pollfdId = i

namespace Table

variable {haveSendfile : Bool} {pf pf' : ℕ → PollFd} {n : ℕ} {conns conns' : ℕ → Conn} {B : List ℕ}

lemma ne_server (h : Table haveSendfile pf n conns B) {i : ℕ} (hi : i < n) :
    (pf i).fd ≠ .server := by
  obtain ⟨a, ha, rfl⟩ := h.onto i hi
  rw [h.entry a ha]
  exact nofun

/-- Only the entries and the requests of the table matter, and not the order of these. -/
lemma congr {B' : List ℕ} (h : Table haveSendfile pf n conns B) (hB : B'.Perm B)
    (hpf : ∀ i < n, (pf' i).fd = (pf i).fd)
    (hid : ∀ a ∈ B, (conns' a).pollfdId = (conns a).pollfdId)
    (ht : ∀ a ∈ B, (conns' a).target haveSendfile = (conns a).target haveSendfile) :
    Table haveSendfile pf' n conns' B' := by
  have hmem : ∀ {a}, a ∈ B' → a ∈ B := fun ha => hB.subset ha
  refine ⟨h.len.trans hB.length_eq.symm, fun a ha => ?_, fun a ha => ?_, fun a ha b hb hab => ?_,
    fun i hi => ?_⟩
  · rw [hid a (hmem ha)]
    exact h.lt a (hmem ha)
  · rw [hid a (hmem ha), ht a (hmem ha), hpf _ (h.lt a (hmem ha))]
    exact h.entry a (hmem ha)
  · rw [hid a (hmem ha), hid b (hmem hb)] at hab
    exact h.inj a (hmem ha) b (hmem hb) hab
  · obtain ⟨a, ha, hai⟩ := h.onto i hi
    exact ⟨a, hB.symm.subset ha, (hid a ha).trans hai⟩

/-- One more request, with the next entry. -/
lemma cons {a : ℕ} (h : Table haveSendfile pf n conns B) (ha : a ∉ B)
    (hpf : ∀ i < n, (pf' i).fd = (pf i).fd) (hc : ∀ b ∈ B, conns' b = conns b)
    (hid : (conns' a).pollfdId = n) (hfd : (pf' n).fd = .conn ((conns' a).target haveSendfile).1) :
    Table haveSendfile pf' (n + 1) conns' (a :: B) := by
  have h' : Table haveSendfile pf' n conns' B :=
    h.congr (.refl _) hpf (fun b hb => by rw [hc b hb]) fun b hb => by rw [hc b hb]
  refine ⟨by rw [h.len, List.length_cons], fun b hb => ?_, fun b hb => ?_, fun b hb b' hb' he => ?_,
    fun i hi => ?_⟩
  · obtain rfl | hb := List.mem_cons.1 hb
    · omega
    · exact (h'.lt b hb).trans (Nat.lt_succ_self n)
  · obtain rfl | hb := List.mem_cons.1 hb
    · rw [hid]
      exact hfd
    · exact h'.entry b hb
  · obtain rfl | hbB := List.mem_cons.1 hb
    · obtain rfl | hb' := List.mem_cons.1 hb'
      · rfl
      · have := h'.lt b' hb'
        omega
    · obtain rfl | hb' := List.mem_cons.1 hb'
      · have := h'.lt b hbB
        omega
      · exact h'.inj b hbB b' hb' he
  · obtain hi | rfl := Nat.lt_succ_iff_lt_or_eq.1 hi
    · obtain ⟨b, hb, hbi⟩ := h'.onto i hi
      exact ⟨b, List.mem_cons_of_mem a hb, hbi⟩
    · exact ⟨a, List.mem_cons_self, hid⟩

lemma nil (haveSendfile : Bool) (pf : ℕ → PollFd) (conns : ℕ → Conn) :
    Table haveSendfile pf 0 conns [] :=
  ⟨rfl, by simp, by simp, by simp, by simp⟩

end Table

/-- The copying loop, up to the index of the listening socket. -/
lemma compact_le {serverPfd m : ℕ} (src dst : ℕ → PollFd) (h : m ≤ serverPfd) :
    (compact serverPfd m src dst).2 = m ∧
      ∀ j < m, ((compact serverPfd m src dst).1 j).fd = (src j).fd := by
  induction m with
  | zero => exact ⟨rfl, fun j hj => absurd hj (Nat.not_lt_zero j)⟩
  | succ m ih =>
    obtain ⟨h1, h2⟩ := ih (by omega)
    unfold compact at h1 h2 ⊢
    rw [List.range_succ, List.foldl_append, List.foldl_cons, List.foldl_nil, if_neg (by omega)]
    dsimp only
    rw [h1]
    refine ⟨rfl, fun j hj => ?_⟩
    rw [Function.update_apply]
    split_ifs with he
    · rw [he]
    · exact h2 j (by omega)

/-- At that index nothing is copied. -/
lemma compact_succ (serverPfd : ℕ) (src dst : ℕ → PollFd) :
    compact serverPfd (serverPfd + 1) src dst = compact serverPfd serverPfd src dst := by
  unfold compact
  rw [List.range_succ, List.foldl_append, List.foldl_cons, List.foldl_nil, if_pos rfl]

/-! ### The loop -/

section Loop

variable {haveSendfile : Bool} {s t : PollState} {L : Place → List ℕ}

/-- The limits that were ever set leave room in the table. -/
def Sched.Capped {W : Type} (σ : Sched W) : Prop :=
  σ.maxConnections ≤ maxFd - 20 ∧
    (σ.pendingRequests = true → σ.totalConnections ≤ maxFd - 20) ∧
    σ.totalConnections ≤ maxFd - 19

/-- In the loop the table is in `pfds`, and the listening socket may be behind it. -/
def PollState.Arranged (haveSendfile : Bool) (s : PollState) (B : List ℕ) : Prop :=
  ∃ n, Table haveSendfile s.sched.watch.pfds n s.sched.conns B ∧
    (s.sched.watch.len = n ∨
      s.sched.watch.len = n + 1 ∧ (s.sched.watch.pfds n).fd = .server ∧ s.serverPfd = n ∧
        s.sigterm ≠ .started)

/-- In `update_blocked` the entries of the requests already seen are in the other array. -/
def PollState.Halfway (haveSendfile : Bool) (s : PollState) (B : List ℕ) (current : Option ℕ) :
    Prop :=
  ∃ seen todo, B = seen ++ todo ∧ current = todo.head? ∧
    Table haveSendfile s.sched.watch.other s.sched.watch.len s.sched.conns seen ∧
    ∀ a ∈ todo, (s.sched.watch.pfds (s.sched.conns a).pollfdId).fd =
      .conn ((s.sched.conns a).target haveSendfile).1

/-- The invariant of the loop. -/
structure PollInv (haveSendfile : Bool) (s : PollState) (L : Place → List ℕ) : Prop where
  queues : Queues s.sched L
  capped : s.sched.Capped
  room : s.phase = .polling → s.watchServer = true →
    s.sched.totalConnections < s.sched.maxConnections
  off : s.sigterm = .started → s.watchServer = false
  table : match s.phase with
    | .top | .polling => s.Arranged haveSendfile (L .block)
    | .updating current => s.Halfway haveSendfile (L .block) current
    | .serving pt => pt.On L ∧
      Table haveSendfile s.sched.watch.pfds s.sched.watch.len s.sched.conns (L .block)

/-- The table of the requests that the array in use holds. -/
abbrev Sched.Tabled (haveSendfile : Bool) (σ : Sched Pfds) (B : List ℕ) : Prop :=
  Table haveSendfile σ.watch.pfds σ.watch.len σ.conns B

variable {σ : Sched Pfds} {a : ℕ}

lemma Sched.Tabled.of_eq {τ : Sched Pfds} {B : List ℕ} (h : σ.Tabled haveSendfile B)
    (hw : τ.watch = σ.watch) (hc : τ.conns = σ.conns) : τ.Tabled haveSendfile B := by
  unfold Sched.Tabled
  rw [hw, hc]
  exact h

/-- The connection of a request that is not blocked does not matter. -/
lemma Sched.Tabled.setConn {B : List ℕ} (h : σ.Tabled haveSendfile B) (ha : a ∉ B) (c : Conn) :
    (σ.setConn a c).Tabled haveSendfile B := by
  have hc : ∀ b ∈ B, (σ.setConn a c).conns b = σ.conns b := by
    intro b hb
    have hne : b ≠ a := fun he => ha (he ▸ hb)
    exact Function.update_of_ne hne _ _
  exact h.congr (.refl _) (fun _ _ => rfl) (fun b hb => by rw [hc b hb]) fun b hb => by rw [hc b hb]

/-- `BOA_FD_SET` for a request that is put on the block list. -/
lemma Sched.Tabled.fdSet {B : List ℕ} (h : σ.Tabled haveSendfile B) (ha : a ∉ B) {fd : ℕ} {dir : Dir}
    (ht : (σ.conns a).target haveSendfile = (fd, dir)) :
    (σ.fdSet (pollWatch haveSendfile) a (fd, dir)).Tabled haveSendfile (a :: B) := by
  have htarget : ({ σ.conns a with pollfdId := σ.watch.len } : Conn).target haveSendfile =
      (fd, dir) := ht
  refine Table.cons h ha (fun i hi => ?_) (fun b hb => ?_) ?_ ?_
  · simp only [Sched.fdSet, pollWatch]
    rw [Function.update_of_ne (by omega)]
  · have hne : b ≠ a := fun he => ha (he ▸ hb)
    exact Function.update_of_ne hne _ _
  · simp [Sched.fdSet, pollWatch]
  · simp only [Sched.fdSet, pollWatch, Function.update_self]
    rw [htarget]

lemma Sched.dropData_watch (haveSendfile : Bool) (c : Request) :
    (σ.dropData (pollWatch haveSendfile) c).watch = σ.watch := by
  unfold dropData fdClrOpen
  split_ifs <;> rfl

lemma Queues.free_tabled {env : Env} (h : Queues σ L) (ha : a ∈ L .ready)
    (ht : σ.Tabled haveSendfile (L .block)) :
    (σ.freeRequest (pollWatch haveSendfile) env a).Tabled haveSendfile
      (afterFree L a ((σ.conns a).req.freeRequest env).2 .block) := by
  have hab : a ∉ L .block := h.toLists.not_mem ha (by decide)
  obtain ⟨-, -, -, -, -, -, h7⟩ :=
    (σ.dequeue .ready a).dropData_fields (M := pollWatch haveSendfile) (σ.conns a).req
  have hw := (σ.dequeue .ready a).dropData_watch haveSendfile (σ.conns a).req
  generalize hτ : (σ.dequeue .ready a).dropData (pollWatch haveSendfile) (σ.conns a).req = τ at h7 hw
  have hdrop : τ.Tabled haveSendfile (L .block) := ht.of_eq hw h7
  unfold Sched.freeRequest
  dsimp only
  rw [hτ]
  split
  · next hp =>
    rw [hp]
    exact ht.setConn hab _
  · next hp =>
    rw [hp]
    obtain ⟨hend, hstatus⟩ := Request.freeRequest_block hp
    have hset := hdrop.setConn hab
      { σ.conns a with req := ((σ.conns a).req.freeRequest env).1, pollfdId := 0 }
    have htarget : ((τ.setConn a { σ.conns a with
        req := ((σ.conns a).req.freeRequest env).1, pollfdId := 0 }).conns a).target haveSendfile =
        ((σ.conns a).fd, .read) := by
      simp [Sched.setConn, Conn.target, hend, hstatus]
    have hfd := hset.fdSet hab htarget
    rw [afterFree, moved_block]
    exact hfd.of_eq rfl rfl
  · next hp =>
    rw [hp, afterFree, moved_other (by decide) (by decide)]
    exact (hdrop.setConn hab _).of_eq rfl rfl

lemma Queues.getPending_tabled {fresh : ℕ} (h : Queues σ L) (hf : fresh ∉ σ.objects) (env : Env)
    (acc : Accept) (ht : σ.Tabled haveSendfile (L .block)) :
    ∃ L', Queues (σ.getPending env acc fresh) L' ∧ (∀ x ∈ L .ready, x ∈ L' .ready) ∧
      (σ.getPending env acc fresh).Tabled haveSendfile (L' .block) := by
  obtain ⟨L', h', hblock, hjoin⟩ := h.getPending hf env acc
  have hc : ∀ b ∈ L .block, (σ.getPending env acc fresh).conns b = σ.conns b :=
    fun b hb => h.getPending_conns hf (by decide) hb
  have hw := σ.getPending_watch env acc fresh
  refine ⟨L', h', fun x hx => hjoin.ready_mem hx, ?_⟩
  unfold Sched.Tabled
  rw [hblock, hw]
  exact ht.congr (.refl _) (fun _ _ => rfl) (fun b hb => by rw [hc b hb])
    fun b hb => by rw [hc b hb]

/-- A step of `process_requests` keeps the table. -/
lemma SchedStep.tabled {pt : Point} {t : Sched Pfds × Point}
    (hs : SchedStep (pollWatch haveSendfile) (σ, pt) t) (hpt : pt.InProcess) (h : Queues σ L)
    (hon : pt.On L) (ht : σ.Tabled haveSendfile (L .block)) :
    ∃ L', Queues t.1 L' ∧ t.2.On L' ∧ t.1.Tabled haveSendfile (L' .block) := by
  cases hs with
  | watch => cases hpt
  | pending => cases hpt
  | reload => cases hpt
  | beginUpdate => cases hpt
  | update => cases hpt
  | endUpdate => cases hpt
  | beginServe => cases hpt
  | handle σ env a =>
    have ha : a ∈ L .ready := hon a rfl
    exact ⟨L, h.congr rfl rfl rfl rfl, ha, ht.setConn (h.toLists.not_mem ha (by decide)) _⟩
  | accept σ env acc fresh hf a ret =>
    obtain ⟨L', h', hready, ht'⟩ := h.getPending_tabled hf env acc ht
    exact ⟨L', h', hready a hon, ht'⟩
  | dispatch σ env a ret =>
    have ha : a ∈ L .ready := hon
    have hab : a ∉ L .block := h.toLists.not_mem ha (by decide)
    have htouch : Queues (σ.touch env a) L := h.congr rfl rfl rfl rfl
    cases ret with
    | blocked =>
      refine ⟨_, h.blockRequest ha, fun b hb => h.toLists.next_moved ha hb, ?_⟩
      have hq : ((σ.dequeue .ready a).enqueue .block a).Tabled haveSendfile (L .block) :=
        ht.of_eq rfl rfl
      rw [moved_block]
      exact hq.fdSet hab rfl
    | more =>
      exact ⟨L, htouch, fun b hb => (h.linked .ready).next_mem ha hb, ht.setConn hab _⟩
    | done =>
      refine ⟨_, htouch.freeRequest ha, fun b hb => ?_, htouch.free_tabled ha (ht.setConn hab _)⟩
      cases (((σ.touch env a).conns a).req.freeRequest env).2 with
      | ready => exact (h.linked .ready).next_mem ha hb
      | block => exact h.toLists.next_moved ha hb
      | free => exact h.toLists.next_moved ha hb
  | endServe => exact ⟨L, h, trivial, ht⟩

lemma Sched.Capped.getPending {W : Type} {σ : Sched W} (h : σ.Capped) (env : Env) (acc : Accept)
    (fresh : ℕ) : (σ.getPending env acc fresh).Capped := by
  obtain ⟨hm, hp, ht⟩ := h
  obtain ⟨h1, h2, h3, -⟩ := σ.newRequest_fields fresh
  unfold Sched.getPending
  split_ifs with hpend
  · have hroom := hp hpend
    cases acc with
    | nothing => exact ⟨hm, fun hb => absurd hb (by simp [Sched.getRequest]), ht⟩
    | refused => exact ⟨hm, hp, ht⟩
    | failed =>
      refine ⟨h2.le.trans hm, fun _ => h1.le.trans hroom, h1.le.trans ht⟩
    | ok fd peer =>
      simp only [Sched.getRequest, Sched.Capped, Sched.enqueue, Sched.setConn, h1, h2, h3]
      refine ⟨hm, fun hb => ?_, by unfold maxFd at *; omega⟩
      simp only [Bool.and_eq_true, Bool.not_eq_true', decide_eq_false_iff_not, not_lt] at hb
      exact hb.2.trans hm
  · exact ⟨hm, hp, ht⟩

lemma Sched.Capped.mono {W : Type} {σ τ : Sched W} (h : σ.Capped)
    (hp : τ.pendingRequests = σ.pendingRequests) (hm : τ.maxConnections = σ.maxConnections)
    (ht : τ.totalConnections ≤ σ.totalConnections) : τ.Capped :=
  ⟨hm.le.trans h.1, fun hb => ht.trans (h.2.1 (hp ▸ hb)), ht.trans h.2.2⟩

lemma SchedStep.capped {W : Type} {M : Watch W} {s t : Sched W × Point} (hs : SchedStep M s t)
    (hpt : s.2.InProcess) (h : s.1.Capped) : t.1.Capped := by
  cases hs with
  | watch => cases hpt
  | pending => cases hpt
  | reload => cases hpt
  | beginUpdate => cases hpt
  | update => cases hpt
  | endUpdate => cases hpt
  | beginServe => cases hpt
  | handle σ env a => exact h
  | accept σ env acc fresh hf a ret => exact h.getPending env acc fresh
  | dispatch σ env a ret =>
    cases ret with
    | blocked => exact h
    | more => exact h
    | done =>
      obtain ⟨h1, h2, h3⟩ := (σ.touch env a).freeRequest_counts (M := M) env a
      exact h.mono h1 h2 h3
  | endServe => exact h

/-- The entry that a request takes along to the other array. -/
def Pfds.carry (w : Pfds) (c : Conn) : Pfds :=
  { w with
    other := Function.update w.other w.len
      { w.other w.len with fd := (w.pfds c.pollfdId).fd, events := (w.pfds c.pollfdId).events }
    len := w.len + 1 }

/-- A request leaves the block list, or it stays with the next entry. -/
lemma pollScan_cases (haveSendfile : Bool) (clock : Clock) (w : Pfds) (c : Conn) :
    (∃ c', (pollWatch haveSendfile).scan clock w c = (w, c', true)) ∨
      (pollWatch haveSendfile).scan clock w c =
        (w.carry c, { c with pollfdId := w.len }, false) := by
  simp only [pollWatch]
  split_ifs
  · exact .inl ⟨_, rfl⟩
  · exact .inl ⟨_, rfl⟩
  · exact .inl ⟨_, rfl⟩
  · exact .inr rfl

lemma Table.carry {w : Pfds} {conns : ℕ → Conn} {seen : List ℕ}
    (h : Table haveSendfile w.other w.len conns seen) (ha : a ∉ seen)
    (hfd : (w.pfds (conns a).pollfdId).fd = .conn ((conns a).target haveSendfile).1) :
    Table haveSendfile (w.carry (conns a)).other (w.carry (conns a)).len
      (Function.update conns a { conns a with pollfdId := w.len }) (seen ++ [a]) := by
  have hcons : Table haveSendfile (w.carry (conns a)).other (w.len + 1)
      (Function.update conns a { conns a with pollfdId := w.len }) (a :: seen) := by
    refine h.cons ha (fun i hi => ?_) (fun b hb => ?_) ?_ ?_
    · simp only [Pfds.carry]
      rw [Function.update_of_ne (by omega)]
    · have hne : b ≠ a := fun he => ha (he ▸ hb)
      exact Function.update_of_ne hne _ _
    · simp
    · simp only [Pfds.carry, Function.update_self]
      exact hfd
  exact hcons.congr (List.perm_append_singleton a seen) (fun _ _ => rfl) (fun _ _ => rfl)
    fun _ _ => rfl

/-- One round of `update_blocked`. -/
lemma PollState.Halfway.update (h : s.Halfway haveSendfile (L .block) (some a)) (clock : Clock)
    (hq : Queues s.sched L) :
    ∃ L', Queues (s.sched.updateRound (pollWatch haveSendfile) clock a).1 L' ∧
      { s with sched := (s.sched.updateRound (pollWatch haveSendfile) clock a).1 }.Halfway
        haveSendfile (L' .block) (s.sched.updateRound (pollWatch haveSendfile) clock a).2 := by
  obtain ⟨seen, todo, hB, hcur, hseen, htodo⟩ := h
  obtain ⟨todo, rfl⟩ : ∃ m, todo = a :: m := by
    cases todo with
    | nil => cases hcur
    | cons b m =>
      cases hcur
      exact ⟨m, rfl⟩
  have hl := hq.linked .block
  rw [hB] at hl
  have hnext : s.sched.links.next a = todo.head? := hl.around.2.1
  have ha : a ∈ L .block := by simp [hB]
  have hnodup := hl.nodup
  have haseen : a ∉ seen := fun hx =>
    (List.nodup_append.1 hnodup).2.2 a hx a List.mem_cons_self rfl
  have hatodo : a ∉ todo := (List.nodup_cons.1 (List.nodup_append.1 hnodup).2.1).1
  -- a request that goes to the ready list
  have hready : ∀ c : Conn, ∃ L', Queues ((s.sched.setConn a c).readyRequest
        (pollWatch haveSendfile) a) L' ∧
      { s with sched := (s.sched.setConn a c).readyRequest (pollWatch haveSendfile) a }.Halfway
        haveSendfile (L' .block) (s.sched.links.next a) := by
    intro c
    have hconn : ∀ b, b ≠ a → ((s.sched.setConn a c).readyRequest
        (pollWatch haveSendfile) a).conns b = s.sched.conns b :=
      fun b hb => Function.update_of_ne hb _ _
    refine ⟨_, (hq.setConn a c).readyRequest ha, seen, todo, ?_, hnext, ?_, fun b hb => ?_⟩
    · simp only [moved, ne_eq, reduceCtorEq, not_false_eq_true, Function.update_of_ne,
        Function.update_self, hB]
      rw [List.erase_append_right _ haseen, List.erase_cons_head]
    · have hne : ∀ b ∈ seen, b ≠ a := fun b hb he => haseen (he ▸ hb)
      exact hseen.congr (.refl _) (fun _ _ => rfl) (fun b hb => by rw [hconn b (hne b hb)])
        fun b hb => by rw [hconn b (hne b hb)]
    · rw [hconn b fun he => hatodo (he ▸ hb)]
      exact htodo b (List.mem_cons_of_mem a hb)
  unfold Sched.updateRound
  obtain ⟨c, hscan⟩ | hscan := pollScan_cases haveSendfile clock s.sched.watch (s.sched.conns a)
  · simp only [hscan, if_true]
    exact hready c
  · simp only [hscan, Bool.false_eq_true, if_false]
    -- a request that stays gets the next entry of the other array
    refine ⟨L, hq.congr rfl rfl rfl rfl, seen ++ [a], todo, by simp [hB], hnext,
      hseen.carry haseen (htodo a List.mem_cons_self), fun b hb => ?_⟩
    have hne : b ≠ a := fun he => hatodo (he ▸ hb)
    simp only [Sched.setConn, Function.update_of_ne hne]
    exact htodo b (List.mem_cons_of_mem a hb)

/-- Where the listening socket is among the entries. -/
lemma PollState.Arranged.server {B : List ℕ} (h : s.Arranged haveSendfile B) {i : ℕ}
    (hi : i < s.sched.watch.len) (hs : (s.sched.watch.pfds i).fd = .server) :
    i + 1 = s.sched.watch.len ∧ s.serverPfd = i ∧ s.sigterm ≠ .started := by
  obtain ⟨n, ht, hlen | ⟨hlen, -, hpfd, hterm⟩⟩ := h
  · exact (ht.ne_server (by omega) hs).elim
  · have hin : ¬i < n := fun hlt => ht.ne_server hlt hs
    exact ⟨by omega, by omega, hterm⟩

/-- Removing the listening socket from a table that Clean allows. -/
lemma PollState.Arranged.removeServer {B : List ℕ} (h : s.Arranged haveSendfile B)
    (hclean : s.serverPfd < s.sched.watch.len →
      (s.sched.watch.pfds s.serverPfd).fd = .server) :
    Table haveSendfile (s.sched.watch.removeServer s.serverPfd).pfds
      (s.sched.watch.removeServer s.serverPfd).len s.sched.conns B := by
  have hcopy : ∃ n, Table haveSendfile s.sched.watch.pfds n s.sched.conns B ∧ n ≤ s.serverPfd ∧
      compact s.serverPfd s.sched.watch.len s.sched.watch.pfds s.sched.watch.other =
        compact s.serverPfd n s.sched.watch.pfds s.sched.watch.other := by
    obtain ⟨n, ht, hlen | ⟨hlen, hsrv, hpfd, -⟩⟩ := h
    · refine ⟨n, ht, ?_, by rw [hlen]⟩
      by_contra hlt
      exact ht.ne_server (not_le.1 hlt) (hclean (by omega))
    · subst hpfd
      exact ⟨_, ht, le_rfl, by rw [hlen, compact_succ]⟩
  obtain ⟨n, ht, hle, heq⟩ := hcopy
  obtain ⟨h1, h2⟩ := compact_le s.sched.watch.pfds s.sched.watch.other hle
  unfold Pfds.removeServer
  dsimp only
  rw [heq, h1]
  exact ht.congr (.refl _) h2 (fun _ _ => rfl) fun _ _ => rfl

lemma PollState.Arranged.addServer {B : List ℕ} (h : s.Arranged haveSendfile B)
    (hclean : ∀ i < s.sched.watch.len, (s.sched.watch.pfds i).fd ≠ .server) :
    s.sched.watch.len = B.length ∧
      Table haveSendfile s.sched.watch.addServer.pfds s.sched.watch.len s.sched.conns B := by
  obtain ⟨n, ht, hlen | ⟨hlen, hsrv, -⟩⟩ := h
  · refine ⟨hlen.trans ht.len, ?_⟩
    rw [hlen]
    refine ht.congr (.refl _) (fun i hi => ?_) (fun _ _ => rfl) fun _ _ => rfl
    simp only [Pfds.addServer]
    rw [Function.update_of_ne (by omega)]
  · exact (hclean n (by omega) hsrv).elim

lemma PollStep.inv (hs : PollStep haveSendfile s t)
    (hP : s.phase = .top → t.phase = .polling → s.Clean) (h : PollInv haveSendfile s L) :
    ∃ L', PollInv haveSendfile t L' := by
  have htable := h.table
  cases hs with
  | catchSigterm hnone =>
    refine ⟨L, h.queues, h.capped, h.room, nofun, ?_⟩
    have hcaught : s.Arranged haveSendfile (L .block) →
        { s with sigterm := .caught }.Arranged haveSendfile (L .block) := by
      rintro ⟨n, ht, hlen⟩
      exact ⟨n, ht, hlen.imp_right fun hl => ⟨hl.1, hl.2.1, hl.2.2.1, by simp⟩⟩
    cases hphase : s.phase <;> simp only [hphase] at htable ⊢
    · exact hcaught htable
    · exact hcaught htable
    · exact htable
    · exact htable
  | reload m hphase hm =>
    refine ⟨_, h.queues.freeRequests.congr rfl rfl rfl rfl, ⟨hm, h.capped.2.1, h.capped.2.2⟩, ?_,
      h.off, ?_⟩
    · simp [hphase]
    · simp only [hphase] at htable ⊢
      rw [Function.update_of_ne (by decide)]
      exact htable
  | shutdown hphase hterm =>
    simp only [hphase] at htable
    have hclean := (hP hphase rfl).2 hterm
    refine ⟨L, h.queues.congr rfl rfl rfl rfl, ⟨h.capped.1, nofun, h.capped.2.2⟩, fun _ => nofun,
      fun _ => rfl, _, htable.removeServer hclean, .inl rfl⟩
  | drain hphase hterm =>
    simp only [hphase] at htable
    refine ⟨L, h.queues.congr rfl rfl rfl rfl, ⟨h.capped.1, nofun, h.capped.2.2⟩, fun _ hw => ?_,
      h.off, htable⟩
    rw [show s.watchServer = false from h.off hterm] at hw
    cases hw
  | watchServer hphase hterm hroom =>
    simp only [hphase] at htable
    have hclean := (hP hphase rfl).1 hterm hroom
    obtain ⟨hlen, ht⟩ := htable.addServer hclean
    refine ⟨L, h.queues.congr rfl rfl rfl rfl, ⟨h.capped.1, nofun, h.capped.2.2⟩, fun _ _ => hroom,
      fun hstart => ?_, _, ht, .inr ⟨rfl, ?_, rfl, ?_⟩⟩
    · simp [hterm] at hstart
    · simp [Sched.setPending, Sched.setWatch, Pfds.addServer]
    · simp [hterm]
  | full hphase hterm hroom =>
    simp only [hphase] at htable
    exact ⟨L, h.queues.congr rfl rfl rfl rfl, ⟨h.capped.1, nofun, h.capped.2.2⟩, fun _ => nofun,
      fun _ => rfl, htable⟩
  | eintr hphase hlen =>
    simp only [hphase] at htable
    exact ⟨L, h.queues, h.capped, nofun, h.off, htable⟩
  | poll hphase revents =>
    simp only [hphase] at htable
    refine ⟨L, h.queues.congr rfl rfl rfl rfl, ⟨h.capped.1, fun hb => ?_, h.capped.2.2⟩, nofun,
      h.off, [], L .block, rfl, (h.queues.linked .block).head_eq, Table.nil _ _ _, ?_⟩
    · simp only [Sched.setPending, Bool.and_eq_true, decide_eq_true_eq] at hb
      exact (h.room hphase hb.1.1.2).le.trans h.capped.1
    · obtain ⟨n, ht, -⟩ := htable
      exact ht.entry
  | update clock a hphase =>
    simp only [hphase] at htable
    obtain ⟨L', hq, hhalf⟩ := htable.update clock h.queues
    refine ⟨L', hq, h.capped.mono ?_ ?_ (le_of_eq ?_), nofun, h.off, hhalf⟩
    · exact s.sched.updateRound_counts.1
    · exact s.sched.updateRound_counts.2.1
    · exact s.sched.updateRound_counts.2.2
  | swap hphase env acc fresh hf =>
    simp only [hphase] at htable
    obtain ⟨seen, todo, hB, hcur, hseen, -⟩ := htable
    obtain rfl : todo = [] := List.head?_eq_none_iff.1 hcur.symm
    rw [List.append_nil] at hB
    have hq : Queues (s.sched.setWatch s.sched.watch.swap) L := h.queues.congr rfl rfl rfl rfl
    have ht : (s.sched.setWatch s.sched.watch.swap).Tabled haveSendfile (L .block) := hB ▸ hseen
    obtain ⟨L', hq', hon, ht'⟩ := hq.getPending_tabled hf env acc ht
    have hcap : (s.sched.setWatch s.sched.watch.swap).Capped := h.capped
    exact ⟨L', hq', hcap.getPending env acc fresh, nofun, h.off,
      fun a ha => (hq'.linked .ready).head_mem ha, ht'⟩
  | serve pt hphase u hu hpt =>
    simp only [hphase] at htable
    obtain ⟨L', hq, hon, ht⟩ := hu.tabled hpt h.queues htable.1 htable.2
    exact ⟨L', hq, hu.capped hpt h.capped, nofun, h.off, hon, ht⟩
  | finish hphase =>
    simp only [hphase] at htable
    exact ⟨L, h.queues, h.capped, nofun, h.off, _, htable.2, .inl rfl⟩

end Loop

/-- In a run that never takes one of the two slips of the loop, the table is consistent at
every call of `poll`. -/
theorem pollTable_consistent {haveSendfile : Bool} {s : PollState}
    (h : PollReach haveSendfile PollState.Clean s) (hs : s.phase = .polling) :
    s.Consistent haveSendfile := by
  have hinv : ∃ L, PollInv haveSendfile s L := by
    clear hs
    induction h with
    | init conns links m hm w hw =>
      refine ⟨fun _ => [], ⟨⟨fun p => ⟨rfl, trivial, List.nodup_nil⟩, fun p q a ha => ?_⟩,
        fun a => ?_, rfl⟩, ⟨hm, nofun, Nat.zero_le _⟩, nofun, nofun, 0, Table.nil _ _ _, .inl hw⟩
      · cases ha
      · simp [Sched.init]
    | step _ hstep hP ih =>
      obtain ⟨L, hL⟩ := ih
      exact hstep.inv hP hL
  obtain ⟨L, hL⟩ := hinv
  have htable := hL.table
  simp only [hs] at htable
  have hserver := fun {i : ℕ} => htable.server (i := i)
  obtain ⟨n, ht, hlen⟩ := htable
  have hle : n ≤ s.sched.watch.len := by omega
  refine ⟨L .block, hL.queues.linked .block, fun a ha => ⟨(ht.lt a ha).trans_le hle, ht.entry a ha⟩,
    ht.inj, fun i hi j hj h1 h2 => ?_, fun hterm i hi h1 => (hserver hi h1).2.2 hterm, ?_⟩
  · have := (hserver hi h1).1
    have := (hserver hj h2).1
    omega
  · have h1 := ht.len
    have h2 := hL.queues.total
    have h3 := hL.capped.2.2
    unfold maxFd at *
    omega

/-- The poll build before its first round, with nothing connected. -/
def idlePoll : PollState where
  sched := .init (fun _ => { req := {} }) ⟨fun _ => none, fun _ => none⟩ 10
    ⟨fun _ => ⟨.conn 0, .read, {}⟩, fun _ => ⟨.conn 0, .read, {}⟩, 0⟩
  phase := .top
  sigterm := .none
  serverPfd := 0
  watchServer := true

lemma idlePoll_reach (P : PollState → Prop) : PollReach true P idlePoll :=
  .init _ _ 10 (by decide) _ rfl

/-- One more entry for the listening socket, up to the call of `poll`. -/
def PollState.watched (s : PollState) : PollState :=
  { s with
    phase := .polling
    sched := (s.sched.setWatch s.sched.watch.addServer).setPending false
    serverPfd := s.sched.watch.len
    watchServer := true }

/-- A connection has come on descriptor 7, and `process_requests` begins. -/
def acceptedPoll : PollState :=
  let σ := (idlePoll.watched.sched.setWatch
    { idlePoll.watched.sched.watch.answer (fun _ => ⟨false, true⟩) with len := 0 }).setPending true
  { idlePoll.watched with
    phase := .serving (.serving (some 1))
    sched := (σ.setWatch σ.watch.swap).getPending tinyEnv (.ok 7 tinyPeer) 1 }

/-- Nothing has been read from it yet, and the loop is back at its top. -/
def blockedPoll : PollState :=
  { acceptedPoll with
    phase := .top
    sched := ((acceptedPoll.sched.handle tinyEnv 1).1.getPending tinyEnv .nothing 2).blockRequest
      (pollWatch true) 1 }

lemma acceptedPoll_reach : PollReach true PollState.Clean acceptedPoll := by
  have h1 : PollReach true PollState.Clean idlePoll.watched := by
    refine .step (idlePoll_reach _) (.watchServer idlePoll rfl rfl (by decide)) fun _ _ => ?_
    exact ⟨fun _ _ i hi => absurd hi (Nat.not_lt_zero i), fun h => absurd h (by decide)⟩
  have h2 := h1.step (.poll _ rfl fun _ => ⟨false, true⟩) fun h => by cases h
  exact h2.step (.swap _ rfl tinyEnv (.ok 7 tinyPeer) 1 (by decide)) fun h => by cases h

lemma blockedPoll_reach : PollReach true PollState.Clean blockedPoll := by
  have hret : (acceptedPoll.sched.handle tinyEnv 1).2 = .blocked := by decide
  have hnext : ((acceptedPoll.sched.handle tinyEnv 1).1.getPending tinyEnv .nothing 2).links.next 1 = none := by
    decide
  have h3 := acceptedPoll_reach.step (.serve _ _ rfl _ (.handle _ tinyEnv 1) trivial) fun h => by cases h
  rw [hret] at h3
  have h4 := h3.step (.serve _ _ rfl _ (.accept _ tinyEnv .nothing 2 (by decide) 1 .blocked) trivial)
    fun h => by cases h
  have h5 := h4.step (.serve _ _ rfl _ (.dispatch _ tinyEnv 1 .blocked) trivial) fun h => by cases h
  have hend : (Sched.dispatch (pollWatch true) (((acceptedPoll.sched.handle tinyEnv 1).1).getPending tinyEnv
      .nothing 2) tinyEnv 1 .blocked).2 = none := hnext
  rw [hend] at h5
  have h6 := h5.step (.serve _ _ rfl _ (.endServe _) trivial) fun h => by cases h
  exact h6.step (.finish _ rfl) fun h => by cases h

/-- At the next call of `poll` the connection is blocked, its entry in front of that of the listening
socket. -/
theorem pollTable_consistent_blocked :
    blockedPoll.watched.sched.heads .block = some 1 ∧ blockedPoll.watched.sched.watch.len = 2 ∧
      blockedPoll.watched.Consistent true := by
  refine ⟨by decide, by decide, pollTable_consistent (.step blockedPoll_reach
    (.watchServer blockedPoll rfl rfl (by decide)) ?_) rfl⟩
  intro _ _
  refine ⟨fun _ _ i hi => ?_, fun h => absurd h (by decide)⟩
  have hlen : blockedPoll.sched.watch.len = 1 := by decide
  obtain rfl : i = 0 := by omega
  decide

/-- A `poll` that is interrupted and called again: the listening socket is there twice. -/
theorem interrupted_poll_inconsistent :
    PollReach true (fun _ => True) { idlePoll.watched with phase := .top }.watched ∧
      ¬{ idlePoll.watched with phase := .top }.watched.Consistent true := by
  constructor
  · have hfirst : PollReach true (fun _ => True) idlePoll.watched :=
      .step (idlePoll_reach _) (.watchServer idlePoll rfl rfl (by decide)) fun _ _ => trivial
    have hagain : PollReach true (fun _ => True) { idlePoll.watched with phase := .top } :=
      .step hfirst (.eintr _ rfl (by decide)) fun _ _ => trivial
    exact .step hagain (.watchServer _ rfl rfl (by decide)) fun _ _ => trivial
  · rintro ⟨B, -, -, -, honce, -, -⟩
    have hlen : { idlePoll.watched with phase := .top }.watched.sched.watch.len = 2 := by decide
    have heq := honce 0 (by omega) 1 (by omega) (by decide) (by decide)
    cases heq

end Boa
