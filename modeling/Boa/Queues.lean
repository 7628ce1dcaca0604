import Boa.Delivery
import Boa.Scheduler

/-! The queues of requests in every state of the server: three disjoint doubly linked lists
of all request objects, and as many connections as requests that are ready or blocked. -/
namespace Boa
open DList

variable {W : Type} {M : Watch W} {σ : Sched W} {L : Place → List ℕ} {a : ℕ}

/-- Each head points to a well-formed list of its nodes, and no node is on two lists. -/
structure Lists (σ : Sched W) (L : Place → List ℕ) : Prop where
  linked : ∀ p, Linked σ.links (σ.heads p) (L p)
  apart : ∀ p q a, a ∈ L p → a ∈ L q → p = q

/-- All request objects are on the lists, and the connections are counted. -/
structure Queues (σ : Sched W) (L : Place → List ℕ) : Prop extends Lists σ L where
  objects : ∀ a, a ∈ σ.objects ↔ ∃ p, a ∈ L p
  total : σ.totalConnections = (L .ready).length + (L .block).length

namespace Lists

lemma dequeue (h : Lists σ L) {p : Place} (ha : a ∈ L p) :
    Lists (σ.dequeue p a) (Function.update L p ((L p).erase a)) := by
  have hsub : ∀ q x, x ∈ Function.update L p ((L p).erase a) q → x ∈ L q := by
    intro q x hx
    rw [Function.update_apply] at hx
    split_ifs at hx with hq
    · exact hq ▸ List.mem_of_mem_erase hx
    · exact hx
  refine ⟨fun q => ?_, fun q q' x hq hq' => h.apart q q' x (hsub q x hq) (hsub q' x hq')⟩
  simp only [Sched.dequeue]
  by_cases hq : q = p
  · subst hq
    rw [Function.update_self, Function.update_self]
    exact (h.linked q).dequeue ha
  · rw [Function.update_of_ne hq, Function.update_of_ne hq]
    exact (h.linked p).dequeue_frame ha (h.linked q) fun x hx hp => hq (h.apart q p x hx hp)

lemma enqueue (h : Lists σ L) (p : Place) (ha : ∀ q, a ∉ L q) :
    Lists (σ.enqueue p a) (Function.update L p (a :: L p)) := by
  have hmem : ∀ q x, x ∈ Function.update L p (a :: L p) q → (q = p ∧ x = a) ∨ x ∈ L q := by
    intro q x hx
    rw [Function.update_apply] at hx
    split_ifs at hx with hq
    · exact (List.mem_cons.1 hx).imp (fun h => ⟨hq, h⟩) fun h => hq ▸ h
    · exact .inr hx
  refine ⟨fun q => ?_, fun q q' x hq hq' => ?_⟩
  · simp only [Sched.enqueue]
    by_cases hq : q = p
    · subst hq
      rw [Function.update_self, Function.update_self]
      exact (h.linked q).enqueue (ha q)
    · rw [Function.update_of_ne hq, Function.update_of_ne hq]
      exact (h.linked p).enqueue_frame (h.linked q) (fun x hx hp => hq (h.apart q p x hx hp)) (ha q)
  · obtain ⟨rfl, rfl⟩ | hx := hmem q x hq
    · obtain ⟨rfl, -⟩ | hx' := hmem q' x hq'
      · rfl
      · exact (ha q' hx').elim
    · obtain ⟨rfl, rfl⟩ | hx' := hmem q' x hq'
      · exact (ha q hx).elim
      · exact h.apart q q' x hx hx'

/-- A node that was taken out is on no list. -/
lemma not_mem_dequeue (h : Lists σ L) {p : Place} (ha : a ∈ L p) (q : Place) :
    a ∉ Function.update L p ((L p).erase a) q := by
  rw [Function.update_apply]
  split_ifs with hq
  · exact (h.linked p).nodup.not_mem_erase
  · exact fun hx => hq (h.apart q p a hx ha)

end Lists

/-- The lists after a node went from one to the other. -/
def moved (L : Place → List ℕ) (p q : Place) (a : ℕ) : Place → List ℕ :=
  let L' := Function.update L p ((L p).erase a)
  Function.update L' q (a :: L' q)

lemma Lists.move (h : Lists σ L) {p : Place} (ha : a ∈ L p) (q : Place) :
    Lists ((σ.dequeue p a).enqueue q a) (moved L p q a) :=
  (h.dequeue ha).enqueue q (h.not_mem_dequeue ha)

lemma mem_moved (h : Lists σ L) {p : Place} (ha : a ∈ L p) {q r : Place} {x : ℕ} :
    x ∈ moved L p q a r ↔ (x = a ∧ r = q) ∨ (x ≠ a ∧ x ∈ L r) := by
  have herase : ∀ r, x ∈ Function.update L p ((L p).erase a) r ↔ x ≠ a ∧ x ∈ L r := by
    intro r
    rw [Function.update_apply]
    split_ifs with hr
    · rw [hr, (h.linked p).nodup.mem_erase_iff]
    · exact ⟨fun hx => ⟨fun he => hr (h.apart r p a (he ▸ hx) ha), hx⟩, And.right⟩
  unfold moved
  rw [Function.update_apply]
  split_ifs with hr
  · rw [List.mem_cons, herase, hr]
    simp
  · rw [herase]
    simp [hr]

lemma Lists.not_mem (h : Lists σ L) {p q : Place} (ha : a ∈ L p)
    (hpq : p ≠ q) : a ∉ L q := fun hq => hpq (h.apart p q a ha hq)

lemma moved_other {p q r : Place} (hp : r ≠ p) (hq : r ≠ q) : moved L p q a r = L r := by
  simp [moved, Function.update_of_ne, hp, hq]

lemma moved_block : moved L .ready .block a .block = a :: L .block := by
  simp [moved]

lemma Queues.congr {τ : Sched W} (h : Queues σ L) (hl : τ.links = σ.links)
    (hh : τ.heads = σ.heads) (ho : τ.objects = σ.objects)
    (ht : τ.totalConnections = σ.totalConnections) : Queues τ L := by
  refine ⟨⟨fun p => ?_, h.apart⟩, ?_, ht.trans h.total⟩
  · rw [hl, hh]
    exact h.linked p
  · rw [ho]
    exact h.objects

namespace Queues

/-- What is left to show of the counts when a node goes to another list. -/
lemma of_move {p q : Place} (h : Queues σ L) (ha : a ∈ L p) {τ : Sched W}
    (hl : τ.links = ((σ.dequeue p a).enqueue q a).links)
    (hh : τ.heads = ((σ.dequeue p a).enqueue q a).heads) (ho : τ.objects = σ.objects)
    (ht : τ.totalConnections =
      (moved L p q a .ready).length + (moved L p q a .block).length) :
    Queues τ (moved L p q a) := by
  have hm := h.toLists.move ha q
  refine ⟨⟨fun r => ?_, hm.apart⟩, fun x => ?_, ht⟩
  · rw [hl, hh]
    exact hm.linked r
  · rw [ho, h.objects]
    simp only [mem_moved h.toLists ha]
    by_cases hx : x = a
    · subst hx
      exact ⟨fun _ => ⟨q, .inl ⟨rfl, rfl⟩⟩, fun _ => ⟨p, ha⟩⟩
    · simp [hx]

lemma setConn (h : Queues σ L) (a : ℕ) (c : Conn) : Queues (σ.setConn a c) L :=
  h.congr rfl rfl rfl rfl

lemma blockRequest (h : Queues σ L) (ha : a ∈ L .ready) :
    Queues (σ.blockRequest M a) (moved L .ready .block a) := by
  refine h.of_move ha rfl rfl rfl ?_
  have hpos := List.length_pos_of_mem ha
  have ht : (σ.blockRequest M a).totalConnections = σ.totalConnections := rfl
  simp only [moved, ne_eq, reduceCtorEq, not_false_eq_true, Function.update_of_ne,
    Function.update_self, List.length_cons, List.length_erase_of_mem ha, ht, h.total]
  omega

lemma readyRequest (h : Queues σ L) (ha : a ∈ L .block) :
    Queues (σ.readyRequest M a) (moved L .block .ready a) := by
  refine h.of_move ha rfl rfl rfl ?_
  have hpos := List.length_pos_of_mem ha
  have ht : (σ.readyRequest M a).totalConnections = σ.totalConnections := rfl
  simp only [moved, ne_eq, reduceCtorEq, not_false_eq_true, Function.update_of_ne,
    Function.update_self, List.length_cons, List.length_erase_of_mem ha, ht, h.total]
  omega

end Queues

lemma Sched.dropData_fields (c : Request) :
    (σ.dropData M c).links = σ.links ∧ (σ.dropData M c).heads = σ.heads ∧
      (σ.dropData M c).objects = σ.objects ∧
      (σ.dropData M c).totalConnections = σ.totalConnections ∧
      (σ.dropData M c).maxConnections = σ.maxConnections ∧
      (σ.dropData M c).pendingRequests = σ.pendingRequests ∧
      (σ.dropData M c).conns = σ.conns := by
  unfold dropData fdClrOpen
  split_ifs <;> exact ⟨rfl, rfl, rfl, rfl, rfl, rfl, rfl⟩

/-- A connection that is kept alive waits for a new request. -/
lemma Request.freeRequest_block {env : Env} {c : Request} (h : (c.freeRequest env).2 = .block) :
    (c.freeRequest env).1.bufferEnd = 0 ∧ (c.freeRequest env).1.status = .readHeader := by
  have hend : ∀ d : Request, (d.endRequest env).2 = .block →
      (d.endRequest env).1.bufferEnd = 0 ∧ (d.endRequest env).1.status = .readHeader := by
    intro d hd
    unfold endRequest at hd ⊢
    dsimp only at hd ⊢
    split_ifs at hd ⊢
    exact ⟨rfl, rfl⟩
  unfold freeRequest at h ⊢
  split_ifs at h ⊢
  · dsimp only at h ⊢
    split at h
    · exact hend _ h
    · cases h
    · exact hend _ h
    · exact hend _ h
  · exact hend c h

/-- Where a request is after `free_request`. -/
def afterFree (L : Place → List ℕ) (a : ℕ) : Place → Place → List ℕ
  | .ready => L
  | .block => moved L .ready .block a
  | .free => moved L .ready .free a

lemma Queues.freeRequest {env : Env} (h : Queues σ L) (ha : a ∈ L .ready) :
    Queues (σ.freeRequest M env a) (afterFree L a ((σ.conns a).req.freeRequest env).2) := by
  have hpos := List.length_pos_of_mem ha
  obtain ⟨h1, h2, h3, h4, -⟩ := (σ.dequeue .ready a).dropData_fields (M := M) (σ.conns a).req
  unfold Sched.freeRequest
  dsimp only
  split
  · next hp =>
    rw [hp]
    exact h.setConn a _
  · next hp =>
    rw [hp]
    refine h.of_move ha ?_ ?_ h3 ?_
    · simp only [Sched.fdClr, Sched.fdSet, Sched.enqueue, Sched.setConn, h1, h2]
    · simp only [Sched.fdClr, Sched.fdSet, Sched.enqueue, Sched.setConn, h1, h2]
    · have ht : (σ.dequeue .ready a).totalConnections = σ.totalConnections := rfl
      simp only [Sched.fdClr, Sched.fdSet, Sched.enqueue, Sched.setConn, h4, ht, h.total]
      simp only [moved, ne_eq, reduceCtorEq, not_false_eq_true, Function.update_of_ne,
        Function.update_self, List.length_cons, List.length_erase_of_mem ha]
      omega
  · next hp =>
    rw [hp]
    refine h.of_move ha ?_ ?_ h3 ?_
    · simp only [Sched.fdClr, Sched.enqueue, Sched.setConn, h1, h2]
    · simp only [Sched.fdClr, Sched.enqueue, Sched.setConn, h1, h2]
    · have ht : (σ.dequeue .ready a).totalConnections = σ.totalConnections := rfl
      simp only [Sched.fdClr, Sched.enqueue, Sched.setConn, h4, ht, h.total]
      simp only [moved, ne_eq, reduceCtorEq, not_false_eq_true, Function.update_of_ne,
        Function.update_self, List.length_erase_of_mem ha]
      omega

/-- `new_request` takes a node off the free list, or one that is new. -/
lemma Queues.newRequest {fresh : ℕ} (h : Queues σ L) (hf : fresh ∉ σ.objects) :
    ∃ F, Lists (σ.newRequest fresh).1 (Function.update L .free F) ∧
      (∀ q, (σ.newRequest fresh).2 ∉ Function.update L .free F q) ∧
      ∀ x, x ∈ (σ.newRequest fresh).1.objects ↔
        x = (σ.newRequest fresh).2 ∨ ∃ q, x ∈ Function.update L .free F q := by
  unfold Sched.newRequest
  cases hfree : σ.heads .free with
  | none =>
    have hnot : ∀ q, fresh ∉ L q := fun q hq => hf ((h.objects fresh).2 ⟨q, hq⟩)
    refine ⟨L .free, ?_, ?_, fun x => ?_⟩
    · rw [Function.update_eq_self]
      exact ⟨h.linked, h.apart⟩
    · rw [Function.update_eq_self]
      exact hnot
    · rw [Function.update_eq_self, List.mem_cons, h.objects]
  | some a =>
    have ha : a ∈ L .free := (h.linked .free).head_mem hfree
    refine ⟨(L .free).erase a, h.toLists.dequeue ha, h.toLists.not_mem_dequeue ha, fun x => ?_⟩
    rw [show x ∈ (σ.dequeue .free a).objects ↔ x ∈ σ.objects from Iff.rfl, h.objects]
    simp only [Function.update_apply]
    constructor
    · rintro ⟨q, hq⟩
      by_cases hx : x = a
      · exact .inl hx
      · refine .inr ⟨q, ?_⟩
        split_ifs with he
        · rw [List.mem_erase_of_ne hx]
          exact he ▸ hq
        · exact hq
    · rintro (rfl | ⟨q, hq⟩)
      · exact ⟨_, ha⟩
      · split_ifs at hq with he
        · exact ⟨_, List.mem_of_mem_erase hq⟩
        · exact ⟨q, hq⟩

lemma Sched.newRequest_fields (fresh : ℕ) :
    (σ.newRequest fresh).1.totalConnections = σ.totalConnections ∧
      (σ.newRequest fresh).1.maxConnections = σ.maxConnections ∧
      (σ.newRequest fresh).1.pendingRequests = σ.pendingRequests ∧
      (σ.newRequest fresh).1.conns = σ.conns ∧ (σ.newRequest fresh).1.watch = σ.watch := by
  unfold newRequest
  split <;> exact ⟨rfl, rfl, rfl, rfl, rfl⟩

/-- What `get_request` adds: nothing, or one request that was on no list. -/
def Joined (env : Env) (acc : Accept) (σ τ : Sched W) (L L' : Place → List ℕ) : Prop :=
  (L' .ready = L .ready ∧ τ.conns = σ.conns) ∨
    ∃ fd peer n c, acc = .ok fd peer ∧ n ∉ L .ready ∧ n ∉ L .block ∧ L' .ready = n :: L .ready ∧
      τ.conns = Function.update σ.conns n c ∧ c.fd = fd ∧
      ∃ b old, c.req = Request.getRequest env { peer with tooMany := b } old

lemma Joined.ready_mem {env : Env} {acc : Accept} {τ : Sched W} {L' : Place → List ℕ} (h : Joined env acc σ τ L L')
    {x : ℕ} (hx : x ∈ L .ready) : x ∈ L' .ready := by
  obtain ⟨he, -⟩ | ⟨-, -, n, -, -, -, -, he, -⟩ := h
  · rw [he]
    exact hx
  · rw [he]
    exact List.mem_cons_of_mem n hx

/-- `get_request` leaves the block list alone and adds at most one request. -/
lemma Queues.getRequest {fresh : ℕ} (h : Queues σ L) (hf : fresh ∉ σ.objects) (env : Env)
    (acc : Accept) :
    ∃ L', Queues (σ.getRequest env acc fresh) L' ∧ L' .block = L .block ∧
      Joined env acc σ (σ.getRequest env acc fresh) L L' := by
  obtain ⟨F, hlists, hnot, hobj⟩ := h.newRequest hf
  obtain ⟨h1, h2, h3, h4, -⟩ := σ.newRequest_fields fresh
  generalize hr : σ.newRequest fresh = r at hlists hnot hobj h1 h2 h3 h4
  have hL : ∀ p, p ≠ .free → Function.update L .free F p = L p :=
    fun p hp => Function.update_of_ne hp _ _
  have hmem : ∀ (p : Place) (x : ℕ), (∃ q, x ∈ Function.update (Function.update L .free F) p
      (r.2 :: Function.update L .free F p) q) ↔ x = r.2 ∨ ∃ q, x ∈ Function.update L .free F q := by
    intro p x
    simp only [Function.update_apply _ p]
    constructor
    · rintro ⟨q, hq⟩
      split_ifs at hq with he
      · exact (List.mem_cons.1 hq).imp_right fun hx => ⟨p, hx⟩
      · exact .inr ⟨q, hq⟩
    · rintro (rfl | ⟨q, hq⟩)
      · exact ⟨p, by simp⟩
      · refine ⟨q, ?_⟩
        split_ifs with he
        · exact List.mem_cons_of_mem _ (he ▸ hq)
        · exact hq
  unfold Sched.getRequest
  cases acc with
  | nothing => exact ⟨L, h.congr rfl rfl rfl rfl, rfl, .inl ⟨rfl, rfl⟩⟩
  | refused => exact ⟨L, h, rfl, .inl ⟨rfl, rfl⟩⟩
  | failed =>
    simp only [hr]
    refine ⟨_, ⟨hlists.enqueue .free hnot, fun x => ?_, ?_⟩, ?_, .inl ⟨?_, h4⟩⟩
    · rw [hmem, ← hobj]
      rfl
    · rw [show (r.1.enqueue .free r.2).totalConnections = r.1.totalConnections from rfl, h1, h.total]
      simp
    · simp
    · simp
  | ok fd peer =>
    simp only [hr]
    have hq := hlists.enqueue .ready hnot
    have hready : r.2 ∉ L .ready := hL .ready (by decide) ▸ hnot .ready
    have hblock : r.2 ∉ L .block := hL .block (by decide) ▸ hnot .block
    refine ⟨_, ⟨⟨hq.linked, hq.apart⟩, fun x => ?_, ?_⟩, ?_,
      .inr ⟨fd, peer, r.2, _, rfl, hready, hblock, ?_, congrArg (Function.update · _ _) h4, rfl,
        _, _, rfl⟩⟩
    · rw [hmem, ← hobj]
      rfl
    · simp only [Sched.enqueue, Sched.setConn, h1, h.total]
      simp
      omega
    · simp
    · simp

/-- `get_request` writes to no request that is on the ready or the block list. -/
lemma Queues.getRequest_conns {env : Env} {acc : Accept} {fresh : ℕ} (h : Queues σ L)
    (hf : fresh ∉ σ.objects) {p : Place} (hp : p ≠ .free) {x : ℕ} (hx : x ∈ L p) :
    (σ.getRequest env acc fresh).conns x = σ.conns x := by
  obtain ⟨F, -, hnot, -⟩ := h.newRequest hf
  obtain ⟨-, -, -, h4, -⟩ := σ.newRequest_fields fresh
  have hne : x ≠ (σ.newRequest fresh).2 := by
    rintro rfl
    apply hnot p
    rw [Function.update_of_ne hp]
    exact hx
  cases acc with
  | nothing => rfl
  | refused => rfl
  | failed => exact congrFun h4 x
  | ok fd peer =>
    simp only [Sched.getRequest, Sched.enqueue, Sched.setConn, Function.update_of_ne hne, h4]

lemma Sched.getRequest_watch (env : Env) (acc : Accept) (fresh : ℕ) :
    (σ.getRequest env acc fresh).watch = σ.watch := by
  obtain ⟨-, -, -, -, h5⟩ := σ.newRequest_fields fresh
  cases acc <;> first | rfl | exact h5

lemma Queues.getPending_conns {env : Env} {acc : Accept} {fresh : ℕ} (h : Queues σ L)
    (hf : fresh ∉ σ.objects) {p : Place} (hp : p ≠ .free) {x : ℕ} (hx : x ∈ L p) :
    (σ.getPending env acc fresh).conns x = σ.conns x := by
  unfold Sched.getPending
  split_ifs
  · exact h.getRequest_conns hf hp hx
  · rfl

lemma Sched.getPending_watch (env : Env) (acc : Accept) (fresh : ℕ) :
    (σ.getPending env acc fresh).watch = σ.watch := by
  unfold Sched.getPending
  split_ifs
  · exact getRequest_watch env acc fresh
  · rfl

lemma Queues.getPending {fresh : ℕ} (h : Queues σ L) (hf : fresh ∉ σ.objects) (env : Env)
    (acc : Accept) :
    ∃ L', Queues (σ.getPending env acc fresh) L' ∧ L' .block = L .block ∧
      Joined env acc σ (σ.getPending env acc fresh) L L' := by
  unfold Sched.getPending
  split_ifs
  · exact h.getRequest hf env acc
  · exact ⟨L, h, rfl, .inl ⟨rfl, rfl⟩⟩

/-- `free_requests` empties the free list, and its nodes are no objects any more. -/
lemma Queues.freeRequests (h : Queues σ L) :
    Queues σ.freeRequests (Function.update L .free []) := by
  have hlen : (L .free).length ≤ σ.objects.length :=
    (List.subperm_of_subset (h.linked .free).nodup fun x hx => (h.objects x).2 ⟨_, hx⟩).length_le
  have hwalk := (h.linked .free).walk_eq hlen
  have hmem : ∀ p x, x ∈ Function.update L .free [] p ↔ p ≠ .free ∧ x ∈ L p := by
    intro p x
    rw [Function.update_apply]
    split_ifs with hp <;> simp [hp]
  refine ⟨⟨fun p => ?_, fun p q x hp hq => ?_⟩, fun x => ?_, ?_⟩
  · simp only [Sched.freeRequests]
    by_cases hp : p = .free
    · subst hp
      rw [Function.update_self, Function.update_self]
      exact ⟨rfl, trivial, List.nodup_nil⟩
    · rw [Function.update_of_ne hp, Function.update_of_ne hp]
      exact h.linked p
  · exact h.apart p q x ((hmem p x).1 hp).2 ((hmem q x).1 hq).2
  · simp only [Sched.freeRequests, hwalk, List.mem_filter, h.objects, hmem, decide_eq_true_eq]
    constructor
    · rintro ⟨⟨p, hp⟩, hx⟩
      exact ⟨p, fun he => hx (he ▸ hp), hp⟩
    · rintro ⟨p, hne, hp⟩
      exact ⟨⟨p, hp⟩, fun hx => hne (h.apart p .free x hp hx)⟩
  · simp only [Sched.freeRequests]
    rw [Function.update_of_ne (by decide), Function.update_of_ne (by decide)]
    exact h.total

/-- New connections are taken only while there is room, so one may be too many. -/
def Sched.Bounded (σ : Sched W) : Prop :=
  (σ.pendingRequests = true → σ.totalConnections ≤ σ.maxConnections) ∧
    σ.totalConnections ≤ σ.maxConnections + 1

lemma Sched.Bounded.mono {τ : Sched W} (h : σ.Bounded)
    (hp : τ.pendingRequests = σ.pendingRequests) (hm : τ.maxConnections = σ.maxConnections)
    (ht : τ.totalConnections ≤ σ.totalConnections) : τ.Bounded := by
  obtain ⟨h1, h2⟩ := h
  refine ⟨fun hτ => ?_, by omega⟩
  have := h1 (hp ▸ hτ)
  omega

lemma Sched.getRequest_maxConnections (env : Env) (acc : Accept) (fresh : ℕ) :
    (σ.getRequest env acc fresh).maxConnections = σ.maxConnections := by
  obtain ⟨-, h2, -⟩ := σ.newRequest_fields fresh
  cases acc <;> first | rfl | exact h2

lemma Sched.Bounded.getPending (h : σ.Bounded) (env : Env) (acc : Accept) (fresh : ℕ) :
    (σ.getPending env acc fresh).Bounded := by
  obtain ⟨h1, h2, h3, -⟩ := σ.newRequest_fields fresh
  unfold Sched.getPending
  split_ifs with hp
  · have hroom := h.1 hp
    cases acc with
    | nothing => exact ⟨fun hb => absurd hb (by simp [Sched.getRequest]), h.2⟩
    | refused => exact h
    | failed => exact h.mono h3 h2 h1.le
    | ok fd peer =>
      simp only [Sched.getRequest, Sched.Bounded, Sched.enqueue, Sched.setConn, h1, h2, h3]
      refine ⟨fun hb => ?_, by omega⟩
      simp only [Bool.and_eq_true, Bool.not_eq_true', decide_eq_false_iff_not, not_lt] at hb
      exact hb.2
  · exact h

lemma Sched.freeRequest_counts (env : Env) (a : ℕ) :
    (σ.freeRequest M env a).pendingRequests = σ.pendingRequests ∧
      (σ.freeRequest M env a).maxConnections = σ.maxConnections ∧
      (σ.freeRequest M env a).totalConnections ≤ σ.totalConnections := by
  obtain ⟨-, -, -, h4, h5, h6, -⟩ := (σ.dequeue .ready a).dropData_fields (M := M) (σ.conns a).req
  unfold Sched.freeRequest
  dsimp only
  split
  · exact ⟨rfl, rfl, le_rfl⟩
  · exact ⟨h6, h5, h4.le⟩
  · exact ⟨h6, h5, (Nat.sub_le _ _).trans h4.le⟩

lemma Sched.updateRound_counts {clock : Clock} (σ : Sched W) :
    (σ.updateRound M clock a).1.pendingRequests = σ.pendingRequests ∧
      (σ.updateRound M clock a).1.maxConnections = σ.maxConnections ∧
      (σ.updateRound M clock a).1.totalConnections = σ.totalConnections := by
  unfold Sched.updateRound
  dsimp only
  split_ifs <;> exact ⟨rfl, rfl, rfl⟩

/-- The request that the server is at is on the list that it goes through. -/
def Point.On (L : Place → List ℕ) : Point → Prop
  | .loop => True
  | .updating current => ∀ a ∈ current, a ∈ L .block
  | .serving current => ∀ a ∈ current, a ∈ L .ready
  | .handled a _ | .dispatching a _ => a ∈ L .ready

/-- The next node stays on its list when a node leaves it. -/
lemma Lists.next_moved (h : Lists σ L) {p q : Place} (ha : a ∈ L p) {b : ℕ}
    (hb : σ.links.next a = some b) : b ∈ moved L p q a p := by
  refine (mem_moved h ha).2 (.inr ⟨fun he => ?_, (h.linked p).next_mem ha hb⟩)
  exact (h.linked p).next_ne ha (he ▸ hb)

lemma SchedStep.queues {s t : Sched W × Point} (hs : SchedStep M s t) (h : Queues s.1 L)
    (hpt : s.2.On L) : ∃ L', Queues t.1 L' ∧ t.2.On L' := by
  cases hs with
  | watch σ w => exact ⟨L, h.congr rfl rfl rfl rfl, trivial⟩
  | pending σ b hb => exact ⟨L, h.congr rfl rfl rfl rfl, trivial⟩
  | reload σ m => exact ⟨_, h.freeRequests.congr rfl rfl rfl rfl, trivial⟩
  | beginUpdate => exact ⟨L, h, fun a ha => (h.linked .block).head_mem ha⟩
  | update σ clock a =>
    have ha : a ∈ L .block := hpt a rfl
    have hc : Queues ({ σ with watch := (M.scan clock σ.watch (σ.conns a)).1 }.setConn a
        (M.scan clock σ.watch (σ.conns a)).2.1) L := h.congr rfl rfl rfl rfl
    unfold Sched.updateRound
    dsimp only
    split_ifs
    · exact ⟨_, hc.readyRequest ha, fun b hb => h.toLists.next_moved ha hb⟩
    · exact ⟨L, hc, fun b hb => (h.linked .block).next_mem ha hb⟩
  | endUpdate => exact ⟨L, h, trivial⟩
  | beginServe σ env acc fresh hf =>
    obtain ⟨L', h', -, -⟩ := h.getPending hf env acc
    exact ⟨L', h', fun a ha => (h'.linked .ready).head_mem ha⟩
  | handle σ env a => exact ⟨L, h.congr rfl rfl rfl rfl, hpt a rfl⟩
  | accept σ env acc fresh hf a ret =>
    obtain ⟨L', h', -, hjoin⟩ := h.getPending hf env acc
    exact ⟨L', h', hjoin.ready_mem hpt⟩
  | dispatch σ env a ret =>
    have ha : a ∈ L .ready := hpt
    have htouch : Queues (σ.touch env a) L := h.congr rfl rfl rfl rfl
    cases ret with
    | blocked => exact ⟨_, h.blockRequest ha, fun b hb => h.toLists.next_moved ha hb⟩
    | more => exact ⟨L, htouch, fun b hb => (h.linked .ready).next_mem ha hb⟩
    | done =>
      refine ⟨_, htouch.freeRequest ha, fun b hb => ?_⟩
      cases (((σ.touch env a).conns a).req.freeRequest env).2 with
      | ready => exact (h.linked .ready).next_mem ha hb
      | block => exact h.toLists.next_moved ha hb
      | free => exact h.toLists.next_moved ha hb
  | endServe => exact ⟨L, h, trivial⟩

lemma SchedStep.bounded {s t : Sched W × Point} (hs : SchedStep M s t) (h : s.1.Bounded)
    (hm : t.1.maxConnections = s.1.maxConnections) : t.1.Bounded := by
  cases hs with
  | watch σ w => exact h
  | pending σ b hb => exact ⟨hb, h.2⟩
  | reload σ m => exact h.mono rfl hm le_rfl
  | beginUpdate => exact h
  | update σ clock a =>
    unfold Sched.updateRound
    dsimp only
    split_ifs
    · exact h
    · exact h
  | endUpdate => exact h
  | beginServe σ env acc fresh hf => exact h.getPending env acc fresh
  | handle σ env a => exact h
  | accept σ env acc fresh hf a ret => exact h.getPending env acc fresh
  | dispatch σ env a ret =>
    cases ret with
    | blocked => exact h
    | more => exact h
    | done =>
      obtain ⟨h1, h2, h3⟩ := (σ.touch env a).freeRequest_counts (M := M) env a
      exact h.mono h1 h2 h3
  | endServe => exact h

/-- In every state of the server, in either build, the three heads point to well-formed
doubly linked lists, each request object is on exactly one of them, the connections are
the requests that are ready or blocked, and there are at most `max_connections + 1` of
them as long as that limit is not changed. -/
theorem queues_invariant {keep : Bool} {s : Sched W × Point} (h : SchedReach M keep s) :
    (∃ R B F, Linked s.1.links (s.1.heads .ready) R ∧ Linked s.1.links (s.1.heads .block) B ∧
      Linked s.1.links (s.1.heads .free) F ∧ (R ++ B ++ F).Nodup ∧
      (∀ a, a ∈ s.1.objects ↔ a ∈ R ++ B ++ F) ∧
      s.1.totalConnections = R.length + B.length) ∧
    (keep = true → s.1.totalConnections ≤ s.1.maxConnections + 1) := by
  have hinv : (∃ L, Queues s.1 L ∧ s.2.On L) ∧ (keep = true → s.1.Bounded) := by
    induction h with
    | init conns links m w =>
      refine ⟨⟨fun _ => [], ⟨⟨fun p => ⟨rfl, trivial, List.nodup_nil⟩, fun p q a ha => ?_⟩,
        fun a => ?_, rfl⟩, trivial⟩, fun _ => ⟨fun hp => ?_, Nat.zero_le _⟩⟩
      · cases ha
      · simp [Sched.init]
      · cases hp
    | step _ hs ih =>
      obtain ⟨⟨L, hL, hpt⟩, hb⟩ := ih
      refine ⟨hs.queues hL hpt, fun hk => ?_⟩
      rw [Bool.and_eq_true, decide_eq_true_eq] at hk
      exact hs.bounded (hb hk.1) hk.2
  obtain ⟨⟨L, hL, -⟩, hb⟩ := hinv
  refine ⟨⟨L .ready, L .block, L .free, hL.linked _, hL.linked _, hL.linked _, ?_, fun a => ?_,
    hL.total⟩, fun hk => (hb hk).2⟩
  · have hne : ∀ {p q : Place}, p ≠ q → ∀ x ∈ L p, ∀ y ∈ L q, x ≠ y :=
      fun hpq x hx y hy he => hpq (hL.apart _ _ x hx (he ▸ hy))
    refine List.nodup_append.2 ⟨List.nodup_append.2 ⟨(hL.linked _).nodup, (hL.linked _).nodup,
      hne (by decide)⟩, (hL.linked _).nodup, fun x hx => ?_⟩
    obtain hx | hx := List.mem_append.1 hx
    · exact hne (by decide) x hx
    · exact hne (by decide) x hx
  · rw [hL.objects, List.mem_append, List.mem_append]
    constructor
    · rintro ⟨p, hp⟩
      cases p
      · exact .inl (.inl hp)
      · exact .inl (.inr hp)
      · exact .inr hp
    · rintro ((ha | ha) | ha)
      · exact ⟨_, ha⟩
      · exact ⟨_, ha⟩
      · exact ⟨_, ha⟩

/-- A build that watches nothing. -/
def blindWatch : Watch Unit where
  haveSendfile := true
  fdSet w c _ _ := (w, c)
  fdClr w _ _ := w
  scan _ w c := (w, c, false)

/-- A server about to look for its first connection. -/
def firstPending : Sched Unit :=
  { Sched.init (fun _ => { req := {} }) ⟨fun _ => none, fun _ => none⟩ 10 () with
    pendingRequests := true }

/-- It has come. -/
def firstConnection : Sched Unit := firstPending.getPending tinyEnv (.ok 7 tinyPeer) 1

/-- Nothing is read from it, and the next connection has come before it is blocked. -/
def secondConnection : Sched Unit :=
  (((firstConnection.handle tinyEnv 1).1.getPending tinyEnv (.ok 8 tinyPeer) 2).dispatch blindWatch tinyEnv 1
    .blocked).1

theorem queues_invariant_two :
    secondConnection.heads .ready = some 2 ∧ secondConnection.heads .block = some 1 ∧
      (∃ R B F, Linked secondConnection.links (secondConnection.heads .ready) R ∧
        Linked secondConnection.links (secondConnection.heads .block) B ∧
        Linked secondConnection.links (secondConnection.heads .free) F ∧ (R ++ B ++ F).Nodup ∧
        (∀ a, a ∈ secondConnection.objects ↔ a ∈ R ++ B ++ F) ∧
        secondConnection.totalConnections = R.length + B.length) ∧
      secondConnection.totalConnections ≤ secondConnection.maxConnections + 1 := by
  have hpending : SchedReach blindWatch _ (firstPending, .loop) :=
    .step (.init _ _ 10 ()) (.pending _ true fun _ => Nat.zero_le _)
  have hfirst : SchedReach blindWatch _ (firstConnection, .serving (some 1)) :=
    .step hpending (.beginServe firstPending tinyEnv (.ok 7 tinyPeer) 1 (by decide))
  have hhandled := hfirst.step (.handle firstConnection tinyEnv 1)
  have hret : (firstConnection.handle tinyEnv 1).2 = .blocked := by decide
  rw [hret] at hhandled
  have hjoined := hhandled.step (.accept _ tinyEnv (.ok 8 tinyPeer) 2 (by decide) 1 .blocked)
  have hsecond := hjoined.step (.dispatch _ tinyEnv 1 .blocked)
  obtain ⟨hqueues, hlimit⟩ := queues_invariant hsecond
  exact ⟨by decide, by decide, hqueues, hlimit (by decide)⟩

end Boa
