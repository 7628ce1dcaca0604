import Boa.Delivery
import Boa.InFile
import Boa.RangePool

/-! The nodes of range.c through the runs of all connections. -/
namespace Boa
open SList

variable {R A : Type*} [DecidableEq R] [DecidableEq A]

/-- The lists end, and every node is on exactly one of them, once. -/
structure RangeHeap.Filed (h : RangeHeap R A) (L : Option R → List A) : Prop where
  holds : Holds h.toChains L
  live : ∀ o, ∀ a ∈ L o, a ∈ h.live
  one : ∀ a ∈ h.live, ∃! o, a ∈ L o

omit [DecidableEq R] [DecidableEq A] in
lemma Pooled.filed {h : RangeHeap R A} {L : Option R → List A} {lists : R → List Range}
    (hp : Pooled h L none lists) : h.Filed L := by
  refine ⟨hp.holds, fun o a ha => (hp.live a).mpr (.inl ⟨o, ha⟩), fun a ha => ?_⟩
  obtain ⟨o, ho⟩ | hn := (hp.live a).mp ha
  · exact ⟨o, ho, fun o' ho' => hp.holds.own ho' ho⟩
  · cases hn

/-- The heap after any calls on any requests, one after the other, and the ranges of these. -/
inductive HeapReach : RangeHeap R A → (R → List Range) → Prop
  | start : HeapReach .empty fun _ => []
  | call {h : RangeHeap R A} {lists : R → List Range} {i : R} {new : A} {k : RangeCall}
      (hr : HeapReach h lists) (hnew : new ∉ h.live) (hk : k.Allowed (lists i)) :
      HeapReach (h.call i new k) (Function.update lists i (k.result (lists i)))
  | empty {h : RangeHeap R A} {lists : R → List Range} (hr : HeapReach h lists) :
      HeapReach (h.rangePoolEmpty h.live.card) lists

lemma HeapReach.pooled {h : RangeHeap R A} {lists : R → List Range} (hr : HeapReach h lists) :
    ∃ L, Pooled h L none lists := by
  induction hr with
  | start => exact ⟨_, .empty⟩
  | call hr hnew hk ih =>
    obtain ⟨L, hp⟩ := ih
    exact hp.call hnew hk
  | empty hr ih =>
    obtain ⟨L, hp⟩ := ih
    obtain ⟨L', hp', -⟩ := hp.rangePoolEmpty (hp.length_le none)
    exact ⟨L', hp'⟩

/-- The calls `ks` on one request, which has the ranges `rs` before and `rs'` after them. -/
inductive Calls (i : R) : List RangeCall → RangeHeap R A → List Range → RangeHeap R A → List Range → Prop
  | nil (h : RangeHeap R A) (rs : List Range) : Calls i [] h rs h rs
  | cons {h g : RangeHeap R A} {rs rs' : List Range} {new : A} {k : RangeCall} {ks : List RangeCall}
      (hnew : new ∉ h.live) (hk : k.Allowed rs) (hc : Calls i ks (h.call i new k) (k.result rs) g rs') :
      Calls i (k :: ks) h rs g rs'

lemma HeapReach.calls {h g : RangeHeap R A} {lists : R → List Range} {i : R} {ks : List RangeCall}
    {rs rs' : List Range} (hr : HeapReach h lists) (hi : lists i = rs) (hc : Calls i ks h rs g rs') :
    HeapReach g (Function.update lists i rs') := by
  induction hc generalizing lists with
  | nil h rs =>
    rw [← hi, Function.update_eq_self]
    exact hr
  | cons hnew hk _ ih =>
    subst hi
    have h := ih (hr.call hnew hk) (Function.update_self _ _ _)
    rw [Function.update_idem] at h
    exact h

/-- `malloc` has a node for every call that needs one. -/
lemma Ranged.calls [Infinite A] {rs rs' : List Range} {ks : List RangeCall} (hr : Ranged rs ks rs') (i : R)
    (h : RangeHeap R A) : ∃ g, Calls i ks h rs g rs' := by
  induction hr generalizing h with
  | nil rs => exact ⟨h, .nil h rs⟩
  | cons hk _ ih =>
    obtain ⟨new, hnew⟩ := Infinite.exists_notMem_finset h.live
    obtain ⟨g, hg⟩ := ih (h.call i new _)
    exact ⟨g, .cons hnew hk hg⟩

/-- The heap and all request objects, with the queue that each is on. -/
structure PoolState (R A : Type*) where
  heap : RangeHeap R A
  conn : R → Request × Place

/-- The ranges that a request object owns: `free_request` has put those of a free one back. -/
def owned (r : Request × Place) : List Range := if r.2 = .free then [] else r.1.ranges

namespace PoolState

def setConn (s : PoolState R A) (i : R) (r : Request × Place) : PoolState R A :=
  { s with conn := Function.update s.conn i r }

/-- The runs of all connections, in any order. The handler of a round makes calls of its status that lead
to the ranges it leaves, and then `free_request` makes its own. -/
inductive PoolReach : PoolState R A → Prop
  | start (old : R → Request) : PoolReach ⟨.empty, fun i => (old i, .free)⟩
  | accept {s : PoolState R A} (i : R) (env : Env) (peer : Peer) (h : PoolReach s) (hi : (s.conn i).2 = .free) :
      PoolReach (s.setConn i ((s.conn i).1.getRequest env peer, .ready))
  | pass {s : PoolState R A} {m g : RangeHeap R A} {ks : List RangeCall} (i : R) (env : Env) (h : PoolReach s)
      (hi : (s.conn i).2 = .ready) (hks : ∀ k ∈ ks, RangeCall.madeIn (s.conn i).1.status k)
      (hc : Calls i ks s.heap (s.conn i).1.ranges m ((s.conn i).1.serveOnce env).1.ranges)
      (hf : Calls i ((s.conn i).1.freeCalls env) m ((s.conn i).1.serveOnce env).1.ranges g
        (owned ((s.conn i).1.processRequest env))) :
      PoolReach ({ s with heap := g }.setConn i ((s.conn i).1.processRequest env))
  | wake {s : PoolState R A} (i : R) (w : Wake) (h : PoolReach s) (hi : (s.conn i).2 = .block) :
      PoolReach (s.setConn i ((s.conn i).1.wake w, .ready))
  | empty {s : PoolState R A} (h : PoolReach s) :
      PoolReach { s with heap := s.heap.rangePoolEmpty s.heap.live.card }

/-- Each of the connections runs as one does alone. -/
lemma PoolReach.reachable {s : PoolState R A} (h : PoolReach s) :
    ∀ i, (s.conn i).2 ≠ .free → Reachable (s.conn i).1 (s.conn i).2 := by
  have hset : ∀ {conn : R → Request × Place} {j : R} {r : Request × Place},
      (∀ i, (conn i).2 ≠ .free → Reachable (conn i).1 (conn i).2) → (r.2 ≠ .free → Reachable r.1 r.2) →
      ∀ i, (Function.update conn j r i).2 ≠ .free →
        Reachable (Function.update conn j r i).1 (Function.update conn j r i).2 := by
    intro conn j r hs hr
    rw [Function.forall_update_iff conn (p := fun _ q => q.2 ≠ .free → Reachable q.1 q.2)]
    exact ⟨hr, fun i _ => hs i⟩
  have hrun : ∀ {conn : R → Request × Place} {j : R} {p : Place},
      (∀ i, (conn i).2 ≠ .free → Reachable (conn i).1 (conn i).2) → (conn j).2 = p → p ≠ .free →
      Reachable (conn j).1 p := by
    rintro conn j p hs rfl hp
    exact hs j hp
  induction h with
  | start old => exact fun i hn => absurd rfl hn
  | accept j env peer h hj ih => exact hset ih fun _ => .accept env peer _ trivial
  | pass j env h hj hks hc hf ih => exact hset ih fun _ => .pass env (hrun ih hj (by simp)) trivial
  | wake j w h hj ih => exact hset ih fun _ => .wake w (hrun ih hj (by simp)) trivial
  | empty h ih => exact ih

/-- What the connections do to the heap is calls. -/
lemma PoolReach.heap {s : PoolState R A} (h : PoolReach s) : HeapReach s.heap (owned ∘ s.conn) := by
  have hkeep : ∀ {conn : R → Request × Place} {j : R} {r : Request × Place}, owned r = owned (conn j) →
      owned ∘ Function.update conn j r = owned ∘ conn := by
    intro conn j r hr
    rw [Function.comp_update, hr]
    exact Function.update_eq_self j (owned ∘ conn)
  induction h with
  | start old => exact .start
  | @accept s j env peer h hj ih =>
    have hnone : owned ((s.conn j).1.getRequest env peer, .ready) = owned (s.conn j) := by
      have hnew : ((s.conn j).1.getRequest env peer).ranges = [] := by
        unfold Request.getRequest
        dsimp only
        split_ifs <;> rfl
      have hfree : owned (s.conn j) = [] := if_pos hj
      rw [hfree]
      exact hnew
    show HeapReach s.heap (owned ∘ Function.update s.conn j _)
    rw [hkeep hnone]
    exact ih
  | @pass s m g ks j env h hj hks hc hf ih =>
    have hready : owned (s.conn j) = (s.conn j).1.ranges := if_neg (by rw [hj]; simp)
    have hend := (ih.calls hready hc).calls (Function.update_self _ _ _) hf
    show HeapReach g (owned ∘ Function.update s.conn j _)
    rw [Function.update_idem] at hend
    rw [Function.comp_update]
    exact hend
  | @wake s j w h hj ih =>
    have hsame : owned ((s.conn j).1.wake w, .ready) = owned (s.conn j) := by
      have hblock : owned (s.conn j) = (s.conn j).1.ranges := if_neg (by rw [hj]; simp)
      rw [hblock]
      cases w <;> rfl
    show HeapReach s.heap (owned ∘ Function.update s.conn j _)
    rw [hkeep hsame]
    exact ih
  | empty h ih => exact .empty ih

/-- No round is held up by the heap. -/
lemma PoolReach.exists_pass [Infinite A] {s : PoolState R A} (h : PoolReach s) {i : R}
    (hi : (s.conn i).2 = .ready) (env : Env) :
    ∃ g : RangeHeap R A,
      PoolReach (({ s with heap := g } : PoolState R A).setConn i ((s.conn i).1.processRequest env)) := by
  obtain ⟨ks, hks, hserved⟩ := (Request.serveOnce_touches env (s.conn i).1).ranged
  obtain ⟨m, hm⟩ := hserved.calls i s.heap
  obtain ⟨g, hg⟩ := (Request.freeCalls_ranged env (s.conn i).1).2.calls i m
  exact ⟨g, .pass i env h hi hks hm hg⟩

/-- Every state of a connection is one of the connection `i` in a run of all of them. -/
lemma exists_poolReach [Infinite A] (i : R) {c : Request} {p : Place} (h : Reachable c p) :
    ∃ s : PoolState R A, PoolReach s ∧ s.conn i = (c, p) := by
  induction h with
  | accept env peer old hp =>
    exact ⟨_, .accept i env peer (.start fun _ => old) rfl, Function.update_self _ _ _⟩
  | pass env h hp ih =>
    obtain ⟨s, hs, hi⟩ := ih
    obtain ⟨g, hg⟩ := hs.exists_pass (congrArg Prod.snd hi) env
    rw [hi] at hg
    exact ⟨_, hg, Function.update_self _ _ _⟩
  | wake w h hp ih =>
    obtain ⟨s, hs, hi⟩ := ih
    have hw := hs.wake i w (congrArg Prod.snd hi)
    rw [hi] at hw
    exact ⟨_, hw, Function.update_self _ _ _⟩

end PoolState

open PoolState

/-- After any calls on any requests every node is on one list, and every list ends; and wherever
the runs of all connections lead, a request that copies its file has a node, and all of its nodes
are in the file, which is mapped from end to end if it is sent from memory. -/
theorem range_nodes :
    (∀ {h : RangeHeap R A} {lists : R → List Range}, HeapReach h lists → ∃ L, h.Filed L) ∧
    ∀ {s : PoolState R A}, PoolReach s → HeapReach s.heap (owned ∘ s.conn) ∧ ∃ L, s.heap.Filed L ∧
      ∀ i, (s.conn i).2 ≠ .free → (s.conn i).1.status = .write ∨ (s.conn i).1.status = .ioShuffle →
        s.heap.head (some i) ≠ none ∧
        ∀ a ∈ L (some i), s.heap.start a ≤ s.heap.stop a ∧ s.heap.stop a < (s.conn i).1.filesize ∧
          ((s.conn i).1.status = .write →
            ∃ mem, (s.conn i).1.dataMem = some mem ∧ mem.length = (s.conn i).1.filesize) := by
  refine ⟨fun hr => ?_, @fun s hs => ?_⟩
  · obtain ⟨L, hp⟩ := hr.pooled
    exact ⟨L, hp.filed⟩
  · obtain ⟨L, hp⟩ := hs.heap.pooled
    refine ⟨hs.heap, L, hp.filed, fun i hi hc => ?_⟩
    obtain ⟨hne, hcov⟩ := reach_inFile (hs.reachable i hi) hi hc
    have hview : (L (some i)).map s.heap.range = (s.conn i).1.ranges := (hp.view i).trans (if_neg hi)
    constructor
    · intro hhead
      have hseg := (hp.holds.seg (some i)).head_eq
      rw [hhead] at hseg
      rw [List.head?_eq_none_iff.mp hseg.symm] at hview
      exact hne hview.symm
    · intro a ha
      have hmem : s.heap.range a ∈ (s.conn i).1.ranges := by
        rw [← hview]
        exact List.mem_map_of_mem ha
      exact ⟨(hcov.within _ hmem).1, (hcov.within _ hmem).2, hcov.mapped⟩

/-- A request for two ranges, the second of which is still to be sent. -/
theorem range_nodes_second : ∃ s : PoolState ℕ ℕ, PoolReach s ∧ (s.conn 0).1.status = .write ∧
    s.heap.head (some 0) ≠ none := by
  let envs : List Env := [tinyClient "GET /f HTTP/1.1\r\nRange: bytes=1-2,3-\r\n\r\n", tinyEnv]
  have hstart : Reachable (Request.getRequest tinyEnv tinyPeer {}) .ready := .accept tinyEnv tinyPeer {} trivial
  have hrun : ((Request.getRequest tinyEnv tinyPeer {}).rounds envs).any (fun c => c.status = .write) := by
    decide +kernel
  obtain ⟨c, hc, hw⟩ := (Option.any_eq_true _ _).mp hrun
  have hreach : Reachable c .ready := reach_rounds hstart (fun _ => trivial) (fun _ _ _ => trivial) hc
  obtain ⟨s, hs, hi⟩ := exists_poolReach (R := ℕ) (A := ℕ) 0 hreach
  have hstatus : (s.conn 0).1.status = .write := by
    rw [hi]
    exact of_decide_eq_true hw
  obtain ⟨-, L, -, hall⟩ := range_nodes.2 hs
  exact ⟨s, hs, hstatus, (hall 0 (by rw [hi]; simp) (.inl hstatus)).1⟩

end Boa
