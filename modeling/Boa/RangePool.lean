import Boa.Calls
import Boa.SList

/-! The nodes of range.c in memory: `range_pool`, the lists of the requests, and the routines
that move nodes between them. A list of ranges as a value is what stands in the nodes of one. -/
namespace Boa
open SList

/-- `range_pool` is the first node of `none`, `req->ranges` that of `some i`. -/
structure RangeHeap (R A : Type*) extends Chains (Option R) A where
  start : A → ℕ
  stop : A → ℕ
  /-- the nodes that `malloc` returned and `free` did not get -/
  live : Finset A

variable {R A : Type*} [DecidableEq R] [DecidableEq A]

/-- The two tests of `ranges_fixup` that rewrite a range. -/
def fixedRange (filesize : ℕ) (r : Range) : Range :=
  let stop := if r.stop = 2 ^ 32 - 1 ∨ filesize ≤ r.stop then filesize - 1 else r.stop
  if r.start = ulongMax then ⟨filesize - stop, filesize - 1⟩ else ⟨r.start, stop⟩

lemma fixupRange_eq (filesize : ℕ) (r : Range) : fixupRange filesize r =
    if offNegative (fixedRange filesize r).start ∨ (fixedRange filesize r).stop < (fixedRange filesize r).start
    then none else some (fixedRange filesize r) := rfl

namespace RangeHeap

/-- No node was ever asked for. -/
def empty : RangeHeap R A := ⟨⟨fun _ => none, fun _ => none⟩, fun _ => 0, fun _ => 0, ∅⟩

/-- The range in a node. -/
def range (h : RangeHeap R A) (a : A) : Range := ⟨h.start a, h.stop a⟩

def setRange (h : RangeHeap R A) (a : A) (r : Range) : RangeHeap R A :=
  { h with start := Function.update h.start a r.start, stop := Function.update h.stop a r.stop }

def setNext (h : RangeHeap R A) (a : A) (p : Option A) : RangeHeap R A :=
  { h with toChains := h.toChains.setNext a p }

def setHead (h : RangeHeap R A) (o : Option R) (p : Option A) : RangeHeap R A :=
  { h with toChains := h.toChains.setHead o p }

/-- `range_pool_pop`; `new` is the node that `malloc` would return. -/
def rangePoolPop (h : RangeHeap R A) (new : A) : RangeHeap R A × A :=
  let (h, r) := match h.head none with
    | some r => (h.setHead none (h.next r), r)
    | none => ({ h with live := insert new h.live }, new)
  ((h.setRange r ⟨0, 0⟩).setNext r none, r)

/-- `range_pool_push`. -/
def rangePoolPush (h : RangeHeap R A) (r : A) : RangeHeap R A :=
  (h.setNext r (h.head none)).setHead none (some r)

/-- The loop that pushes the nodes from `r` on, at most `n` of them. -/
def pushAll (h : RangeHeap R A) : ℕ → Option A → RangeHeap R A
  | n + 1, some r => (h.rangePoolPush r).pushAll n (h.next r)
  | _, _ => h

/-- `ranges_reset`. No loop of range.c has more rounds than there are nodes. -/
def rangesReset (h : RangeHeap R A) (i : R) : RangeHeap R A :=
  (h.pushAll h.live.card (h.head (some i))).setHead (some i) none

/-- `range_abort`. -/
def rangeAbort (h : RangeHeap R A) (i : R) (new : A) : RangeHeap R A :=
  let (h, r) := (h.rangesReset i).rangePoolPop new
  (h.setHead (some i) (some r)).setRange r ⟨h.start r, ulongMax⟩

/-- The loop of `range_add`, which stops at the last node. -/
def lastNode (h : RangeHeap R A) : ℕ → Option A → Option A
  | n + 1, some prev => if h.next prev = none then some prev else h.lastNode n (h.next prev)
  | _, p => p

/-- `range_add`. -/
def rangeAdd (h : RangeHeap R A) (i : R) (new : A) (start stop : ℕ) : RangeHeap R A :=
  let (h, r) := h.rangePoolPop new
  let h := match h.lastNode h.live.card (h.head (some i)) with
    | some prev => h.setNext prev (some r)
    | none => h.setHead (some i) (some r)
  h.setRange r ⟨start, stop⟩

/-- `if (prev) prev->next = r->next`. -/
def bypass (h : RangeHeap R A) (prev : Option A) (r : A) : RangeHeap R A :=
  match prev with
  | some p => h.setNext p (h.next r)
  | none => h

/-- The second loop of `ranges_fixup`, at most `n` rounds of it. -/
def fixupLoop (h : RangeHeap R A) (i : R) (filesize : ℕ) : ℕ → Option A → Option A → RangeHeap R A
  | n + 1, prev, some r =>
    let x := fixedRange filesize (h.range r)
    let h := h.setRange r x
    if offNegative x.start ∨ x.stop < x.start then
      let h := h.bypass prev r
      (h.rangePoolPush r).fixupLoop i filesize n prev (h.next r)
    else
      let h := if prev = none then h.setHead (some i) (some r) else h
      h.fixupLoop i filesize n (some r) (h.next r)
  | _, _, _ => h

/-- `ranges_fixup`, without the response that there is no range. -/
def rangesFixup (h : RangeHeap R A) (i : R) (filesize : ℕ) : RangeHeap R A :=
  let r := h.head (some i)
  let h := h.setHead (some i) none
  if filesize = 0 then h.pushAll h.live.card r else h.fixupLoop i filesize h.live.card none r

/-- The default range of `init_get`. -/
def wholeRange (h : RangeHeap R A) (i : R) (new : A) : RangeHeap R A :=
  let (h, r) := h.rangePoolPop new
  (h.setHead (some i) (some r)).setRange r ⟨0, ulongMax⟩

/-- The start of `complete_response`. -/
def completeRange (h : RangeHeap R A) (i : R) : RangeHeap R A :=
  match h.head (some i) with
  | some r => (h.setHead (some i) (h.next r)).rangePoolPush r
  | none => h

/-- `req->ranges->start` is given a new value. -/
def moveStart (h : RangeHeap R A) (i : R) (start : ℕ) : RangeHeap R A :=
  match h.head (some i) with
  | some r => h.setRange r ⟨start, h.stop r⟩
  | none => h

/-- A call that concerns the request `i`. -/
def call (h : RangeHeap R A) (i : R) (new : A) : RangeCall → RangeHeap R A
  | .add start stop => h.rangeAdd i new start stop
  | .abort => h.rangeAbort i new
  | .reset => h.rangesReset i
  | .fixup filesize => h.rangesFixup i filesize
  | .whole => h.wholeRange i new
  | .complete => h.completeRange i
  | .move start => h.moveStart i start

/-- `range_pool_empty`, at most `n` rounds of it. -/
def rangePoolEmpty (h : RangeHeap R A) : ℕ → RangeHeap R A
  | n + 1 =>
    match h.head none with
    | some new =>
      let (h, r) := h.rangePoolPop new
      { h with live := h.live.erase r }.rangePoolEmpty n
    | none => h
  | 0 => h

end RangeHeap

/-- Every node is on one of the lists `L`, once, or is the one in hand; the nodes of every
request have its ranges in them. -/
structure Pooled (h : RangeHeap R A) (L : Option R → List A) (hand : Option A) (lists : R → List Range) :
    Prop where
  holds : Holds h.toChains L
  live : ∀ a, a ∈ h.live ↔ (∃ o, a ∈ L o) ∨ hand = some a
  loose : ∀ a, hand = some a → Loose L a
  view : ∀ i, (L (some i)).map h.range = lists i

namespace Pooled

variable {h h' : RangeHeap R A} {L : Option R → List A} {hand : Option A} {lists : R → List Range}
  {i : R} {a b : A} {l m : List A} {x : Range}

omit [DecidableEq R] [DecidableEq A] in
lemma empty : Pooled (RangeHeap.empty : RangeHeap R A) (fun _ => []) none fun _ => [] :=
  ⟨⟨fun _ => rfl, fun _ => List.nodup_nil, nofun⟩, by simp [RangeHeap.empty], nofun, fun _ => rfl⟩

omit [DecidableEq R] [DecidableEq A] in
/-- No list is longer than the number of nodes. -/
lemma length_le (hp : Pooled h L hand lists) (o : Option R) : (L o).length ≤ h.live.card := by
  classical
  rw [← List.toFinset_card_of_nodup (hp.holds.nodup o)]
  refine Finset.card_le_card fun a ha => ?_
  exact (hp.live a).mpr (.inl ⟨o, List.mem_toFinset.mp ha⟩)

omit [DecidableEq A] in
lemma exists_owner (o : Option R) : (∃ o', a ∈ L o') ↔ a ∈ L o ∨ ∃ o', o' ≠ o ∧ a ∈ L o' := by
  constructor
  · rintro ⟨o', ha⟩
    by_cases ho : o' = o
    · exact .inl (ho ▸ ha)
    · exact .inr ⟨o', ho, ha⟩
  · rintro (ha | ⟨o', -, ha⟩)
    · exact ⟨o, ha⟩
    · exact ⟨o', ha⟩

omit [DecidableEq A] in
/-- Nodes go between one list and the hand. -/
lemma replace {o : Option R} {hand' : Option A} {lists' : R → List Range} (hp : Pooled h L hand lists)
    (hh : Holds h'.toChains (Function.update L o l)) (hlive : h'.live = h.live)
    (hmem : ∀ y, y ∈ l ∨ hand' = some y ↔ y ∈ L o ∨ hand = some y)
    (hloose : ∀ y, hand' = some y → Loose (Function.update L o l) y)
    (hview : ∀ j, (Function.update L o l (some j)).map h'.range = lists' j) :
    Pooled h' (Function.update L o l) hand' lists' := by
  refine ⟨hh, fun y => ?_, hloose, hview⟩
  rw [hlive, hp.live, exists_owner o, Function.exists_update_iff (p := fun _ l => y ∈ l)]
  rw [or_right_comm, ← hmem y, or_right_comm]

omit [DecidableEq R] in
lemma map_setRange (x : Range) (hl : a ∉ l) : l.map (h.setRange a x).range = l.map h.range := by
  refine List.map_congr_left fun y hy => ?_
  have hne : y ≠ a := by
    rintro rfl
    exact hl hy
  simp only [RangeHeap.range, RangeHeap.setRange, Function.update_of_ne hne]

omit [DecidableEq R] in
/-- The range in the node in hand does not matter. -/
lemma setRange_hand (hp : Pooled h L (some a) lists) (x : Range) :
    Pooled (h.setRange a x) L (some a) lists := by
  refine ⟨hp.holds, hp.live, hp.loose, fun i => ?_⟩
  rw [← hp.view i]
  exact map_setRange x (hp.loose a rfl (some i))

/-- The range in a node of a list is rewritten. -/
lemma setRange (hp : Pooled h L hand lists) (hL : L (some i) = l ++ a :: m) (x : Range) :
    Pooled (h.setRange a x) L hand (Function.update lists i (l.map h.range ++ x :: m.map h.range)) := by
  have hn := hp.holds.nodup (some i)
  rw [hL] at hn
  have ha := List.nodup_cons.mp (List.perm_middle.nodup_iff.mp hn)
  refine ⟨hp.holds, hp.live, hp.loose, fun j => ?_⟩
  by_cases hj : j = i
  · subst hj
    rw [Function.update_self, hL, List.map_append, List.map_cons,
      map_setRange x fun hin => ha.1 (List.mem_append_left m hin),
      map_setRange x fun hin => ha.1 (List.mem_append_right l hin)]
    simp only [RangeHeap.range, RangeHeap.setRange, Function.update_self]
  · rw [Function.update_of_ne hj, ← hp.view j]
    refine map_setRange x fun hin => hj ?_
    have hown : some j = some i :=
      hp.holds.own hin (by rw [hL]; exact List.mem_append_right l List.mem_cons_self)
    exact Option.some.inj hown

omit [DecidableEq A] in
/-- The lists that are seen where the nodes of one request changed. -/
lemma view_update (hp : Pooled h L hand lists) (l : List A) (j : R) :
    (Function.update L (some i) l (some j)).map h.range = Function.update lists i (l.map h.range) j := by
  by_cases hj : j = i
  · subst hj
    rw [Function.update_self, Function.update_self]
  · have hne : some j ≠ some i := fun he => hj (Option.some.inj he)
    rw [Function.update_of_ne hj, Function.update_of_ne hne, hp.view j]

omit [DecidableEq A] in
lemma view_pool (hp : Pooled h L hand lists) (l : List A) (j : R) :
    (Function.update L none l (some j)).map h.range = lists j := by
  rw [Function.update_of_ne (Option.some_ne_none j), hp.view j]

/-- The node in hand goes to the pool. -/
lemma push (hp : Pooled h L (some a) lists) :
    Pooled (h.rangePoolPush a) (Function.update L none (a :: L none)) none lists := by
  refine hp.replace (hp.holds.push (hp.loose a rfl)) rfl (fun y => ?_) nofun (hp.view_pool _)
  simp only [List.mem_cons, reduceCtorEq, or_false, Option.some.injEq]
  rw [or_comm, eq_comm]

omit [DecidableEq A] in
/-- The first node of the pool comes into the hand. -/
lemma beheadPool (hp : Pooled h L none lists) (hL : L none = a :: l) : h.head none = some a ∧
    Pooled (h.setHead none (h.next a)) (Function.update L none l) (some a) lists := by
  obtain ⟨h1, h2, h3⟩ := hp.holds.behead hL
  refine ⟨h1, hp.replace h2 rfl (fun y => ?_) ?_ (hp.view_pool _)⟩
  · rw [hL]
    simp only [List.mem_cons, reduceCtorEq, or_false, Option.some.injEq]
    rw [or_comm, eq_comm]
  · rintro y he
    cases he
    exact h3

omit [DecidableEq A] in
/-- The first node of a request comes into the hand. -/
lemma behead (hp : Pooled h L none lists) (hL : L (some i) = a :: l) : h.head (some i) = some a ∧
    Pooled (h.setHead (some i) (h.next a)) (Function.update L (some i) l) (some a)
      (Function.update lists i (l.map h.range)) := by
  obtain ⟨h1, h2, h3⟩ := hp.holds.behead hL
  refine ⟨h1, hp.replace h2 rfl (fun y => ?_) ?_ (hp.view_update _)⟩
  · rw [hL]
    simp only [List.mem_cons, reduceCtorEq, or_false, Option.some.injEq]
    rw [or_comm, eq_comm]
  · rintro y he
    cases he
    exact h3

/-- The node behind `b` comes into the hand. -/
lemma unlink (hp : Pooled h L none lists) (hL : L (some i) = l ++ b :: a :: m) :
    Pooled (h.setNext b (h.next a)) (Function.update L (some i) (l ++ b :: m)) (some a)
      (Function.update lists i ((l ++ b :: m).map h.range)) := by
  obtain ⟨h1, h2⟩ := hp.holds.unlink hL
  refine hp.replace h1 rfl (fun y => ?_) ?_ (hp.view_update _)
  · rw [hL]
    simp only [List.mem_append, List.mem_cons, reduceCtorEq, or_false, Option.some.injEq]
    rw [eq_comm (a := a), or_assoc, or_assoc, or_comm (a := y ∈ m)]
  · rintro y he
    cases he
    exact h2

omit [DecidableEq R] in
/-- The pointer in the node in hand does not matter. -/
lemma setNext_hand (hp : Pooled h L (some a) lists) (p : Option A) :
    Pooled (h.setNext a p) L (some a) lists :=
  ⟨hp.holds.setNext (hp.loose a rfl) p, hp.live, hp.loose, hp.view⟩

/-- The node in hand becomes the only one of a request. -/
lemma first (hp : Pooled h L (some a) lists) (hL : L (some i) = []) (hn : h.next a = none) :
    Pooled (h.setHead (some i) (some a)) (Function.update L (some i) [a]) none
      (Function.update lists i [h.range a]) := by
  have hhead : h.head (some i) = none := by
    have hs := hp.holds.seg (some i)
    rw [hL] at hs
    exact hs
  have hh := hp.holds.push (o := some i) (hp.loose a rfl)
  have hsame : h.toChains.setNext a none = h.toChains := by
    unfold Chains.setNext
    rw [← hn, Function.update_eq_self]
  rw [hhead, hL, hsame] at hh
  refine hp.replace hh rfl (fun y => ?_) nofun (hp.view_update _)
  rw [hL]
  simp only [List.mem_cons, List.not_mem_nil, reduceCtorEq, or_false, false_or, Option.some.injEq]
  exact eq_comm

/-- The node in hand goes behind the last one of a request. -/
lemma append (hp : Pooled h L (some a) lists) (hL : L (some i) = l ++ [b]) (hn : h.next a = none) :
    Pooled (h.setNext b (some a)) (Function.update L (some i) (l ++ [b] ++ [a])) none
      (Function.update lists i ((l ++ [b] ++ [a]).map h.range)) := by
  refine hp.replace (hp.holds.append hL (hp.loose a rfl) hn) rfl (fun y => ?_) nofun (hp.view_update _)
  rw [hL]
  simp only [List.mem_append, List.mem_singleton, reduceCtorEq, or_false, Option.some.injEq]
  rw [eq_comm (a := a)]

/-! ### The routines -/

omit [DecidableEq R] in
/-- The node in hand is cleared. -/
lemma clear (hp : Pooled h L (some a) lists) :
    Pooled ((h.setRange a ⟨0, 0⟩).setNext a none) L (some a) lists ∧
      ((h.setRange a ⟨0, 0⟩).setNext a none).next a = none ∧
      ((h.setRange a ⟨0, 0⟩).setNext a none).range a = ⟨0, 0⟩ := by
  refine ⟨(hp.setRange_hand _).setNext_hand none, Function.update_self _ _ _, ?_⟩
  simp only [RangeHeap.range, RangeHeap.setNext, RangeHeap.setRange, Function.update_self]

/-- `range_pool_pop` leaves a cleared node in hand. -/
lemma pop (hp : Pooled h L none lists) {new : A} (hnew : new ∉ h.live) :
    ∃ L', Pooled (h.rangePoolPop new).1 L' (some (h.rangePoolPop new).2) lists ∧
      (h.rangePoolPop new).1.next (h.rangePoolPop new).2 = none ∧
      (h.rangePoolPop new).1.range (h.rangePoolPop new).2 = ⟨0, 0⟩ ∧
      ∀ j, L' (some j) = L (some j) := by
  have hs := hp.holds.seg none
  unfold RangeHeap.rangePoolPop
  cases hL : L none with
  | nil =>
    rw [hL] at hs
    have hhead : h.head none = none := hs
    rw [hhead]
    have hg : Pooled { h with live := insert new h.live } L (some new) lists := by
      refine ⟨hp.holds, fun y => ?_, ?_, hp.view⟩
      · rw [Finset.mem_insert, hp.live y]
        simp only [reduceCtorEq, or_false, Option.some.injEq]
        rw [or_comm, eq_comm]
      · rintro y he o hy
        cases he
        exact hnew ((hp.live _).mpr (.inl ⟨o, hy⟩))
    obtain ⟨h1, h2, h3⟩ := hg.clear
    exact ⟨L, h1, h2, h3, fun _ => rfl⟩
  | cons a l =>
    obtain ⟨hhead, hg⟩ := hp.beheadPool hL
    rw [hhead]
    obtain ⟨h1, h2, h3⟩ := hg.clear
    exact ⟨_, h1, h2, h3, fun j => Function.update_of_ne (Option.some_ne_none j) _ _⟩

omit [DecidableEq A] in
lemma setHead_setHead (o : Option R) (p q : Option A) : (h.setHead o p).setHead o q = h.setHead o q := by
  unfold RangeHeap.setHead Chains.setHead
  dsimp only
  rw [Function.update_idem]

omit [DecidableEq A] in
lemma setHead_head (h : RangeHeap R A) (o : Option R) (p : Option A) : (h.setHead o p).head o = p := by
  show Function.update h.head o p o = p
  exact Function.update_self o p h.head

omit [DecidableEq A] in
lemma setHead_self {o : Option R} {p : Option A} (hh : h.head o = p) : h.setHead o p = h := by
  unfold RangeHeap.setHead Chains.setHead
  rw [← hh, Function.update_eq_self]

lemma rangePoolPush_setHead (p : Option A) :
    (h.setHead (some i) p).rangePoolPush a = (h.rangePoolPush a).setHead (some i) p := by
  have hpool : (h.setHead (some i) p).head none = h.head none :=
    Function.update_of_ne (Option.some_ne_none i).symm p h.head
  unfold RangeHeap.rangePoolPush
  rw [hpool]
  unfold RangeHeap.setHead RangeHeap.setNext Chains.setHead Chains.setNext
  dsimp only
  rw [Function.update_comm (Option.some_ne_none i)]

/-- The loop over the nodes of a request that pushes them, where `req->ranges` is to be
looked at as if it moved along. -/
lemma pushAll {p : Option A} {n : ℕ} (hp : Pooled (h.setHead (some i) p) L none lists) (hL : L (some i) = l)
    (hn : l.length ≤ n) : ∃ L', Pooled ((h.pushAll n p).setHead (some i) none) L' none
      (Function.update lists i []) := by
  induction l generalizing h L lists p n with
  | nil =>
    have hend := hp.holds.seg (some i)
    rw [hL] at hend
    have hnone : p = none := (setHead_head h (some i) p).symm.trans hend
    have hlist := hp.view i
    rw [hL] at hlist
    rw [hnone] at hp ⊢
    have hstop : h.pushAll n none = h := by cases n <;> rfl
    rw [hstop, ← List.map_nil, hlist, Function.update_eq_self]
    exact ⟨L, hp⟩
  | cons a l ih =>
    obtain ⟨n, rfl⟩ : ∃ m, n = m + 1 := ⟨n - 1, by simp at hn; omega⟩
    obtain ⟨hhead, hrest⟩ := hp.behead hL
    have hsome : p = some a := (setHead_head h (some i) p).symm.trans hhead
    rw [hsome, setHead_setHead] at hrest
    have hnext := hrest.push
    rw [rangePoolPush_setHead] at hnext
    obtain ⟨L', h'⟩ := ih (n := n) hnext
      (by rw [Function.update_of_ne (Option.some_ne_none i), Function.update_self]) (by simpa using hn)
    rw [Function.update_idem] at h'
    rw [hsome]
    exact ⟨L', h'⟩

lemma pushAll_live (h : RangeHeap R A) (n : ℕ) (p : Option A) : (h.pushAll n p).live = h.live := by
  induction n generalizing h p with
  | zero => rfl
  | succ n ih =>
    cases p with
    | none => rfl
    | some a => exact ih (h.rangePoolPush a) (h.next a)

lemma rangePoolPush_head (h : RangeHeap R A) (a : A) (i : R) :
    (h.rangePoolPush a).head (some i) = h.head (some i) := by
  show Function.update h.head none (some a) (some i) = h.head (some i)
  exact Function.update_of_ne (Option.some_ne_none i) _ _

lemma pushAll_head (h : RangeHeap R A) (i : R) (n : ℕ) (p : Option A) :
    (h.pushAll n p).head (some i) = h.head (some i) := by
  induction n generalizing h p with
  | zero => rfl
  | succ n ih =>
    cases p with
    | none => rfl
    | some a => exact (ih (h.rangePoolPush a) (h.next a)).trans (rangePoolPush_head h a i)

lemma rangesReset_live (h : RangeHeap R A) (i : R) : (h.rangesReset i).live = h.live := pushAll_live h _ _

/-- `ranges_reset` leaves no range. -/
lemma rangesReset (hp : Pooled h L none lists) (i : R) :
    ∃ L', Pooled (h.rangesReset i) L' none (Function.update lists i []) := by
  have hself : Pooled (h.setHead (some i) (h.head (some i))) L none lists := by
    rw [setHead_self rfl]
    exact hp
  exact hself.pushAll rfl (hp.length_le (some i))

/-- A node in hand is given its range as the only one of a request. -/
lemma single (hp : Pooled h L (some a) lists) (hL : L (some i) = []) (hn : h.next a = none) (x : Range) :
    ∃ L', Pooled ((h.setHead (some i) (some a)).setRange a x) L' none (Function.update lists i [x]) := by
  have h1 := (hp.first hL hn).setRange (i := i) (l := []) (m := []) (Function.update_self _ _ _) x
  rw [Function.update_idem] at h1
  exact ⟨_, h1⟩

omit [DecidableEq R] [DecidableEq A] in
lemma nil_of_view (hp : Pooled h L hand lists) (hi : lists i = []) : L (some i) = [] :=
  List.map_eq_nil_iff.mp ((hp.view i).trans hi)

/-- The default range of a request without one. -/
lemma wholeRange (hp : Pooled h L none lists) {new : A} (hnew : new ∉ h.live) (hi : lists i = []) :
    ∃ L', Pooled (h.wholeRange i new) L' none (Function.update lists i [⟨0, ulongMax⟩]) := by
  obtain ⟨L', h1, h2, -, h3⟩ := hp.pop hnew
  exact h1.single ((h3 i).trans (hp.nil_of_view hi)) h2 _

/-- `range_abort` leaves the marker. -/
lemma rangeAbort (hp : Pooled h L none lists) {new : A} (hnew : new ∉ h.live) :
    ∃ L', Pooled (h.rangeAbort i new) L' none (Function.update lists i [⟨0, ulongMax⟩]) := by
  obtain ⟨L₁, h1⟩ := hp.rangesReset i
  obtain ⟨L₂, h2, h3, h4, h5⟩ := h1.pop (show new ∉ (h.rangesReset i).live by rw [rangesReset_live]; exact hnew)
  have hstart : ((h.rangesReset i).rangePoolPop new).1.start ((h.rangesReset i).rangePoolPop new).2 = 0 :=
    congrArg Range.start h4
  obtain ⟨L', h'⟩ := h2.single ((h5 i).trans (h1.nil_of_view (Function.update_self _ _ _))) h3 ⟨0, ulongMax⟩
  rw [Function.update_idem] at h'
  unfold RangeHeap.rangeAbort
  dsimp only
  rw [hstart]
  exact ⟨L', h'⟩

omit [DecidableEq R] [DecidableEq A] in
/-- The loop of `range_add` finds the last node. -/
lemma lastNode_eq {p : Option A} {n : ℕ} (hs : Seg h.next p l none) (hn : l.length ≤ n) :
    h.lastNode n p = l.getLast? := by
  induction l generalizing p n with
  | nil =>
    rw [show p = none from hs]
    cases n <;> rfl
  | cons a l ih =>
    obtain ⟨n, rfl⟩ : ∃ m, n = m + 1 := ⟨n - 1, by simp at hn; omega⟩
    rw [hs.1]
    show (if h.next a = none then some a else h.lastNode n (h.next a)) = _
    cases l with
    | nil => exact if_pos hs.2
    | cons b l =>
      have hne : h.next a ≠ none := by
        rw [hs.2.1]
        exact Option.some_ne_none b
      rw [if_neg hne, ih hs.2 (by simpa using hn), List.getLast?_cons_cons]

/-- `range_add` puts a range behind the others. -/
lemma rangeAdd (hp : Pooled h L none lists) {new : A} (hnew : new ∉ h.live) (start stop : ℕ) :
    ∃ L', Pooled (h.rangeAdd i new start stop) L' none (Function.update lists i (lists i ++ [⟨start, stop⟩])) := by
  obtain ⟨L₁, h1, h2, -, -⟩ := hp.pop hnew
  unfold RangeHeap.rangeAdd
  dsimp only
  generalize h.rangePoolPop new = r at h1 h2
  obtain ⟨g, a⟩ := r
  dsimp only
  rw [lastNode_eq (h1.holds.seg (some i)) (h1.length_le (some i)), ← h1.view i]
  obtain hL | ⟨l, b, hL⟩ := List.eq_nil_or_concat' (L₁ (some i))
  · rw [hL]
    exact h1.single hL h2 ⟨start, stop⟩
  · have h3 := (h1.append hL h2).setRange (i := i) (l := l ++ [b]) (m := []) (Function.update_self _ _ _)
      ⟨start, stop⟩
    rw [Function.update_idem] at h3
    rw [hL, List.getLast?_concat]
    exact ⟨_, h3⟩

/-- `complete_response` gives the first node back. -/
lemma completeRange (hp : Pooled h L none lists) (hi : lists i ≠ []) :
    ∃ L', Pooled (h.completeRange i) L' none (Function.update lists i (lists i).tail) := by
  have hview := hp.view i
  cases hL : L (some i) with
  | nil =>
    rw [hL] at hview
    exact absurd hview.symm hi
  | cons a l =>
    obtain ⟨hhead, hrest⟩ := hp.behead hL
    rw [hL, List.map_cons] at hview
    unfold RangeHeap.completeRange
    rw [hhead, ← hview, List.tail_cons]
    exact ⟨_, hrest.push⟩

/-- The first range of a request moves on. -/
lemma moveStart (hp : Pooled h L none lists) (hi : lists i ≠ []) (start : ℕ) :
    ∃ L', Pooled (h.moveStart i start) L' none
      (Function.update lists i ((lists i).modifyHead fun r => { r with start := start })) := by
  have hview := hp.view i
  cases hL : L (some i) with
  | nil =>
    rw [hL] at hview
    exact absurd hview.symm hi
  | cons a l =>
    have hset := hp.setRange (l := []) hL ⟨start, h.stop a⟩
    rw [hL, List.map_cons] at hview
    unfold RangeHeap.moveStart
    rw [(hp.behead hL).1, ← hview]
    exact ⟨L, hset⟩

omit [DecidableEq R] in
/-- `free` of the node in hand. -/
lemma free (hp : Pooled h L (some a) lists) : Pooled { h with live := h.live.erase a } L none lists := by
  refine ⟨hp.holds, fun y => ?_, nofun, hp.view⟩
  rw [Finset.mem_erase, hp.live y]
  simp only [Option.some.injEq, reduceCtorEq, or_false]
  constructor
  · rintro ⟨hne, ho | he⟩
    · exact ho
    · exact absurd he.symm hne
  · rintro ⟨o, ho⟩
    refine ⟨?_, .inl ⟨o, ho⟩⟩
    rintro rfl
    exact hp.loose y rfl o ho

/-- `range_pool_empty` frees the nodes of the pool, and no others. -/
lemma rangePoolEmpty (hp : Pooled h L none lists) {n : ℕ} (hn : (L none).length ≤ n) :
    ∃ L', Pooled (h.rangePoolEmpty n) L' none lists ∧ L' none = [] := by
  induction n generalizing h L with
  | zero => exact ⟨L, hp, List.eq_nil_of_length_eq_zero (Nat.le_zero.mp hn)⟩
  | succ n ih =>
    unfold RangeHeap.rangePoolEmpty
    cases hL : L none with
    | nil =>
      have hhead : h.head none = none := by
        have hs := hp.holds.seg none
        rw [hL] at hs
        exact hs
      rw [hhead]
      exact ⟨L, hp, hL⟩
    | cons a l =>
      obtain ⟨hhead, hg⟩ := hp.beheadPool hL
      rw [hL] at hn
      unfold RangeHeap.rangePoolPop
      rw [hhead]
      refine ih hg.clear.1.free ?_
      rw [Function.update_self]
      exact Nat.le_of_succ_le_succ hn

/-- The heap as the loop of `ranges_fixup` means it: as long as no range is kept, the list of
the request starts where the loop is. -/
def aimed (h : RangeHeap R A) (i : R) (prev r : Option A) : RangeHeap R A :=
  match prev with
  | none => h.setHead (some i) r
  | some _ => h

omit [DecidableEq A] in
lemma update_pool (i : R) (p l : List A) :
    Function.update (Function.update L (some i) l) none p (some i) = l := by
  rw [Function.update_of_ne (Option.some_ne_none i), Function.update_self]

/-- A range that is no good is taken out. -/
lemma drop {prev : Option A} {kept rest : List A} (hp : Pooled (aimed h i prev (some a)) L none lists)
    (hprev : kept.getLast? = prev) (hL : L (some i) = kept ++ a :: rest) :
    (h.bypass prev a).next a = rest.head? ∧
      ∃ L', Pooled (aimed ((h.bypass prev a).rangePoolPush a) i prev ((h.bypass prev a).next a)) L' none
        (Function.update lists i ((kept ++ rest).map h.range)) ∧ L' (some i) = kept ++ rest := by
  have hs := hp.holds.seg (some i)
  rw [hL] at hs
  cases prev with
  | none =>
    rw [List.getLast?_eq_none_iff.mp hprev] at hL hs ⊢
    have hpush := (hp.behead hL).2.push
    rw [show aimed h i none (some a) = h.setHead (some i) (some a) from rfl, setHead_setHead,
      rangePoolPush_setHead] at hpush
    exact ⟨hs.2.head_eq, _, hpush, update_pool i _ _⟩
  | some b =>
    obtain ⟨k, rfl⟩ := List.getLast?_eq_some_iff.mp hprev
    obtain ⟨-, -, -, hs⟩ := seg_append.mp hs
    have hab : a ≠ b := by
      have hn := hp.holds.nodup (some i)
      rw [hL] at hn
      intro he
      exact (List.nodup_append.mp hn).2.2 b (by simp) a List.mem_cons_self he.symm
    have hpush := (hp.unlink (l := k) (b := b) (m := rest) (by rw [hL, List.append_assoc]; rfl)).push
    have hnext : (h.bypass (some b) a).next a = h.next a := by
      show Function.update h.next b (h.next a) a = h.next a
      exact Function.update_of_ne hab _ _
    rw [List.append_cons k b rest] at hpush
    exact ⟨hnext.trans hs.head_eq, _, hpush, update_pool i _ _⟩

/-- The second loop of `ranges_fixup`: `kept` is what it has left in the list, `rest` what it
has not looked at. -/
lemma fixupLoop {n filesize : ℕ} {prev r : Option A} {kept rest : List A}
    (hp : Pooled (aimed h i prev r) L none lists) (hprev : kept.getLast? = prev)
    (hhead : prev = none → h.head (some i) = none) (hL : L (some i) = kept ++ rest) (hr : rest.head? = r)
    (hn : rest.length ≤ n) : ∃ L', Pooled (h.fixupLoop i filesize n prev r) L' none
      (Function.update lists i (kept.map h.range ++ (rest.map h.range).filterMap (fixupRange filesize))) := by
  induction rest generalizing h L lists prev r kept n with
  | nil =>
    obtain rfl : r = none := hr.symm
    have hstop : h.fixupLoop i filesize n prev none = h := by cases n <;> rfl
    have haim : aimed h i prev none = h := by
      cases prev with
      | none => exact setHead_self (hhead rfl)
      | some b => rfl
    rw [haim] at hp
    have hview := hp.view i
    rw [hL, List.append_nil] at hview
    rw [hstop, List.map_nil, List.filterMap_nil, List.append_nil, hview, Function.update_eq_self]
    exact ⟨L, hp⟩
  | cons a rest ih =>
    obtain rfl : r = some a := hr.symm
    obtain ⟨n, rfl⟩ : ∃ m, n = m + 1 := ⟨n - 1, by simp at hn; omega⟩
    have hnodup := hp.holds.nodup (some i)
    rw [hL] at hnodup
    have ha := (List.nodup_cons.mp (List.perm_middle.nodup_iff.mp hnodup)).1
    have hkept : ∀ x, kept.map (h.setRange a x).range = kept.map h.range :=
      fun x => map_setRange x fun hin => ha (List.mem_append_left rest hin)
    have hrest : ∀ x, rest.map (h.setRange a x).range = rest.map h.range :=
      fun x => map_setRange x fun hin => ha (List.mem_append_right kept hin)
    have hset : Pooled (aimed (h.setRange a (fixedRange filesize (h.range a))) i prev (some a)) L none
        (Function.update lists i (kept.map h.range ++ fixedRange filesize (h.range a) :: rest.map h.range)) := by
      have hset := hp.setRange hL (fixedRange filesize (h.range a))
      cases prev <;> exact hset
    specialize hkept (fixedRange filesize (h.range a))
    specialize hrest (fixedRange filesize (h.range a))
    unfold RangeHeap.fixupLoop
    dsimp only
    rw [List.map_cons, List.filterMap_cons, fixupRange_eq]
    generalize hx : fixedRange filesize (h.range a) = x at hset hkept hrest
    by_cases hbad : offNegative x.start ∨ x.stop < x.start
    · rw [if_pos hbad, if_pos hbad]
      dsimp only
      obtain ⟨hnext, L₁, h1, hL₁⟩ := drop hset hprev hL
      have hsame : (((h.setRange a x).bypass prev a).rangePoolPush a).range = (h.setRange a x).range := by
        cases prev <;> rfl
      have hstill : prev = none →
          (((h.setRange a x).bypass prev a).rangePoolPush a).head (some i) = none := by
        intro he
        rw [← hhead he]
        subst he
        exact rangePoolPush_head _ a i
      obtain ⟨L', h'⟩ := ih (n := n) h1 hprev hstill hL₁ hnext.symm (by simpa using hn)
      rw [Function.update_idem, Function.update_idem, hsame, hkept, hrest] at h'
      exact ⟨L', h'⟩
    · rw [if_neg hbad, if_neg hbad]
      dsimp only
      have hnext := hset.holds.seg (some i)
      rw [hL] at hnext
      obtain ⟨-, -, -, hnext⟩ := seg_append.mp hnext
      have hgo : (if prev = none then (h.setRange a x).setHead (some i) (some a) else h.setRange a x) =
          aimed (h.setRange a x) i prev (some a) := by
        cases prev <;> rfl
      have hsame : (aimed (h.setRange a x) i prev (some a)).range = (h.setRange a x).range := by
        cases prev <;> rfl
      have hself : (kept ++ [a]).map (h.setRange a x).range = kept.map h.range ++ [x] := by
        rw [List.map_append, hkept]
        simp only [List.map_cons, List.map_nil, RangeHeap.range, RangeHeap.setRange, Function.update_self]
      rw [hgo]
      have hkeep : Pooled (aimed (aimed (h.setRange a x) i prev (some a)) i (some a)
        ((aimed (h.setRange a x) i prev (some a)).next a)) L none _ := hset
      obtain ⟨L', h'⟩ := ih (n := n) hkeep (List.getLast?_concat (l := kept))
        (fun he => absurd he (Option.some_ne_none a)) (by rw [hL, List.append_cons]) hnext.head_eq.symm
        (by simpa using hn)
      rw [Function.update_idem, hsame, hself, hrest, List.append_assoc] at h'
      exact ⟨L', h'⟩

/-- `ranges_fixup` leaves what `fixupRanges` says. -/
lemma rangesFixup (hp : Pooled h L none lists) (i : R) (filesize : ℕ) :
    ∃ L', Pooled (h.rangesFixup i filesize) L' none
      (Function.update lists i (fixupRanges filesize (lists i))) := by
  have haim : Pooled ((h.setHead (some i) none).setHead (some i) (h.head (some i))) L none lists := by
    rw [setHead_setHead, setHead_self rfl]
    exact hp
  unfold RangeHeap.rangesFixup fixupRanges
  dsimp only
  split_ifs
  · have hempty := haim.pushAll rfl (hp.length_le (some i))
    rw [setHead_self ((pushAll_head _ i _ _).trans (setHead_head h (some i) none))] at hempty
    exact hempty
  · have hseg := (hp.holds.seg (some i)).head_eq
    rw [← hp.view i]
    exact fixupLoop (show Pooled (aimed (h.setHead (some i) none) i none (h.head (some i))) L none lists from haim)
      List.getLast?_nil (fun _ => setHead_head h (some i) none) rfl hseg.symm (hp.length_le (some i))

/-- A call changes the list of its request the way `RangeCall.result` says, and leaves those of
the others alone. -/
lemma call (hp : Pooled h L none lists) {i : R} {new : A} {k : RangeCall} (hnew : new ∉ h.live)
    (hk : k.Allowed (lists i)) :
    ∃ L', Pooled (h.call i new k) L' none (Function.update lists i (k.result (lists i))) := by
  cases k with
  | add start stop => exact hp.rangeAdd hnew start stop
  | abort => exact hp.rangeAbort hnew
  | reset => exact hp.rangesReset i
  | fixup filesize => exact hp.rangesFixup i filesize
  | whole => exact hp.wholeRange hnew hk
  | complete => exact hp.completeRange hk
  | move start => exact hp.moveStart hk start

end Pooled
end Boa
