import Mathlib

/-! Doubly linked lists of nodes in a heap, each with a pointer to its first node: taking a
node out, putting one in front, and the lists these leave. Nothing here depends on the
program. -/
namespace DList

/-- The two pointers of every node. -/
structure Links (α : Type*) where
  next : α → Option α
  prev : α → Option α

variable {α : Type*}

/-- The nodes of `l` are linked in this order, between `p` and `q`. -/
def Seg (h : Links α) : Option α → List α → Option α → Prop
  | _, [], _ => True
  | p, a :: l, q => h.prev a = p ∧ h.next a = l.head?.or q ∧ Seg h (some a) l q

/-- `head` points to a list of exactly the nodes `l`. -/
structure Linked (h : Links α) (head : Option α) (l : List α) : Prop where
  head_eq : head = l.head?
  seg : Seg h none l none
  nodup : l.Nodup

/-- The nodes met by following `next`, at most `n` of them. -/
def walk (h : Links α) : ℕ → Option α → List α
  | n + 1, some a => a :: walk h n (h.next a)
  | _, _ => []

lemma Seg.congr {h h' : Links α} {p q : Option α} {l : List α} (hs : Seg h p l q)
    (he : ∀ x ∈ l, h'.next x = h.next x ∧ h'.prev x = h.prev x) : Seg h' p l q := by
  induction l generalizing p with
  | nil => trivial
  | cons a l ih =>
    obtain ⟨h1, h2, h3⟩ := hs
    obtain ⟨hn, hp⟩ := he a List.mem_cons_self
    exact ⟨hp.trans h1, hn.trans h2, ih h3 fun x hx => he x (List.mem_cons_of_mem a hx)⟩

lemma Linked.congr {h h' : Links α} {head : Option α} {l : List α} (hl : Linked h head l)
    (he : ∀ x ∈ l, h'.next x = h.next x ∧ h'.prev x = h.prev x) : Linked h' head l :=
  ⟨hl.head_eq, hl.seg.congr he, hl.nodup⟩

lemma seg_append {h : Links α} {p q : Option α} {l₁ l₂ : List α} :
    Seg h p (l₁ ++ l₂) q ↔ Seg h p l₁ (l₂.head?.or q) ∧ Seg h (l₁.getLast?.or p) l₂ q := by
  induction l₁ generalizing p with
  | nil => simp [Seg]
  | cons a l ih =>
    have hhead : (l ++ l₂).head?.or q = l.head?.or (l₂.head?.or q) := by
      cases l <;> simp
    have hlast : (a :: l).getLast?.or p = l.getLast?.or (some a) := by
      rw [List.getLast?_cons]
      cases l.getLast? <;> simp
    simp only [List.cons_append, Seg, ih, hhead, hlast, and_assoc]

/-- What stands around a node of a list. -/
lemma Linked.around {h : Links α} {head : Option α} {l₁ l₂ : List α} {a : α}
    (hl : Linked h head (l₁ ++ a :: l₂)) :
    h.prev a = l₁.getLast? ∧ h.next a = l₂.head? ∧ Seg h none l₁ (some a) ∧
      Seg h (some a) l₂ none := by
  obtain ⟨h1, h2, h3, h4⟩ := seg_append.1 hl.seg
  simp only [List.head?_cons, Option.or_none] at h1 h2 h3
  exact ⟨h2, h3, h1, h4⟩

/-- Following `next` from a node of a list stays in the list. -/
lemma Linked.next_mem {h : Links α} {head : Option α} {l : List α} {a b : α}
    (hl : Linked h head l) (ha : a ∈ l) (hb : h.next a = some b) : b ∈ l := by
  obtain ⟨l₁, l₂, rfl⟩ := List.append_of_mem ha
  rw [hl.around.2.1] at hb
  exact List.mem_append_right _ (List.mem_cons_of_mem a (List.mem_of_mem_head? hb))

lemma Linked.head_mem {h : Links α} {head : Option α} {l : List α} {a : α}
    (hl : Linked h head l) (ha : head = some a) : a ∈ l :=
  List.mem_of_mem_head? (hl.head_eq.symm.trans ha)

/-- A list has a last node: `next` does not lead around. -/
lemma Linked.next_ne {h : Links α} {head : Option α} {l : List α} {a : α}
    (hl : Linked h head l) (ha : a ∈ l) : h.next a ≠ some a := by
  obtain ⟨l₁, l₂, rfl⟩ := List.append_of_mem ha
  intro hn
  rw [hl.around.2.1] at hn
  have hmem : a ∈ l₂ := List.mem_of_mem_head? hn
  have hnd := (List.nodup_append.1 hl.nodup).2.1
  exact (List.nodup_cons.1 hnd).1 hmem

lemma Seg.walk_eq {h : Links α} {p : Option α} {l : List α} {n : ℕ} (hs : Seg h p l none)
    (hn : l.length ≤ n) : walk h n l.head? = l := by
  induction l generalizing p n with
  | nil => cases n <;> rfl
  | cons a l ih =>
    cases n with
    | zero => simp at hn
    | succ n =>
      obtain ⟨-, hnext, hs⟩ := hs
      rw [List.head?_cons, walk, hnext, Option.or_none, ih hs (by simpa using hn)]

/-- A list is what one meets on the way from its head. -/
lemma Linked.walk_eq {h : Links α} {head : Option α} {l : List α} {n : ℕ} (hl : Linked h head l)
    (hn : l.length ≤ n) : walk h n head = l := by
  rw [hl.head_eq]
  exact hl.seg.walk_eq hn

/-- A head points to one list only. -/
lemma Linked.unique {h : Links α} {head : Option α} {l m : List α} (hl : Linked h head l)
    (hm : Linked h head m) : l = m := by
  have hw := hl.walk_eq (Nat.le_max_left l.length m.length)
  exact hw.symm.trans (hm.walk_eq (Nat.le_max_right l.length m.length))

variable [DecidableEq α]

def Links.setNext (h : Links α) (p v : Option α) : Links α :=
  match p with
  | none => h
  | some a => { h with next := Function.update h.next a v }

def Links.setPrev (h : Links α) (p v : Option α) : Links α :=
  match p with
  | none => h
  | some a => { h with prev := Function.update h.prev a v }

/-- Take `a` out of the list that `head` points to. -/
def dequeue (h : Links α) (head : Option α) (a : α) : Links α × Option α :=
  let head := if head = some a then h.next a else head
  let h := h.setNext (h.prev a) (h.next a)
  let h := h.setPrev (h.next a) (h.prev a)
  ((h.setNext (some a) none).setPrev (some a) none, head)

/-- Put `a` in front of the list that `head` points to. -/
def enqueue (h : Links α) (head : Option α) (a : α) : Links α × Option α :=
  let h := h.setPrev head (some a)
  ((h.setNext (some a) head).setPrev (some a) none, some a)

@[simp] lemma Links.setNext_prev (h : Links α) (p v : Option α) : (h.setNext p v).prev = h.prev := by
  cases p <;> rfl

@[simp] lemma Links.setPrev_next (h : Links α) (p v : Option α) : (h.setPrev p v).next = h.next := by
  cases p <;> rfl

lemma Links.setNext_next (h : Links α) (p v : Option α) (x : α) :
    (h.setNext p v).next x = if p = some x then v else h.next x := by
  cases p with
  | none => simp [setNext]
  | some a => simp only [setNext, Function.update_apply, Option.some_inj, eq_comm]

lemma Links.setPrev_prev (h : Links α) (p v : Option α) (x : α) :
    (h.setPrev p v).prev x = if p = some x then v else h.prev x := by
  cases p with
  | none => simp [setPrev]
  | some a => simp only [setPrev, Function.update_apply, Option.some_inj, eq_comm]

lemma enqueue_next (h : Links α) (head : Option α) (a x : α) :
    (enqueue h head a).1.next x = if a = x then head else h.next x := by
  simp [enqueue, Links.setNext_next]

lemma enqueue_prev (h : Links α) (head : Option α) (a x : α) :
    (enqueue h head a).1.prev x =
      if a = x then none else if head = some x then some a else h.prev x := by
  simp [enqueue, Links.setPrev_prev]

/-- The list in front of which the node was put. -/
lemma Linked.enqueue {h : Links α} {head : Option α} {l : List α} {a : α} (hl : Linked h head l)
    (ha : a ∉ l) : Linked (enqueue h head a).1 (some a) (a :: l) := by
  refine ⟨rfl, ?_, List.nodup_cons.2 ⟨ha, hl.nodup⟩⟩
  refine ⟨by simp [enqueue_prev], ?_, ?_⟩
  · rw [enqueue_next, if_pos rfl, hl.head_eq, Option.or_none]
  cases l with
  | nil => trivial
  | cons b m =>
    obtain ⟨-, hnext, hseg⟩ := hl.seg
    obtain ⟨hab, ham⟩ := not_or.1 (mt List.mem_cons.2 ha)
    have hhead : head = some b := hl.head_eq
    refine ⟨?_, ?_, hseg.congr fun x hx => ?_⟩
    · rw [enqueue_prev, if_neg hab, if_pos hhead]
    · rw [enqueue_next, if_neg hab, hnext]
    · have hxa : a ≠ x := fun h => ham (h ▸ hx)
      have hxb : head ≠ some x := by
        rw [hhead]
        rintro ⟨⟩
        exact (List.nodup_cons.1 hl.nodup).1 hx
      rw [enqueue_next, enqueue_prev, if_neg hxa, if_neg hxa, if_neg hxb]
      exact ⟨rfl, rfl⟩

/-- Other lists do not notice. -/
lemma Linked.enqueue_frame {h : Links α} {head head' : Option α} {l m : List α} {a : α}
    (hl : Linked h head l) (hm : Linked h head' m) (hd : ∀ x ∈ m, x ∉ l) (ha : a ∉ m) :
    Linked (DList.enqueue h head a).1 head' m := by
  refine hm.congr fun x hx => ?_
  have hxa : a ≠ x := fun h => ha (h ▸ hx)
  have hxh : head ≠ some x := fun h => hd x hx (hl.head_mem h)
  rw [enqueue_next, enqueue_prev, if_neg hxa, if_neg hxa, if_neg hxh]
  exact ⟨rfl, rfl⟩

lemma dequeue_next (h : Links α) (head : Option α) (a x : α) :
    (dequeue h head a).1.next x =
      if a = x then none else if h.prev a = some x then h.next a else h.next x := by
  simp [dequeue, Links.setNext_next]

lemma dequeue_prev (h : Links α) (head : Option α) (a x : α) :
    (dequeue h head a).1.prev x =
      if a = x then none else if h.next a = some x then h.prev a else h.prev x := by
  simp [dequeue, Links.setPrev_prev, Links.setNext_next]

/-- The list from which the node was taken. -/
lemma Linked.dequeue_append {h : Links α} {head : Option α} {l₁ l₂ : List α} {a : α}
    (hl : Linked h head (l₁ ++ a :: l₂)) :
    Linked (dequeue h head a).1 (dequeue h head a).2 (l₁ ++ l₂) := by
  obtain ⟨hprev, hnext, hseg₁, hseg₂⟩ := hl.around
  obtain ⟨hnd₁, hnd₂, hdisj⟩ := List.nodup_append.1 hl.nodup
  obtain ⟨ha₂, hnd₂⟩ := List.nodup_cons.1 hnd₂
  have ha₁ : a ∉ l₁ := fun hx => hdisj a hx a List.mem_cons_self rfl
  have h₁₂ : ∀ x ∈ l₁, x ∉ l₂ := fun x h1 h2 => hdisj x h1 x (List.mem_cons_of_mem a h2) rfl
  refine ⟨?_, seg_append.2 ⟨?_, ?_⟩, List.nodup_append.2 ⟨hnd₁, hnd₂, ?_⟩⟩
  · simp only [dequeue, hl.head_eq]
    cases l₁ with
    | nil => simp [hnext]
    | cons b m =>
      have hba : b ≠ a := fun h => ha₁ (h ▸ List.mem_cons_self)
      simp [hba]
  · -- the nodes before `a`: only the last of them gets a new `next`
    rcases List.eq_nil_or_concat l₁ with rfl | ⟨m, b, rfl⟩
    · trivial
    · rw [List.concat_eq_append] at *
      obtain ⟨hm, hb1, -, -⟩ := seg_append.1 hseg₁
      have hlast : h.prev a = some b := by rw [hprev]; simp
      have hkeep : ∀ x ∈ m ++ [b], (dequeue h head a).1.prev x = h.prev x := by
        intro x hx
        have hxa : a ≠ x := fun h => ha₁ (h ▸ hx)
        have hxn : h.next a ≠ some x := by
          rw [hnext]
          exact fun h2 => h₁₂ x hx (List.mem_of_mem_head? h2)
        rw [dequeue_prev, if_neg hxa, if_neg hxn]
      refine seg_append.2 ⟨hm.congr fun x hx => ⟨?_, hkeep x (List.mem_append_left _ hx)⟩, ?_, ?_,
        trivial⟩
      · have hxa : a ≠ x := fun h => ha₁ (h ▸ List.mem_append_left _ hx)
        have hxb : h.prev a ≠ some x := by
          rw [hlast]
          rintro ⟨⟩
          exact (List.nodup_append.1 hnd₁).2.2 b hx b List.mem_cons_self rfl
        rw [dequeue_next, if_neg hxa, if_neg hxb]
      · rw [hkeep b (by simp), hb1]
      · have hba : a ≠ b := fun h => ha₁ (h ▸ by simp)
        rw [dequeue_next, if_neg hba, if_pos hlast, hnext]
        simp
  · -- the nodes behind `a`: only the first of them gets a new `prev`
    cases l₂ with
    | nil => trivial
    | cons b m =>
      obtain ⟨-, hb2, hm⟩ := hseg₂
      have hfirst : h.next a = some b := hnext
      have hkeep : ∀ x ∈ b :: m, (dequeue h head a).1.next x = h.next x := by
        intro x hx
        have hxa : a ≠ x := fun h => ha₂ (h ▸ hx)
        have hxp : h.prev a ≠ some x := by
          rw [hprev]
          exact fun h1 => h₁₂ x (List.mem_of_getLast? h1) hx
        rw [dequeue_next, if_neg hxa, if_neg hxp]
      have hab : a ≠ b := fun h => ha₂ (h ▸ List.mem_cons_self)
      refine ⟨?_, ?_, hm.congr fun x hx => ⟨hkeep x (List.mem_cons_of_mem b hx), ?_⟩⟩
      · rw [dequeue_prev, if_neg hab, if_pos hfirst, hprev, Option.or_none]
      · rw [hkeep b List.mem_cons_self, hb2]
      · have hxa : a ≠ x := fun h => ha₂ (h ▸ List.mem_cons_of_mem b hx)
        have hxb : h.next a ≠ some x := by
          rw [hfirst]
          rintro ⟨⟩
          exact (List.nodup_cons.1 hnd₂).1 hx
        rw [dequeue_prev, if_neg hxa, if_neg hxb]
  · intro x h1 y h2 hxy
    exact h₁₂ x h1 (hxy ▸ h2)

/-- The list from which the node was taken. -/
lemma Linked.dequeue {h : Links α} {head : Option α} {l : List α} {a : α} (hl : Linked h head l)
    (ha : a ∈ l) : Linked (dequeue h head a).1 (dequeue h head a).2 (l.erase a) := by
  obtain ⟨l₁, l₂, hnot, rfl, he⟩ := List.exists_erase_eq ha
  rw [he]
  exact hl.dequeue_append

/-- Other lists do not notice. -/
lemma Linked.dequeue_frame {h : Links α} {head head' : Option α} {l m : List α} {a : α}
    (hl : Linked h head l) (ha : a ∈ l) (hm : Linked h head' m) (hd : ∀ x ∈ m, x ∉ l) :
    Linked (DList.dequeue h head a).1 head' m := by
  obtain ⟨l₁, l₂, rfl⟩ := List.append_of_mem ha
  obtain ⟨hprev, hnext, -, -⟩ := hl.around
  refine hm.congr fun x hx => ?_
  have hx' := hd x hx
  have hxa : a ≠ x := fun h => hx' (h ▸ ha)
  have hxp : h.prev a ≠ some x := by
    rw [hprev]
    exact fun h1 => hx' (List.mem_append_left _ (List.mem_of_getLast? h1))
  have hxn : h.next a ≠ some x := by
    rw [hnext]
    exact fun h2 => hx' (List.mem_append_right _ (List.mem_cons_of_mem a (List.mem_of_mem_head? h2)))
  rw [dequeue_next, dequeue_prev, if_neg hxa, if_neg hxa, if_neg hxp, if_neg hxn]
  exact ⟨rfl, rfl⟩

end DList
