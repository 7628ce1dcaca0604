import Mathlib

/-! Singly linked lists in a heap, one for each owner, with no node on two of them: taking the
first node off, putting a node in front or at the end, and taking out the node behind another.
Nothing here depends on the program. -/
namespace SList

/-- The pointer of every node, and that of every owner to its first node. -/
structure Chains (O A : Type*) where
  next : A → Option A
  head : O → Option A

variable {O A : Type*}

/-- The nodes of `l` follow each other from `p` on, and the last one points to `q`. -/
def Seg (next : A → Option A) : Option A → List A → Option A → Prop
  | p, [], q => p = q
  | p, a :: l, q => p = some a ∧ Seg next (next a) l q

/-- Every owner has the nodes of its list, each of them once, and none of another owner's. -/
structure Holds (h : Chains O A) (L : O → List A) : Prop where
  seg : ∀ o, Seg h.next (h.head o) (L o) none
  nodup : ∀ o, (L o).Nodup
  own : ∀ {o o' : O} {a : A}, a ∈ L o → a ∈ L o' → o = o'

/-- The node is on no list. -/
def Loose (L : O → List A) (a : A) : Prop := ∀ o, a ∉ L o

lemma Seg.congr {next next' : A → Option A} {p q : Option A} {l : List A} (h : Seg next p l q)
    (he : ∀ a ∈ l, next' a = next a) : Seg next' p l q := by
  induction l generalizing p with
  | nil => exact h
  | cons a l ih =>
    refine ⟨h.1, ?_⟩
    rw [he a List.mem_cons_self]
    exact ih h.2 fun x hx => he x (List.mem_cons_of_mem a hx)

lemma seg_append {next : A → Option A} {p q : Option A} {l m : List A} :
    Seg next p (l ++ m) q ↔ ∃ r, Seg next p l r ∧ Seg next r m q := by
  induction l generalizing p with
  | nil =>
    constructor
    · exact fun h => ⟨p, rfl, h⟩
    · rintro ⟨r, rfl, h⟩
      exact h
  | cons a l ih =>
    constructor
    · rintro ⟨h1, h2⟩
      obtain ⟨r, h3, h4⟩ := ih.mp h2
      exact ⟨r, ⟨h1, h3⟩, h4⟩
    · rintro ⟨r, ⟨h1, h2⟩, h3⟩
      exact ⟨h1, ih.mpr ⟨r, h2, h3⟩⟩

lemma Seg.head_eq {next : A → Option A} {p : Option A} {l : List A} (h : Seg next p l none) :
    p = l.head? := by
  cases l with
  | nil => exact h
  | cons a l => exact h.1

lemma Holds.ne_of_other {h : Chains O A} {L : O → List A} {o o' : O} {a b : A} (hh : Holds h L)
    (ha : a ∈ L o') (hne : o' ≠ o) (hb : b ∈ L o) : a ≠ b := by
  rintro rfl
  exact hne (hh.own ha hb)

section Update

variable [DecidableEq O]

/-- One owner's list is replaced; the others' nodes and heads are left alone. -/
lemma Holds.set {h h' : Chains O A} {L : O → List A} (hh : Holds h L) {o : O} {l : List A}
    (hseg : Seg h'.next (h'.head o) l none) (hnodup : l.Nodup) (hmem : ∀ a ∈ l, a ∈ L o ∨ Loose L a)
    (hother : ∀ o', o' ≠ o → h'.head o' = h.head o' ∧ ∀ a ∈ L o', h'.next a = h.next a) :
    Holds h' (Function.update L o l) := by
  have hnot : ∀ {o' a}, o' ≠ o → a ∈ l → a ∉ L o' := by
    intro o' a hne ha hin
    obtain hl | hl := hmem a ha
    · exact hne (hh.own hin hl)
    · exact hl o' hin
  refine ⟨fun o' => ?_, fun o' => ?_, fun {o₁ o₂ a} h1 h2 => ?_⟩
  · by_cases ho : o' = o
    · subst ho
      rw [Function.update_self]
      exact hseg
    · rw [Function.update_of_ne ho, (hother o' ho).1]
      exact (hh.seg o').congr (hother o' ho).2
  · by_cases ho : o' = o
    · subst ho
      rw [Function.update_self]
      exact hnodup
    · rw [Function.update_of_ne ho]
      exact hh.nodup o'
  · by_cases ho₁ : o₁ = o
    · by_cases ho₂ : o₂ = o
      · rw [ho₁, ho₂]
      · subst ho₁
        rw [Function.update_self] at h1
        rw [Function.update_of_ne ho₂] at h2
        exact absurd h2 (hnot ho₂ h1)
    · rw [Function.update_of_ne ho₁] at h1
      by_cases ho₂ : o₂ = o
      · subst ho₂
        rw [Function.update_self] at h2
        exact absurd h1 (hnot ho₁ h2)
      · rw [Function.update_of_ne ho₂] at h2
        exact hh.own h1 h2

lemma loose_update {L : O → List A} {o : O} {l : List A} {a : A} (ha : a ∉ l)
    (hL : ∀ o', o' ≠ o → a ∉ L o') : Loose (Function.update L o l) a := by
  intro o'
  by_cases ho : o' = o
  · subst ho
    rw [Function.update_self]
    exact ha
  · rw [Function.update_of_ne ho]
    exact hL o' ho

def Chains.setHead (h : Chains O A) (o : O) (p : Option A) : Chains O A :=
  { h with head := Function.update h.head o p }

variable {h : Chains O A} {L : O → List A} {o : O} {a b : A} {l m : List A}

/-- The first node is taken off. -/
lemma Holds.behead (hh : Holds h L) (ho : L o = a :: l) : h.head o = some a ∧
    Holds (h.setHead o (h.next a)) (Function.update L o l) ∧ Loose (Function.update L o l) a := by
  have hs := hh.seg o
  have hn := hh.nodup o
  rw [ho] at hs hn
  refine ⟨hs.1, hh.set ?_ (List.nodup_cons.mp hn).2 (fun x hx => .inl ?_) fun o' hne => ⟨?_, fun _ _ => rfl⟩,
    loose_update (List.nodup_cons.mp hn).1 fun o' hne hin => ?_⟩
  · show Seg h.next (Function.update h.head o (h.next a) o) l none
    rw [Function.update_self]
    exact hs.2
  · rw [ho]
    exact List.mem_cons_of_mem a hx
  · exact Function.update_of_ne hne _ _
  · refine hne (hh.own hin ?_)
    rw [ho]
    exact List.mem_cons_self

variable [DecidableEq A]

def Chains.setNext (h : Chains O A) (a : A) (p : Option A) : Chains O A :=
  { h with next := Function.update h.next a p }

omit [DecidableEq O] in
lemma seg_setNext {p q r : Option A} (hs : Seg h.next p l q) (ha : a ∉ l) : Seg (h.setNext a r).next p l q :=
  hs.congr fun x hx => Function.update_of_ne (fun he => ha (by rw [← he]; exact hx)) _ _

omit [DecidableEq O] in
/-- The pointer of a node that is on no list does not matter. -/
lemma Holds.setNext (hh : Holds h L) (ha : Loose L a) (p : Option A) : Holds (h.setNext a p) L :=
  ⟨fun o => seg_setNext (hh.seg o) (ha o), hh.nodup, hh.own⟩

/-- A node is put in front. -/
lemma Holds.push (hh : Holds h L) (ha : Loose L a) :
    Holds ((h.setNext a (h.head o)).setHead o (some a)) (Function.update L o (a :: L o)) := by
  refine hh.set ⟨Function.update_self _ _ _, ?_⟩ (List.nodup_cons.mpr ⟨ha o, hh.nodup o⟩) (fun x hx => ?_)
    fun o' hne => ⟨Function.update_of_ne hne _ _, fun x hx => ?_⟩
  · have hnext : ((h.setNext a (h.head o)).setHead o (some a)).next a = h.head o := Function.update_self _ _ _
    rw [hnext]
    exact seg_setNext (hh.seg o) (ha o)
  · obtain rfl | hx := List.mem_cons.mp hx
    · exact .inr ha
    · exact .inl hx
  · exact Function.update_of_ne (fun he => ha o' (by rw [← he]; exact hx)) _ _

/-- A node is put at the end, behind the last one. -/
lemma Holds.append (hh : Holds h L) (ho : L o = l ++ [b]) (ha : Loose L a) (hn : h.next a = none) :
    Holds (h.setNext b (some a)) (Function.update L o (l ++ [b] ++ [a])) := by
  have hs := hh.seg o
  have hnodup := hh.nodup o
  have hnot := ha o
  rw [ho] at hs hnodup hnot
  obtain ⟨r, h1, h2, -⟩ := seg_append.mp hs
  have hbl : b ∉ l := fun hin => (List.nodup_append.mp hnodup).2.2 b hin b (List.mem_singleton_self b) rfl
  have hab : a ≠ b := fun he => hnot (by rw [he]; exact List.mem_append_right l (List.mem_singleton_self b))
  refine hh.set ?_ (List.nodup_append.mpr ⟨hnodup, List.nodup_singleton a, fun x hx y hy => ?_⟩) (fun x hx => ?_)
    fun o' hne => ⟨rfl, fun x hx => ?_⟩
  · rw [List.append_assoc]
    refine seg_append.mpr ⟨r, seg_setNext h1 hbl, h2, ?_⟩
    have hnext : (h.setNext b (some a)).next b = some a := Function.update_self _ _ _
    rw [hnext]
    refine ⟨rfl, ?_⟩
    have hsame : (h.setNext b (some a)).next a = h.next a := Function.update_of_ne hab _ _
    rw [hsame]
    exact hn
  · rintro rfl
    rw [List.mem_singleton.mp hy] at hx
    exact hnot hx
  · obtain hx | hx := List.mem_append.mp hx
    · rw [ho]
      exact .inl hx
    · rw [List.mem_singleton.mp hx]
      exact .inr ha
  · refine Function.update_of_ne (hh.ne_of_other hx hne ?_) _ _
    rw [ho]
    exact List.mem_append_right l (List.mem_singleton_self b)

/-- The node behind `b` is taken out. -/
lemma Holds.unlink (hh : Holds h L) (ho : L o = l ++ b :: a :: m) :
    Holds (h.setNext b (h.next a)) (Function.update L o (l ++ b :: m)) ∧
      Loose (Function.update L o (l ++ b :: m)) a := by
  have hs := hh.seg o
  have hnodup := hh.nodup o
  rw [ho] at hs hnodup
  obtain ⟨r, h1, h2, h3, h4⟩ := seg_append.mp hs
  have hperm : (l ++ b :: a :: m).Perm (a :: (l ++ b :: m)) := by
    rw [List.append_cons, List.append_cons l b m]
    exact List.perm_middle
  have hrest := List.nodup_cons.mp (hperm.nodup_iff.mp hnodup)
  have hb := List.nodup_cons.mp (List.perm_middle.nodup_iff.mp hrest.2)
  have hbl : b ∉ l := fun hin => hb.1 (List.mem_append_left m hin)
  have hbm : b ∉ m := fun hin => hb.1 (List.mem_append_right l hin)
  refine ⟨hh.set ?_ hrest.2 (fun x hx => .inl ?_) fun o' hne => ⟨rfl, fun x hx => ?_⟩,
    loose_update hrest.1 fun o' hne hin => ?_⟩
  · refine seg_append.mpr ⟨r, seg_setNext h1 hbl, h2, ?_⟩
    have hnext : (h.setNext b (h.next a)).next b = h.next a := Function.update_self _ _ _
    rw [hnext]
    exact seg_setNext h4 hbm
  · rw [ho]
    exact hperm.mem_iff.mpr (List.mem_cons_of_mem a hx)
  · refine Function.update_of_ne (hh.ne_of_other hx hne ?_) _ _
    rw [ho]
    exact List.mem_append_right l List.mem_cons_self
  · refine hne (hh.own hin ?_)
    rw [ho]
    exact hperm.mem_iff.mpr List.mem_cons_self

end Update
end SList
