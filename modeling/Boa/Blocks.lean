import Mathlib.Data.List.Forall2

/-! A reader that takes a stream one item at a time and gives out a block whenever one is complete.
Nothing here depends on the program. -/

/-- `emit` tells the states in which a block is complete; behind it the reader starts again. -/
structure BlockReader (α σ β : Type*) where
  start : σ
  step : σ → α → σ
  emit : σ → Option β

namespace BlockReader

variable {α σ β : Type*} (R : BlockReader α σ β) {as bs : List α} {s : σ} {a : α} {b : β}

/-- The blocks of a stream, from a state on. -/
def blocksFrom : σ → List α → List β
  | _, [] => []
  | s, a :: as =>
    match R.emit (R.step s a) with
    | none => blocksFrom (R.step s a) as
    | some b => b :: blocksFrom R.start as

def blocks (as : List α) : List β := R.blocksFrom R.start as

/-- The state behind a stream, when the reader starts in some state. -/
def behindFrom : σ → List α → σ
  | s, [] => s
  | s, a :: as =>
    match R.emit (R.step s a) with
    | none => behindFrom (R.step s a) as
    | some _ => behindFrom R.start as

def behind (as : List α) : σ := R.behindFrom R.start as

/-- `as` is the part of a block, behind which the reader is in state `s`. -/
inductive Opens : List α → σ → Prop
  | start : Opens [] R.start
  | step {as : List α} {s : σ} (h : Opens as s) (a : α) (ha : R.emit (R.step s a) = none) :
      Opens (as ++ [a]) (R.step s a)

/-- `as` is the text of one block. -/
inductive Completes : List α → β → Prop
  | step {as : List α} {s : σ} {a : α} {b : β} (h : R.Opens as s) (ha : R.emit (R.step s a) = some b) :
      Completes (as ++ [a]) b

variable {R}

lemma Opens.blocks (h : R.Opens as s) (bs : List α) : R.blocks (as ++ bs) = R.blocksFrom s bs := by
  induction h generalizing bs with
  | start => rfl
  | step h a ha ih =>
    rw [List.append_assoc, ih, List.singleton_append, blocksFrom, ha]

lemma Opens.behind (h : R.Opens as s) (bs : List α) : R.behind (as ++ bs) = R.behindFrom s bs := by
  induction h generalizing bs with
  | start => rfl
  | step h a ha ih =>
    rw [List.append_assoc, ih, List.singleton_append, behindFrom, ha]

/-- A block that is complete is given out, whatever follows. -/
lemma Completes.blocks (h : R.Completes as b) (bs : List α) : R.blocks (as ++ bs) = b :: R.blocks bs := by
  cases h with
  | step h ha =>
    rw [List.append_assoc, h.blocks, List.singleton_append, blocksFrom, ha]
    rfl

lemma Completes.behind (h : R.Completes as b) (bs : List α) : R.behind (as ++ bs) = R.behind bs := by
  cases h with
  | step h ha =>
    rw [List.append_assoc, h.behind, List.singleton_append, behindFrom, ha]
    rfl

variable {heads : List (List α)} {out : List β}

/-- The blocks behind each other. -/
lemma blocks_flatten (h : List.Forall₂ R.Completes heads out) (bs : List α) :
    R.blocks (heads.flatten ++ bs) = out ++ R.blocks bs := by
  induction h with
  | nil => rfl
  | cons hb _ ih =>
    rw [List.flatten_cons, List.append_assoc, hb.blocks, ih]
    rfl

lemma behind_flatten (h : List.Forall₂ R.Completes heads out) (bs : List α) :
    R.behind (heads.flatten ++ bs) = R.behind bs := by
  induction h with
  | nil => rfl
  | cons hb _ ih => rw [List.flatten_cons, List.append_assoc, hb.behind, ih]

/-- A stream that goes on has the same blocks first. -/
lemma blocksFrom_prefix (s : σ) (as bs : List α) : R.blocksFrom s as <+: R.blocksFrom s (as ++ bs) := by
  induction as generalizing s with
  | nil => exact List.nil_prefix
  | cons a as ih =>
    rw [List.cons_append, blocksFrom, blocksFrom]
    cases R.emit (R.step s a) with
    | none => exact ih _
    | some b => exact List.cons_prefix_cons.mpr ⟨rfl, ih _⟩

end BlockReader
