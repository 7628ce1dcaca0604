import Boa.AddType
import Boa.SList

/-! The MIME table in memory (hash.c): chains of nodes, searched and appended to node by node. It
is the hash table as a value, and that is a map in which the first addition of a key counts. -/
namespace Boa
open SList

/-- `mime_hashtable[i]` is the first node of `i`. -/
structure HashHeap (A : Type*) extends Chains ℕ A where
  key : A → Bytes
  value : A → Bytes
  /-- the nodes that `malloc` returned and `free` did not get -/
  live : Finset A

/-- What `malloc` returns in `hash_insert`, and whether the two calls of `strdup` succeed. -/
structure Allocation (A : Type*) where
  node : Option A
  key : Bool
  value : Bool

/-- A call on the table. -/
inductive MimeCall
  | add (extension type : Bytes)
  | dump

namespace HashHeap

variable {A : Type*} [DecidableEq A]

/-- The table at the start of the program. -/
def empty : HashHeap A := ⟨⟨fun _ => none, fun _ => none⟩, fun _ => [], fun _ => [], ∅⟩

def setNext (h : HashHeap A) (a : A) (p : Option A) : HashHeap A := { h with toChains := h.toChains.setNext a p }

def setHead (h : HashHeap A) (i : ℕ) (p : Option A) : HashHeap A := { h with toChains := h.toChains.setHead i p }

/-- A node that `malloc` returned, with copies of the key and the value. -/
def newNode (h : HashHeap A) (a : A) (key value : Bytes) : HashHeap A :=
  { h with
    key := Function.update h.key a key
    value := Function.update h.value a value
    next := Function.update h.next a none
    live := insert a h.live }

/-- The new node becomes the only one of its chain, or follows the last one. -/
def linkNode (h : HashHeap A) (hash : ℕ) (current : Option A) (trailer : A) : HashHeap A :=
  match current with
  | none => h.setHead hash (some trailer)
  | some current => h.setNext current (some trailer)

/-- The loop of `hash_insert`: it returns a node with the key, or ends with `current`, the last
node if there is one. There is no result as long as it runs. -/
def insertLoop (h : HashHeap A) (key : Bytes) : ℕ → Option A → Option (A ⊕ Option A)
  | 0, _ => none
  | _ + 1, none => some (.inr none)
  | fuel + 1, some current =>
    if h.key current = key then some (.inl current)
    else if h.next current ≠ none then h.insertLoop key fuel (h.next current)
    else some (.inr (some current))

/-- `hash_insert` with the pointer it returns. No loop has more rounds than there are nodes, and
one more to see the end. -/
def hashInsert (h : HashHeap A) (new : Allocation A) (hash : ℕ) (key value : Option Bytes) :
    Option (HashHeap A × Option A) :=
  match key, value with
  | none, _ | some [], _ | _, none | _, some [] => some (h, none)
  | some key, some value =>
    (h.insertLoop key (h.live.card + 1) (h.head hash)).map fun r =>
      match r with
      | .inl current => (h, some current)
      | .inr current =>
        match new.node with
        | none => (h, none)
        | some trailer =>
          if !new.key || !new.value then (h, none)
          else
            ((h.newNode trailer key value).linkNode hash current trailer, some trailer)

/-- The loop of `hash_find`. -/
def findLoop (h : HashHeap A) (key : Bytes) : ℕ → Option A → Option (Option A)
  | 0, _ => none
  | _ + 1, none => some none
  | fuel + 1, some current => if h.key current = key then some (some current) else h.findLoop key fuel (h.next current)

def hashFind (h : HashHeap A) (key : Option Bytes) (hash : ℕ) : Option (Option A) :=
  match key with
  | none | some [] => some none
  | some key => h.findLoop key (h.live.card + 1) (h.head hash)

/-- The inner loop of `hash_clear`. -/
def freeLoop (h : HashHeap A) : ℕ → Option A → Option (HashHeap A)
  | 0, _ => none
  | _ + 1, none => some h
  | fuel + 1, some temp => { h with live := h.live.erase temp }.freeLoop fuel (h.next temp)

/-- One round of `hash_clear`. -/
def clearChain (h : HashHeap A) (i : ℕ) : Option (HashHeap A) :=
  (h.freeLoop (h.live.card + 1) (h.head i)).map fun h => h.setHead i none

def hashClear (h : HashHeap A) (size : ℕ) : Option (HashHeap A) := (List.range size).foldlM clearChain h

variable (hash : Bytes → ℕ)

/-- `add_mime_type`, with the hash function that `boa_hash` is; the server dies if the entry is refused. -/
def addMimeType (h : HashHeap A) (new : Allocation A) (extension type : Bytes) : Option (HashHeap A) :=
  match h.hashInsert new (hash extension % mimeHashtableSize) (some extension) (some type) with
  | some (h, some _) => some h
  | _ => none

/-- `dump_mime`. -/
def dumpMime (h : HashHeap A) : Option (HashHeap A) := h.hashClear mimeHashtableSize

/-- `get_mime_type`. -/
def getMimeType (h : HashHeap A) (defaultType : Bytes) (filename : Option Bytes) : Option Bytes :=
  match filename with
  | none | some [] => some defaultType
  | some filename =>
    match extension filename with
    | none | some [] => some defaultType
    | some extension =>
      (h.hashFind (some extension) (hash extension % mimeHashtableSize)).map fun current =>
        current.elim defaultType h.value

/-- The node that is reached from the first one of a chain in `n` steps. -/
def node (h : HashHeap A) (i n : ℕ) : Option A := (fun p => p.bind h.next)^[n] (h.head i)

/-- What a node says. -/
def entry (h : HashHeap A) (a : A) : Bytes × Bytes := (h.key a, h.value a)

/-- The hash table as a value, where the chains have the nodes `L`. -/
def view (h : HashHeap A) (L : ℕ → List A) : HashTable :=
  (List.range mimeHashtableSize).map fun i => (L i).map h.entry

end HashHeap

/-- Every node that was not freed is on one of the chains `L`, once. -/
structure Filed {A : Type*} (h : HashHeap A) (L : ℕ → List A) : Prop where
  holds : Holds h.toChains L
  live : ∀ a, a ∈ h.live ↔ ∃ i, a ∈ L i
  within : ∀ i, mimeHashtableSize ≤ i → L i = []

namespace Filed

variable {A : Type*} [DecidableEq A] {h h' : HashHeap A} {L : ℕ → List A} {i n fuel : ℕ} {key value : Bytes}
  {p : Option A} {l : List A} {a : A}

omit [DecidableEq A] in
/-- No chain is longer than the number of nodes. -/
lemma length_lt (hf : Filed h L) (i : ℕ) : (L i).length < h.live.card + 1 := by
  classical
  rw [← List.toFinset_card_of_nodup (hf.holds.nodup i), Nat.lt_add_one_iff]
  refine Finset.card_le_card fun a ha => ?_
  exact (hf.live a).2 ⟨i, List.mem_toFinset.1 ha⟩

omit [DecidableEq A] in
lemma findLoop_eq (hs : Seg h.next p l none) (hfuel : l.length < fuel) :
    h.findLoop key fuel p = some (l.find? fun a => h.key a == key) := by
  induction l generalizing p fuel with
  | nil =>
    obtain ⟨fuel, rfl⟩ := Nat.exists_eq_succ_of_ne_zero (Nat.ne_zero_of_lt hfuel)
    obtain rfl : p = none := hs
    simp [HashHeap.findLoop]
  | cons a l ih =>
    obtain ⟨fuel, rfl⟩ := Nat.exists_eq_succ_of_ne_zero (Nat.ne_zero_of_lt hfuel)
    obtain ⟨rfl, hs⟩ := hs
    have hlen : l.length < fuel := by simpa using hfuel
    rw [HashHeap.findLoop, ih hs hlen]
    by_cases hkey : h.key a = key
    · simp [hkey]
    · simp [hkey, beq_false_of_ne hkey]

omit [DecidableEq A] in
/-- The search of `hash_insert` ends with a node that has the key, or with the last one. -/
lemma insertLoop_eq (hs : Seg h.next p l none) (hfuel : l.length < fuel) :
    h.insertLoop key fuel p =
      some ((l.find? fun a => h.key a == key).elim (.inr l.getLast?) fun a => .inl a) := by
  induction l generalizing p fuel with
  | nil =>
    obtain ⟨fuel, rfl⟩ := Nat.exists_eq_succ_of_ne_zero (Nat.ne_zero_of_lt hfuel)
    obtain rfl : p = none := hs
    simp [HashHeap.insertLoop]
  | cons a l ih =>
    obtain ⟨fuel, rfl⟩ := Nat.exists_eq_succ_of_ne_zero (Nat.ne_zero_of_lt hfuel)
    obtain ⟨rfl, hs⟩ := hs
    have hlen : l.length < fuel := by simpa using hfuel
    rw [HashHeap.insertLoop, ih hs hlen, hs.head_eq]
    by_cases hkey : h.key a = key
    · simp [hkey]
    · have hbeq := beq_false_of_ne hkey
      cases l with
      | nil => simp [hkey, hbeq]
      | cons b l => simp [hkey, hbeq, List.getLast?_cons_cons, List.find?_cons (a := a)]

omit [DecidableEq A] in
lemma node_eq (hs : Seg h.next p l none) : (fun p => p.bind h.next)^[n] p = l[n]? := by
  induction n generalizing p l with
  | zero => simpa using hs.head_eq.trans List.head?_eq_getElem?
  | succ n ih =>
    rw [Function.iterate_succ_apply]
    cases l with
    | nil =>
      obtain rfl : p = none := hs
      simpa using ih (l := []) (p := none) rfl
    | cons a l =>
      obtain ⟨rfl, hs⟩ := hs
      simpa using ih hs

/-- The nodes of a chain are freed. -/
lemma freeLoop_eq (hs : Seg h.next p l none) (hfuel : l.length < fuel) :
    h.freeLoop fuel p = some { h with live := h.live \ l.toFinset } := by
  induction l generalizing h p fuel with
  | nil =>
    obtain ⟨fuel, rfl⟩ := Nat.exists_eq_succ_of_ne_zero (Nat.ne_zero_of_lt hfuel)
    obtain rfl : p = none := hs
    simp [HashHeap.freeLoop]
  | cons a l ih =>
    obtain ⟨fuel, rfl⟩ := Nat.exists_eq_succ_of_ne_zero (Nat.ne_zero_of_lt hfuel)
    obtain ⟨rfl, hs⟩ := hs
    have hlen : l.length < fuel := by simpa using hfuel
    rw [HashHeap.freeLoop, ih (h := { h with live := h.live.erase a }) hs hlen]
    simp [Finset.erase_sdiff_comm, Finset.sdiff_insert]

omit [DecidableEq A] in
lemma view_getD (hi : i < mimeHashtableSize) : (h.view L).getD i [] = (L i).map h.entry := by
  simp [HashHeap.view, List.getD_eq_getElem?_getD, hi]

omit [DecidableEq A] in
/-- The chain of one hash value is another one. -/
lemma view_update (hentry : ∀ j, j ≠ i → ∀ b ∈ L j, h'.entry b = h.entry b) :
    h'.view (Function.update L i l) = (h.view L).set i (l.map h'.entry) := by
  apply List.ext_getElem
  · simp [HashHeap.view]
  · intro j hj _
    simp only [HashHeap.view, List.getElem_map, List.getElem_range, List.getElem_set]
    by_cases hij : i = j
    · subst hij
      simp
    · rw [Function.update_of_ne (Ne.symm hij), if_neg hij]
      exact List.map_congr_left (hentry j (Ne.symm hij))

omit [DecidableEq A] in
/-- One chain is replaced. -/
lemma update (hf : Filed h L) (hi : i < mimeHashtableSize) (hh : Holds h'.toChains (Function.update L i l))
    (hlive : ∀ b, b ∈ h'.live ↔ b ∈ l ∨ ∃ j, j ≠ i ∧ b ∈ L j) : Filed h' (Function.update L i l) where
  holds := hh
  live b := by rw [hlive, Function.exists_update_iff (p := fun _ l => b ∈ l)]
  within j hj := by
    rw [Function.update_of_ne (by omega)]
    exact hf.within j hj

/-- A new node is put behind those of the chain `i`. -/
lemma append (hf : Filed h L) (hi : i < mimeHashtableSize) (ha : a ∉ h.live) (key value : Bytes) :
    Filed ((h.newNode a key value).linkNode i (L i).getLast? a) (Function.update L i (L i ++ [a])) ∧
      ((h.newNode a key value).linkNode i (L i).getLast? a).view (Function.update L i (L i ++ [a])) =
        (h.view L).set i ((L i).map h.entry ++ [(key, value)]) := by
  have hloose : Loose L a := fun j hj => ha ((hf.live a).2 ⟨j, hj⟩)
  have hholds : Holds (h.newNode a key value).toChains L := hf.holds.setNext hloose none
  have hlive : ((h.newNode a key value).linkNode i (L i).getLast? a).live = insert a h.live := by
    cases (L i).getLast? <;> rfl
  have hnode : ∀ b, ((h.newNode a key value).linkNode i (L i).getLast? a).entry b =
      (h.newNode a key value).entry b := by
    intro b
    cases (L i).getLast? <;> rfl
  have hentry : ∀ j, ∀ b ∈ L j, (h.newNode a key value).entry b = h.entry b := by
    intro j b hb
    have hne : b ≠ a := by
      rintro rfl
      exact hloose j hb
    simp [HashHeap.entry, HashHeap.newNode, hne]
  have hnext : (h.newNode a key value).next a = none := Function.update_self _ _ _
  refine ⟨hf.update hi ?_ fun b => ?_, ?_⟩
  · rcases List.eq_nil_or_concat' (L i) with hnil | ⟨l, b, hlast⟩
    · have hhead : h.head i = none := by
        have hs := hf.holds.seg i
        rw [hnil] at hs
        exact hs
      have hsame : (h.newNode a key value).toChains.setNext a (h.head i) = (h.newNode a key value).toChains := by
        rw [hhead, ← hnext]
        exact congrArg (fun n => Chains.mk n h.head) (Function.update_eq_self a _)
      have hpush := hholds.push (o := i) hloose
      rw [show (h.newNode a key value).toChains.head i = h.head i from rfl, hsame, hnil] at hpush
      rw [hnil]
      exact hpush
    · have happ := hholds.append hlast hloose hnext
      rw [hlast, List.getLast?_concat]
      exact happ
  · rw [hlive, Finset.mem_insert, hf.live, List.mem_append, List.mem_singleton]
    have howner : (∃ j, b ∈ L j) ↔ b ∈ L i ∨ ∃ j, j ≠ i ∧ b ∈ L j := by
      simpa using Function.exists_update_iff (f := L) (a := i) (b := L i) (p := fun _ l => b ∈ l)
    rw [howner]
    tauto
  · rw [view_update fun j _ b hb => (hnode b).trans (hentry j b hb), List.map_append]
    have hold : (L i).map ((h.newNode a key value).linkNode i (L i).getLast? a).entry = (L i).map h.entry :=
      List.map_congr_left fun b hb => (hnode b).trans (hentry i b hb)
    have hown : ((h.newNode a key value).linkNode i (L i).getLast? a).entry a = (key, value) := by
      rw [hnode]
      simp [HashHeap.entry, HashHeap.newNode]
    rw [hold, List.map_cons, List.map_nil, hown]

/-- What `hash_insert` does where the search has ended. -/
lemma hashInsert_eq (hf : Filed h L) (new : Allocation A) (hkey : key ≠ []) (hvalue : value ≠ []) :
    h.hashInsert new i (some key) (some value) =
      some (match (L i).find? fun a => h.key a == key with
        | some current => (h, some current)
        | none =>
          match new.node with
          | none => (h, none)
          | some trailer =>
            if !new.key || !new.value then (h, none)
            else ((h.newNode trailer key value).linkNode i (L i).getLast? trailer, some trailer)) := by
  obtain ⟨c, key, rfl⟩ := List.exists_cons_of_ne_nil hkey
  obtain ⟨d, value, rfl⟩ := List.exists_cons_of_ne_nil hvalue
  simp only [HashHeap.hashInsert, insertLoop_eq (hf.holds.seg i) (hf.length_lt i)]
  cases (L i).find? fun a => h.key a == c :: key <;> rfl

/-- An addition is one to the table as a value. -/
lemma add (hf : Filed h L) (hash : Bytes → ℕ) {new : Allocation A} (hnew : ∀ a, new.node = some a → a ∉ h.live)
    (hadd : h.addMimeType hash new key value = some h') :
    ∃ L', Filed h' L' ∧
      Boa.hashInsert (h.view L) (hash key % mimeHashtableSize) key value = some (h'.view L') := by
  have hi : hash key % mimeHashtableSize < mimeHashtableSize := Nat.mod_lt _ (by decide)
  rw [HashHeap.addMimeType] at hadd
  by_cases hempty : key = [] ∨ value = []
  · have hnone : h.hashInsert new (hash key % mimeHashtableSize) (some key) (some value) = some (h, none) := by
      rcases hempty with rfl | rfl
      · simp [HashHeap.hashInsert]
      · cases key <;> simp [HashHeap.hashInsert]
    simp [hnone] at hadd
  · have hany : ((L (hash key % mimeHashtableSize)).map h.entry).any (·.1 == key) =
        ((L (hash key % mimeHashtableSize)).find? fun a => h.key a == key).isSome := by
      rw [Bool.eq_iff_iff]
      simp [HashHeap.entry]
    rw [Boa.hashInsert, if_neg hempty]
    simp only [view_getD hi, hany]
    simp only [not_or] at hempty
    rw [hf.hashInsert_eq new hempty.1 hempty.2] at hadd
    cases hfind : (L (hash key % mimeHashtableSize)).find? fun a => h.key a == key with
    | some current =>
      simp only [hfind, Option.some.injEq] at hadd
      exact ⟨L, hadd ▸ hf, by simp [hadd]⟩
    | none =>
      simp only [hfind] at hadd
      cases hnode : new.node with
      | none => simp [hnode] at hadd
      | some a =>
        simp only [hnode] at hadd
        split_ifs at hadd
        obtain ⟨hfiled, hview⟩ := hf.append hi (hnew a hnode) key value
        simp only [Option.some.injEq] at hadd
        rw [hadd] at hfiled hview
        exact ⟨_, hfiled, by simp [hview]⟩

/-- An addition for which there is memory is made. -/
lemma exists_add (hf : Filed h L) (hash : Bytes → ℕ) (hkey : key ≠ []) (hvalue : value ≠ []) (a : A) :
    ∃ h', h.addMimeType hash ⟨some a, true, true⟩ key value = some h' := by
  rw [HashHeap.addMimeType, hf.hashInsert_eq _ hkey hvalue]
  cases (L (hash key % mimeHashtableSize)).find? fun a => h.key a == key <;> simp

/-- One chain is given back. -/
lemma clearChain (hf : Filed h L) (hi : i < mimeHashtableSize) :
    ∃ h', h.clearChain i = some h' ∧ Filed h' (Function.update L i []) := by
  rw [HashHeap.clearChain, freeLoop_eq (hf.holds.seg i) (hf.length_lt i)]
  refine ⟨_, rfl, hf.update hi ?_ fun b => ?_⟩
  · refine hf.holds.set ?_ List.nodup_nil (by simp) fun j hj => ⟨?_, fun _ _ => rfl⟩
    · simp [HashHeap.setHead, Chains.setHead, Seg]
    · simp [HashHeap.setHead, Chains.setHead, hj]
  · have hmem : b ∈ h.live ∧ b ∉ L i ↔ ∃ j, j ≠ i ∧ b ∈ L j := by
      rw [hf.live]
      constructor
      · rintro ⟨⟨j, hj⟩, hb⟩
        exact ⟨j, fun he => hb (he ▸ hj), hj⟩
      · rintro ⟨j, hne, hj⟩
        exact ⟨⟨j, hj⟩, fun hb => hne (hf.holds.own hj hb)⟩
    simpa [HashHeap.setHead] using hmem

lemma hashClear (hf : Filed h L) {size : ℕ} (hsize : size ≤ mimeHashtableSize) :
    ∃ h', h.hashClear size = some h' ∧ Filed h' fun i => if i < size then [] else L i := by
  induction size with
  | zero => exact ⟨h, rfl, by simpa using hf⟩
  | succ size ih =>
    obtain ⟨h₁, hrun, hf₁⟩ := ih (by omega)
    obtain ⟨h₂, hround, hf₂⟩ := hf₁.clearChain (i := size) (by omega)
    refine ⟨h₂, ?_, ?_⟩
    · rw [HashHeap.hashClear] at hrun
      simp [HashHeap.hashClear, List.range_succ, List.foldlM_append, hrun, hround]
    · convert hf₂ using 1
      funext i
      by_cases hi : i = size
      · simp [hi]
      · simp only [Function.update_of_ne hi, Nat.lt_succ_iff_lt_or_eq, hi, or_false]

/-- Everything is given back. -/
lemma dumpMime (hf : Filed h L) :
    ∃ h', h.dumpMime = some h' ∧ Filed h' (fun _ => []) ∧ h'.view (fun _ => []) = Boa.dumpMime (h.view L) := by
  obtain ⟨h', hrun, hf'⟩ := hf.hashClear (le_refl mimeHashtableSize)
  have hnil : (fun i => if i < mimeHashtableSize then [] else L i) = fun _ => [] := by
    funext i
    split_ifs with hi
    · rfl
    · exact hf.within i (by omega)
  rw [hnil] at hf'
  refine ⟨h', hrun, hf', ?_⟩
  rw [HashHeap.view, HashHeap.view, Boa.dumpMime, List.map_map]
  rfl

omit [DecidableEq A] in
/-- The node that is found says what the table as a value does. -/
lemma hashFind (hf : Filed h L) (hi : i < mimeHashtableSize) (hkey : key ≠ []) :
    ∃ r, h.hashFind (some key) i = some r ∧ r.map h.entry = Boa.hashFind (h.view L) key i := by
  obtain ⟨c, key, rfl⟩ := List.exists_cons_of_ne_nil hkey
  refine ⟨_, findLoop_eq (hf.holds.seg i) (hf.length_lt i), ?_⟩
  rw [Boa.hashFind, if_neg hkey, view_getD hi, List.find?_map]
  rfl

end Filed

/-! ### The first addition counts -/

/-- What was added to the table since it was emptied. -/
def additions (calls : List MimeCall) : List (Bytes × Bytes) :=
  calls.foldl (fun es c => match c with | .add extension type => es ++ [(extension, type)] | .dump => []) []

/-- The table as a value holds the additions: in each chain the first entry with a key is the first
addition of that key, and there is no other. -/
structure FirstWins (hash : Bytes → ℕ) (entries : List (Bytes × Bytes)) (table : HashTable) : Prop where
  length : table.length = mimeHashtableSize
  indexes : Chains.Indexes (fun e : Bytes × Bytes => hash e.1 % mimeHashtableSize) Prod.fst entries table
  nodup : ∀ i < mimeHashtableSize, ((table.getD i []).map Prod.fst).Nodup
  own : ∀ i < mimeHashtableSize, ∀ e ∈ table.getD i [], hash e.1 % mimeHashtableSize = i

namespace FirstWins

variable {hash : Bytes → ℕ} {entries : List (Bytes × Bytes)} {table table' : HashTable} {key value : Bytes}

lemma empty (hash : Bytes → ℕ) : FirstWins hash [] (List.replicate mimeHashtableSize []) where
  length := by simp
  indexes := Chains.indexes_empty _
  nodup i hi := by simp [List.getD_eq_getElem?_getD, hi]
  own i hi := by simp [List.getD_eq_getElem?_getD, hi]

lemma insert (h : FirstWins hash entries table)
    (hins : hashInsert table (hash key % mimeHashtableSize) key value = some table') :
    FirstWins hash (entries ++ [(key, value)]) table' := by
  have hlt : hash key % mimeHashtableSize < table.length := by
    rw [h.length]
    exact Nat.mod_lt _ (by decide)
  rw [hashInsert] at hins
  split_ifs at hins with hempty
  dsimp only at hins
  split_ifs at hins with hany
  · obtain rfl := Option.some.inj hins
    refine { h with indexes := h.indexes.skip ?_ }
    obtain ⟨e, he, hkey⟩ := List.any_eq_true.1 hany
    exact ⟨e, he, beq_iff_eq.1 hkey⟩
  · obtain rfl := Option.some.inj hins
    have hget : ∀ i < mimeHashtableSize, (Chains.put table (hash key % mimeHashtableSize) (key, value)).getD i [] =
        if hash key % mimeHashtableSize = i then table.getD (hash key % mimeHashtableSize) [] ++ [(key, value)]
        else table.getD i [] := fun i hi => Chains.getD_put _ _ (h.length ▸ hi)
    have hfresh : key ∉ (table.getD (hash key % mimeHashtableSize) []).map Prod.fst := by
      simpa using hany
    refine ⟨(Chains.length_put _ _ _).trans h.length, h.indexes.put, fun i hi => ?_, fun i hi => ?_⟩
    · rw [show table.set _ _ = Chains.put table _ (key, value) from rfl, hget i hi]
      split_ifs with hit
      · rw [List.map_append, List.map_cons, List.map_nil, List.nodup_append]
        refine ⟨h.nodup _ (hit ▸ hi), List.nodup_singleton _, ?_⟩
        rintro x hx y hy rfl
        rw [List.mem_singleton.1 hy] at hx
        exact hfresh hx
      · exact h.nodup i hi
    · rw [show table.set _ _ = Chains.put table _ (key, value) from rfl, hget i hi]
      split_ifs with hit
      · intro e he
        rcases List.mem_append.1 he with he | he
        · exact (h.own _ (hit ▸ hi) e he).trans hit
        · rwa [List.mem_singleton.1 he]
      · exact h.own i hi

lemma dump (hash : Bytes → ℕ) (h : table.length = mimeHashtableSize) : FirstWins hash [] (dumpMime table) := by
  have hrep : dumpMime table = List.replicate mimeHashtableSize [] := by simp [dumpMime, h]
  rw [hrep]
  exact empty hash

lemma find (h : FirstWins hash entries table) (hkey : key ≠ []) :
    hashFind table key (hash key % mimeHashtableSize) = entries.find? (·.1 == key) := by
  have hlt : hash key % mimeHashtableSize < table.length := by
    rw [h.length]
    exact Nat.mod_lt _ (by decide)
  rw [hashFind, if_neg hkey, h.indexes _ hlt (· == key)]
  refine (Chains.find?_and_eq_iff (p := fun e : Bytes × Bytes => e.1 == key)).2 fun e he => ?_
  have hfst := List.find?_some (p := fun e : Bytes × Bytes => e.1 == key) he
  exact beq_iff_eq.2 (congrArg (fun k => hash k % mimeHashtableSize) (beq_iff_eq.1 hfst))

end FirstWins

section Run

variable {A : Type*} [DecidableEq A] {hash : Bytes → ℕ} {calls : List MimeCall} {h : HashHeap A} {i j m n : ℕ}
  {a b : A}

/-- The calls that returned, and the memory then. -/
inductive MimeRun (hash : Bytes → ℕ) : List MimeCall → HashHeap A → Prop
  | start : MimeRun hash [] .empty
  | add {calls : List MimeCall} {h h' : HashHeap A} {new : Allocation A} {extension type : Bytes} :
    MimeRun hash calls h → (∀ a, new.node = some a → a ∉ h.live) →
    h.addMimeType hash new extension type = some h' → MimeRun hash (calls ++ [.add extension type]) h'
  | dump {calls : List MimeCall} {h h' : HashHeap A} :
    MimeRun hash calls h → h.dumpMime = some h' → MimeRun hash (calls ++ [.dump]) h'

omit [DecidableEq A] in
lemma filed_empty : Filed (HashHeap.empty : HashHeap A) fun _ => [] where
  holds := ⟨fun _ => rfl, fun _ => List.nodup_nil, nofun⟩
  live := by simp [HashHeap.empty]
  within _ _ := rfl

omit [DecidableEq A] in
lemma view_empty : (HashHeap.empty : HashHeap A).view (fun _ => []) = List.replicate mimeHashtableSize [] := by
  simp [HashHeap.view, List.map_const']

/-- After every call the nodes are filed, and what they say is a map in which the first addition counts. -/
lemma MimeRun.filed (hrun : MimeRun hash calls h) :
    ∃ L, Filed h L ∧ FirstWins hash (additions calls) (h.view L) := by
  induction hrun with
  | start => exact ⟨_, filed_empty, view_empty ▸ FirstWins.empty hash⟩
  | add _ hnew hadd ih =>
    obtain ⟨L, hf, hw⟩ := ih
    obtain ⟨L', hf', hins⟩ := hf.add hash hnew hadd
    refine ⟨L', hf', ?_⟩
    simpa [additions, List.foldl_append] using hw.insert hins
  | dump _ hdump ih =>
    obtain ⟨L, hf, hw⟩ := ih
    obtain ⟨h', hrun, hf', hview⟩ := hf.dumpMime
    obtain rfl := Option.some.inj (hrun.symm.trans hdump)
    refine ⟨_, hf', ?_⟩
    rw [hview]
    simpa [additions, List.foldl_append] using FirstWins.dump hash hw.length

/-- As long as there is memory an addition can be made. -/
lemma MimeRun.exists_add [Infinite A] (hrun : MimeRun hash calls h) {ext type : Bytes} (hext : ext ≠ [])
    (htype : type ≠ []) : ∃ h' : HashHeap A, MimeRun hash (calls ++ [.add ext type]) h' := by
  obtain ⟨L, hf, -⟩ := hrun.filed
  obtain ⟨a, ha⟩ := Infinite.exists_notMem_finset h.live
  obtain ⟨h', hadd⟩ := hf.exists_add hash hext htype a
  refine ⟨h', hrun.add (fun b hb => ?_) hadd⟩
  rwa [← Option.some.inj hb]

lemma extension_append (pre : Bytes) {ext : Bytes} (h : dot ∉ ext) : extension (pre ++ dot :: ext) = some ext := by
  have hrev : ∀ c ∈ ext.reverse, decide (c ≠ dot) = true := by
    intro c hc
    have hne : c ≠ dot := fun he => h (he ▸ List.mem_reverse.1 hc)
    simpa using hne
  rw [extension, if_pos (by simp), List.reverse_append, List.reverse_cons, List.append_assoc,
    List.takeWhile_append_of_pos hrev]
  simp

/-- A file name with an extension is looked up in the additions. -/
lemma MimeRun.getMimeType (hrun : MimeRun hash calls h) (default : Bytes) {pre ext : Bytes} (hext : ext ≠ [])
    (hdot : dot ∉ ext) :
    h.getMimeType hash default (some (pre ++ dot :: ext)) =
      some ((((additions calls).find? (·.1 == ext)).map Prod.snd).getD default) := by
  obtain ⟨L, hf, hw⟩ := hrun.filed
  obtain ⟨r, hfind, hr⟩ := hf.hashFind (Nat.mod_lt (hash ext) (show 0 < mimeHashtableSize by decide)) hext
  rw [hw.find hext] at hr
  obtain ⟨c, name, hname⟩ : ∃ c name, pre ++ dot :: ext = c :: name :=
    List.exists_cons_of_ne_nil (by simp)
  have hextn := extension_append pre hdot
  obtain ⟨d, ext, rfl⟩ := List.exists_cons_of_ne_nil hext
  rw [hname] at hextn ⊢
  simp only [HashHeap.getMimeType, hextn, hfind, Option.map_some, ← hr]
  cases r <;> rfl

omit [DecidableEq A] in
/-- A file name without one is not looked up. -/
lemma getMimeType_default (h : HashHeap A) (hash : Bytes → ℕ) (default : Bytes) {name : Bytes}
    (hname : dot ∉ name ∨ ∃ pre, name = pre ++ [dot]) :
    h.getMimeType hash default (some name) = some default := by
  have hextn : extension name = none ∨ extension name = some [] := by
    rcases hname with hdot | ⟨pre, rfl⟩
    · exact .inl (if_neg (by simpa using hdot))
    · exact .inr (extension_append pre List.not_mem_nil)
  cases name with
  | nil => rfl
  | cons c name => rcases hextn with hextn | hextn <;> simp only [HashHeap.getMimeType, hextn]

/-- No two nodes of the table have the same key. -/
lemma MimeRun.node_inj (hrun : MimeRun hash calls h) (hi : i < mimeHashtableSize) (hj : j < mimeHashtableSize)
    (ha : h.node i m = some a) (hb : h.node j n = some b) (hkey : h.key a = h.key b) : i = j ∧ m = n := by
  obtain ⟨L, hf, hw⟩ := hrun.filed
  rw [HashHeap.node, Filed.node_eq (hf.holds.seg i)] at ha
  rw [HashHeap.node, Filed.node_eq (hf.holds.seg j)] at hb
  have hbucket : ∀ k < mimeHashtableSize, ∀ l : ℕ, ∀ c, (L k)[l]? = some c →
      hash (h.key c) % mimeHashtableSize = k := by
    intro k hk l c hc
    apply hw.own k hk (h.entry c)
    rw [Filed.view_getD hk]
    exact List.mem_map_of_mem (List.mem_of_getElem? hc)
  obtain rfl : i = j := by rw [← hbucket i hi m a ha, ← hbucket j hj n b hb, hkey]
  refine ⟨rfl, ?_⟩
  have hnodup := hw.nodup i hi
  rw [Filed.view_getD hi, List.map_map] at hnodup
  have hlt : m < ((L i).map (Prod.fst ∘ h.entry)).length := by
    have := (List.getElem?_eq_some_iff.1 ha).1
    simpa using this
  refine (List.getElem?_inj hlt hnodup).1 ?_
  rw [List.getElem?_map, List.getElem?_map, ha, hb]
  simpa [HashHeap.entry] using hkey

/-- The table is a map in which the first addition since the last dump counts, whatever the hash function is:
a file name has the type that its extension was added with, or the default type. No extension is in the
table twice, and no call that there is memory for fails. -/
theorem mimeTable_firstWins (hrun : MimeRun hash calls h) :
    (∀ default pre ext, ext ≠ [] → dot ∉ ext → h.getMimeType hash default (some (pre ++ dot :: ext)) =
      some ((((additions calls).find? (·.1 == ext)).map Prod.snd).getD default)) ∧
    (∀ default name, dot ∉ name ∨ (∃ pre, name = pre ++ [dot]) →
      h.getMimeType hash default (some name) = some default) ∧
    (∀ i < mimeHashtableSize, ∀ j < mimeHashtableSize, ∀ m n a b, h.node i m = some a → h.node j n = some b →
      h.key a = h.key b → i = j ∧ m = n) ∧
    (∀ ext type a, ext ≠ [] → type ≠ [] → ∃ h', h.addMimeType hash ⟨some a, true, true⟩ ext type = some h') ∧
    ∃ h', h.dumpMime = some h' := by
  obtain ⟨L, hf, -⟩ := hrun.filed
  obtain ⟨h', hdump, -⟩ := hf.dumpMime
  exact ⟨fun default pre ext => hrun.getMimeType default,
    fun default name => getMimeType_default h hash default,
    fun i hi j hj m n a b => hrun.node_inj hi hj,
    fun ext type a hext htype => hf.exists_add hash hext htype a, h', hdump⟩

/-- Two extensions of the same hash value, and one of them added once more. -/
theorem mimeTable_firstWins_collision :
    ∃ h : HashHeap ℕ, MimeRun (fun _ => 0) [.add [104] [49], .add [105] [50], .add [104] [51]] h ∧
      h.getMimeType (fun _ => 0) [48] (some [97, 46, 104]) = some [49] := by
  obtain ⟨h₁, hrun₁⟩ := (MimeRun.start : MimeRun (A := ℕ) (fun _ => 0) [] .empty).exists_add
    (show ([104] : Bytes) ≠ [] by simp) (show ([49] : Bytes) ≠ [] by simp)
  obtain ⟨h₂, hrun₂⟩ := hrun₁.exists_add (show ([105] : Bytes) ≠ [] by simp) (show ([50] : Bytes) ≠ [] by simp)
  obtain ⟨h₃, hrun₃⟩ := hrun₂.exists_add (show ([104] : Bytes) ≠ [] by simp) (show ([51] : Bytes) ≠ [] by simp)
  exact ⟨h₃, hrun₃, (mimeTable_firstWins hrun₃).1 [48] [97] [104] (by simp) (by decide)⟩

end Run

end Boa
