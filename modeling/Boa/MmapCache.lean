import Boa.Probe

/-! The table of file mappings of mmap_cache.c and its account over any sequence
of calls. -/
namespace Boa

def mmapListSize : ℕ := 256
def mmapListMask : ℕ := 255
def mmapListUseMax : ℤ := 128

/-- What `find_mmap` reads of a `struct stat`. -/
structure MmapStat where
  dev : ℕ
  ino : ℕ
  size : ℤ
  deriving DecidableEq

/-- `struct mmap_entry`; a mapping is named by its address. -/
structure MmapEntry where
  dev : ℕ := 0
  ino : ℕ := 0
  mmap : ℕ := 0
  useCount : ℤ := 0
  len : ℤ := 0

/-- The static table and its count of used entries. -/
structure MmapCache where
  list : Fin mmapListSize → MmapEntry := fun _ => {}
  entriesUsed : ℤ := 0

lemma and_mmapListMask (k : ℕ) : k &&& mmapListMask = k % mmapListSize :=
  Nat.and_two_pow_sub_one_eq_mod k 8

def mmapListNext (i : Fin mmapListSize) : Fin mmapListSize :=
  ⟨(i.val + 1) &&& mmapListMask, by rw [and_mmapListMask]; exact Nat.mod_lt _ (by decide)⟩

def mmapListHash (s : MmapStat) : Fin mmapListSize :=
  ⟨s.ino &&& mmapListMask, by rw [and_mmapListMask]; exact Nat.mod_lt _ (by decide)⟩

def MmapEntry.holds (e : MmapEntry) (s : MmapStat) : Bool :=
  e.dev == s.dev && e.ino == s.ino && e.len == s.size

/-- Where the probe loop stops. -/
inductive MmapSlot
  | old (i : Fin mmapListSize)
  | free (i : Fin mmapListSize)

def MmapCache.visit (c : MmapCache) (s : MmapStat) (i : Fin mmapListSize) : Option MmapSlot :=
  if (c.list i).useCount = 0 then some (.free i)
  else if (c.list i).holds s then some (.old i)
  else none

/-- The probe loop of `find_mmap`; `none` is the exit for having looped. After
`mmapListSize` rounds the walk is back at its start. -/
def MmapCache.probe (c : MmapCache) (s : MmapStat) : Option MmapSlot :=
  Probe.scan mmapListNext (c.visit s) (mmapListHash s) mmapListSize (mmapListHash s)

/-- A `munmap` call: address and length. -/
abbrev Unmap := ℕ × ℤ

def MmapCache.set (c : MmapCache) (i : Fin mmapListSize) (e : MmapEntry) : MmapCache :=
  { c with list := Function.update c.list i e }

/-- `find_mmap`, where `mmap` answers `m` and `madvise` succeeds iff `advised`.
The handle returned is the index of the entry. -/
def findMmap (c : MmapCache) (s : MmapStat) (m : Option ℕ) (advised : Bool) :
    MmapCache × Option (Fin mmapListSize) × List Unmap :=
  match c.probe s with
  | none => (c, none, [])
  | some (.old i) =>
    (c.set i { c.list i with useCount := (c.list i).useCount + 1 }, some i, [])
  | some (.free i) =>
    if c.entriesUsed > mmapListUseMax then (c, none, [])
    else match m with
      | none => (c, none, [])
      | some p =>
        if advised then
          ({ c with entriesUsed := c.entriesUsed + 1 }.set i
              { dev := s.dev, ino := s.ino, len := s.size, mmap := p, useCount := 1 }, some i, [])
        else (c, none, [(p, s.size)])

/-- `release_mmap` of the entry at `i`. -/
def releaseMmap (c : MmapCache) (i : Fin mmapListSize) : MmapCache × List Unmap :=
  let e := c.list i
  if e.useCount = 0 then (c, [])
  else
    let c' := c.set i { e with useCount := e.useCount - 1 }
    if e.useCount - 1 = 0 then ({ c' with entriesUsed := c'.entriesUsed - 1 }, [(e.mmap, e.len)])
    else (c', [])

/-- An outstanding result of `find_mmap`: the entry, the file it was asked for
and the mapping it showed when it was returned. -/
structure MmapHandle where
  slot : Fin mmapListSize
  stat : MmapStat
  mmap : ℕ
  deriving DecidableEq

inductive MmapCall
  | find (s : MmapStat) (m : Option ℕ) (advised : Bool)
  | release (h : MmapHandle)

/-- The table, the handles given out and not yet given back, and the `munmap`
calls so far. -/
structure MmapRun where
  cache : MmapCache := {}
  handles : List MmapHandle := []
  unmaps : List Unmap := []

/-- One call; only an outstanding handle can be given back. -/
def MmapRun.step (r : MmapRun) : MmapCall → Option MmapRun
  | .find s m advised =>
    let (c, i, us) := findMmap r.cache s m advised
    let given := i.toList.map fun i => { slot := i, stat := s, mmap := (c.list i).mmap : MmapHandle }
    some { cache := c, handles := given ++ r.handles, unmaps := r.unmaps ++ us }
  | .release h =>
    if h ∈ r.handles then
      let (c, us) := releaseMmap r.cache h.slot
      some { cache := c, handles := r.handles.erase h, unmaps := r.unmaps ++ us }
    else none

def MmapRun.run (r : MmapRun) : List MmapCall → Option MmapRun
  | [] => some r
  | call :: calls => (r.step call).bind fun r' => r'.run calls

/-- The number of outstanding handles on an entry. -/
def MmapRun.held (r : MmapRun) (i : Fin mmapListSize) : ℕ := r.handles.countP (·.slot = i)

/-- The entries in use. -/
def MmapCache.used (c : MmapCache) : Finset (Fin mmapListSize) :=
  Finset.univ.filter fun i => (c.list i).useCount ≠ 0

/-- The entry of a handle is still the one it was given for. -/
def MmapEntry.Shows (e : MmapEntry) (h : MmapHandle) : Prop :=
  e.dev = h.stat.dev ∧ e.ino = h.stat.ino ∧ e.len = h.stat.size ∧ e.mmap = h.mmap

/-- The account between two calls. -/
structure MmapRun.Accounted (r : MmapRun) : Prop where
  counts : ∀ i, (r.cache.list i).useCount = r.held i
  used : r.cache.entriesUsed = r.cache.used.card
  bound : r.cache.entriesUsed ≤ mmapListUseMax + 1
  shows : ∀ h ∈ r.handles, (r.cache.list h.slot).Shows h

/-- The `munmap` calls of a release: the mapping of the entry with its last handle. -/
def MmapRun.lastUnmap (r : MmapRun) (h : MmapHandle) : List Unmap :=
  if r.held h.slot = 1 then [((r.cache.list h.slot).mmap, (r.cache.list h.slot).len)] else []

section Calls

variable {r r' : MmapRun} {c : MmapCache} {s : MmapStat} {i : Fin mmapListSize}

@[simp] lemma MmapCache.list_set (c : MmapCache) (i j : Fin mmapListSize) (e : MmapEntry) :
    (c.set i e).list j = if j = i then e else c.list j := by
  simp [MmapCache.set, Function.update_apply]

@[simp] lemma MmapCache.entriesUsed_set (c : MmapCache) (i : Fin mmapListSize) (e : MmapEntry) :
    (c.set i e).entriesUsed = c.entriesUsed := rfl

lemma MmapCache.mem_used : i ∈ c.used ↔ (c.list i).useCount ≠ 0 := by simp [MmapCache.used]

lemma MmapCache.used_set_old {e : MmapEntry} (hi : i ∈ c.used) (he : e.useCount ≠ 0) :
    (c.set i e).used = c.used := by
  ext j
  by_cases hj : j = i
  · subst hj
    simp [mem_used, he, mem_used.mp hi]
  · simp [mem_used, hj]

lemma MmapCache.used_set_new {e : MmapEntry} (he : e.useCount ≠ 0) :
    (c.set i e).used = insert i c.used := by
  ext j
  by_cases hj : j = i
  · simp [mem_used, hj, he]
  · simp [mem_used, hj]

lemma MmapCache.used_set_free {e : MmapEntry} (he : e.useCount = 0) :
    (c.set i e).used = c.used.erase i := by
  ext j
  by_cases hj : j = i
  · simp [mem_used, hj, he]
  · simp [mem_used, hj]

lemma MmapCache.probe_old (h : c.probe s = some (.old i)) : i ∈ c.used ∧ (c.list i).holds s := by
  obtain ⟨j, hj⟩ := Probe.scan_sound h
  unfold visit at hj
  split_ifs at hj with h0 hs
  · simp at hj
  · obtain rfl : j = i := by simpa using hj
    exact ⟨mem_used.mpr h0, hs⟩

lemma MmapCache.probe_free (h : c.probe s = some (.free i)) : i ∉ c.used := by
  obtain ⟨j, hj⟩ := Probe.scan_sound h
  unfold visit at hj
  split_ifs at hj with h0 hs
  · obtain rfl : j = i := by simpa using hj
    simpa [mem_used] using h0
  · simp at hj

/-- The probe loop ends at an entry as long as one is free. -/
lemma MmapCache.probe_isSome (h : c.used.card < mmapListSize) (s : MmapStat) :
    (c.probe s).isSome := by
  obtain ⟨j, hj⟩ : ∃ j, j ∉ c.used := by
    by_contra hall
    push Not at hall
    have hfull : c.used = Finset.univ := Finset.eq_univ_iff_forall.mpr hall
    simp [hfull] at h
  have hfree : (c.list j).useCount = 0 := by simpa [mem_used] using hj
  apply Probe.scan_isSome (j := j)
  · intro i
    simp [mmapListNext, and_mmapListMask]
  · simp [visit, hfree]

/-- What `find_mmap` can do: give nothing and keep the table (and then it may
have undone its own mapping), share an entry, or fill a free one. -/
lemma findMmap_cases (c : MmapCache) (s : MmapStat) (m : Option ℕ) (advised : Bool) :
    (∃ us, findMmap c s m advised = (c, none, us) ∧
      (us ≠ [] → advised = false ∧ ∃ p, m = some p ∧ us = [(p, s.size)])) ∨
    (∃ i ∈ c.used, (c.list i).holds s ∧ findMmap c s m advised =
      (c.set i { c.list i with useCount := (c.list i).useCount + 1 }, some i, [])) ∨
    (∃ i ∉ c.used, ∃ p, c.entriesUsed ≤ mmapListUseMax ∧ findMmap c s m advised =
      ({ c with entriesUsed := c.entriesUsed + 1 }.set i
        { dev := s.dev, ino := s.ino, len := s.size, mmap := p, useCount := 1 }, some i, [])) := by
  unfold findMmap
  split
  · exact .inl ⟨[], rfl, by simp⟩
  · next i hp =>
    obtain ⟨hu, hs⟩ := MmapCache.probe_old hp
    exact .inr (.inl ⟨i, hu, hs, rfl⟩)
  · next i hp =>
    split
    · exact .inl ⟨[], rfl, by simp⟩
    · next hmax =>
      split
      · exact .inl ⟨[], rfl, by simp⟩
      · next p =>
        cases advised with
        | true => exact .inr (.inr ⟨i, MmapCache.probe_free hp, p, by omega, rfl⟩)
        | false => exact .inl ⟨_, rfl, fun _ => ⟨rfl, p, rfl, rfl⟩⟩

lemma MmapRun.held_pos {h : MmapHandle} (hm : h ∈ r.handles) : 0 < r.held h.slot :=
  List.countP_pos_iff.mpr ⟨h, hm, by simp⟩

lemma MmapRun.held_erase {h : MmapHandle} (hm : h ∈ r.handles) (i : Fin mmapListSize) :
    (r.handles.erase h).countP (·.slot = i) = r.held i - if i = h.slot then 1 else 0 := by
  rw [List.countP_erase]
  by_cases hi : i = h.slot
  · simp [held, hm, hi]
  · simp [held, Ne.symm hi, hi]

/-- What `release_mmap` of an outstanding handle does. -/
lemma releaseMmap_cases (hr : r.Accounted) {h : MmapHandle} (hm : h ∈ r.handles) :
    let e := r.cache.list h.slot
    let c := r.cache.set h.slot { e with useCount := e.useCount - 1 }
    (r.held h.slot = 1 ∧ releaseMmap r.cache h.slot =
      ({ c with entriesUsed := c.entriesUsed - 1 }, [(e.mmap, e.len)])) ∨
    (1 < r.held h.slot ∧ releaseMmap r.cache h.slot = (c, [])) := by
  have hpos := MmapRun.held_pos hm
  have hc := hr.counts h.slot
  simp only [releaseMmap]
  rw [if_neg (by omega)]
  by_cases hone : r.held h.slot = 1
  · exact .inl ⟨hone, by rw [if_pos (by omega)]⟩
  · exact .inr ⟨by omega, by rw [if_neg (by omega)]⟩

lemma MmapRun.Accounted.probe_isSome (hr : r.Accounted) (s : MmapStat) : (r.cache.probe s).isSome := by
  have hu := hr.used
  have hb := hr.bound
  apply MmapCache.probe_isSome
  simp only [mmapListUseMax] at hb
  change r.cache.used.card < 256
  omega

/-- `find_mmap` keeps the account. -/
lemma MmapRun.Accounted.find (hr : r.Accounted) (s : MmapStat) (m : Option ℕ) (advised : Bool)
    (h : r.step (.find s m advised) = some r') : r'.Accounted := by
  obtain ⟨us, hf, -⟩ | ⟨i, hi, hs, hf⟩ | ⟨i, hi, p, hmax, hf⟩ := findMmap_cases r.cache s m advised
  all_goals
    simp only [step, hf, Option.toList, List.map_nil, List.map_cons, List.nil_append,
      List.cons_append, MmapCache.list_set, if_true, Option.some.injEq] at h
    subst h
  · exact ⟨hr.counts, hr.used, hr.bound, hr.shows⟩
  · have hpos : (r.cache.list i).useCount + 1 ≠ 0 := by
      have := hr.counts i
      omega
    simp only [MmapEntry.holds, Bool.and_eq_true, beq_iff_eq] at hs
    refine ⟨fun j => ?_, ?_, hr.bound, fun h hm => ?_⟩
    · by_cases hj : j = i
      · subst hj
        simp [held, hr.counts j]
      · simp [held, hj, Ne.symm hj, hr.counts j]
    · rw [MmapCache.used_set_old hi hpos]
      exact hr.used
    · obtain rfl | hm := List.mem_cons.mp hm
      · simp [MmapEntry.Shows, hs]
      · have hold := hr.shows h hm
        by_cases hj : h.slot = i
        · simpa [MmapEntry.Shows, hj] using hold
        · simpa [hj] using hold
  · have hfree : (r.cache.list i).useCount = 0 := by simpa [MmapCache.mem_used] using hi
    have hnone : r.held i = 0 := by
      have := hr.counts i
      omega
    refine ⟨fun j => ?_, ?_, ?_, fun h hm => ?_⟩
    · by_cases hj : j = i
      · subst hj
        simpa [held] using hnone
      · simp [held, hj, Ne.symm hj, hr.counts j]
    · rw [MmapCache.used_set_new (by simp)]
      have hcard := Finset.card_insert_of_notMem hi
      have hu := hr.used
      simp only [MmapCache.entriesUsed_set]
      change _ = ((insert i r.cache.used).card : ℤ)
      omega
    · simpa using hmax
    · obtain rfl | hm := List.mem_cons.mp hm
      · simp [MmapEntry.Shows]
      · have hj : h.slot ≠ i := by
          intro hj
          have := held_pos hm
          rw [hj] at this
          omega
        simpa [hj] using hr.shows h hm

/-- `release_mmap` of an outstanding handle keeps the account. -/
lemma MmapRun.Accounted.release (hr : r.Accounted) {h : MmapHandle}
    (hstep : r.step (.release h) = some r') : r'.Accounted := by
  simp only [step] at hstep
  split_ifs at hstep with hm
  have hcnt := hr.counts h.slot
  have hpos := held_pos hm
  have herase := held_erase hm
  have hcounts : ∀ j, (if j = h.slot then (r.cache.list h.slot).useCount - 1
      else (r.cache.list j).useCount) = ((r.handles.erase h).countP (·.slot = j) : ℤ) := by
    intro j
    rw [herase j]
    by_cases hj : j = h.slot
    · subst hj
      simp only [if_true]
      omega
    · simp [hj, hr.counts j]
  have hshows : ∀ h' ∈ r.handles.erase h, (if h'.slot = h.slot
      then { r.cache.list h.slot with useCount := (r.cache.list h.slot).useCount - 1 }
      else r.cache.list h'.slot).Shows h' := by
    intro h' hm'
    have hold := hr.shows h' (List.mem_of_mem_erase hm')
    by_cases hj : h'.slot = h.slot
    · simpa [MmapEntry.Shows, hj] using hold
    · simpa [hj] using hold
  have hin : h.slot ∈ r.cache.used := MmapCache.mem_used.mpr (by omega)
  obtain ⟨hone, hf⟩ | ⟨hmany, hf⟩ := releaseMmap_cases hr hm
  all_goals
    simp only [hf, Option.some.injEq] at hstep
    subst hstep
  · refine ⟨fun j => ?_, ?_, ?_, fun h' hm' => ?_⟩
    · simpa [held, apply_ite] using hcounts j
    · have hcard := Finset.card_erase_of_mem hin
      have hne : 0 < r.cache.used.card := Finset.card_pos.mpr ⟨_, hin⟩
      have hu := hr.used
      change r.cache.entriesUsed - 1 = ((r.cache.set h.slot _).used.card : ℤ)
      rw [MmapCache.used_set_free (by simp only; omega)]
      omega
    · have hb := hr.bound
      simp only [MmapCache.entriesUsed_set]
      omega
    · simpa using hshows h' hm'
  · refine ⟨fun j => ?_, ?_, hr.bound, fun h' hm' => ?_⟩
    · simpa [held, apply_ite] using hcounts j
    · rw [MmapCache.used_set_old hin (by simp only; omega)]
      exact hr.used
    · simpa using hshows h' hm'

lemma MmapRun.Accounted.step {call : MmapCall} (hr : r.Accounted) (h : r.step call = some r') :
    r'.Accounted := by
  cases call with
  | find s m advised => exact hr.find s m advised h
  | release hd => exact hr.release h

lemma MmapRun.accounted_init : ({} : MmapRun).Accounted where
  counts := by simp [held]
  used := by simp [MmapCache.used]
  bound := by decide
  shows := by simp

lemma MmapRun.Accounted.run {calls : List MmapCall} (hr : r.Accounted) (h : r.run calls = some r') :
    r'.Accounted := by
  induction calls generalizing r with
  | nil =>
    obtain rfl : r = r' := by simpa [MmapRun.run] using h
    exact hr
  | cons call calls ih =>
    obtain ⟨r₁, h₁, h₂⟩ := Option.bind_eq_some_iff.mp h
    exact ih (hr.step h₁) h₂

/-- A call leaves what a held entry describes alone. -/
lemma MmapRun.Accounted.fields {call : MmapCall} (hr : r.Accounted) (h : r.step call = some r')
    (hi : 0 < r.held i) :
    (r'.cache.list i).dev = (r.cache.list i).dev ∧ (r'.cache.list i).ino = (r.cache.list i).ino ∧
      (r'.cache.list i).len = (r.cache.list i).len ∧
      (r'.cache.list i).mmap = (r.cache.list i).mmap := by
  cases call with
  | find s m advised =>
    obtain ⟨us, hf, -⟩ | ⟨j, hj, -, hf⟩ | ⟨j, hj, p, -, hf⟩ := findMmap_cases r.cache s m advised
    all_goals
      simp only [MmapRun.step, hf, Option.some.injEq] at h
      subst h
    · simp
    · by_cases hij : i = j <;> simp [hij]
    · have hij : i ≠ j := by
        rintro rfl
        have := hr.counts i
        rw [MmapCache.mem_used] at hj
        omega
      simp [hij]
  | release hd =>
    simp only [MmapRun.step] at h
    split_ifs at h with hm
    obtain ⟨-, hf⟩ | ⟨-, hf⟩ := releaseMmap_cases hr hm
    all_goals
      simp only [hf, Option.some.injEq] at h
      subst h
      by_cases hij : i = hd.slot <;> simp [hij]

lemma MmapRun.Accounted.unmaps_release {hd : MmapHandle} (hr : r.Accounted)
    (h : r.step (.release hd) = some r') : r'.unmaps = r.unmaps ++ r.lastUnmap hd := by
  simp only [MmapRun.step] at h
  split_ifs at h with hm
  obtain ⟨hone, hf⟩ | ⟨hmany, hf⟩ := releaseMmap_cases hr hm
  all_goals
    simp only [hf, Option.some.injEq] at h
    subst h
  · simp [lastUnmap, hone]
  · simp [lastUnmap, show r.held hd.slot ≠ 1 by omega]

lemma MmapRun.unmaps_find {m : Option ℕ} {advised : Bool}
    (h : r.step (.find s m advised) = some r') :
    r'.unmaps = r.unmaps ∨ (advised = false ∧ r'.cache = r.cache ∧ r'.handles = r.handles ∧
      ∃ p, m = some p ∧ r'.unmaps = r.unmaps ++ [(p, s.size)]) := by
  obtain ⟨us, hf, hus⟩ | ⟨i, -, -, hf⟩ | ⟨i, -, p, -, hf⟩ := findMmap_cases r.cache s m advised
  all_goals
    simp only [MmapRun.step, hf, Option.some.injEq] at h
    subst h
  · by_cases hnil : us = []
    · exact .inl (by simp [hnil])
    · obtain ⟨ha, p, hp, rfl⟩ := hus hnil
      exact .inr ⟨ha, rfl, by simp, p, hp, rfl⟩
  · exact .inl (by simp)
  · exact .inl (by simp)

end Calls

/-- The account of the mapping table over any sequence of calls. A mapping in
the table goes with its last handle; the only other `munmap` undoes a mapping
that `madvise` refused and that never entered the table. -/
theorem mmapRun_accounting {calls : List MmapCall} {r : MmapRun}
    (h : MmapRun.run {} calls = some r) :
    (∀ i, (r.cache.list i).useCount = r.held i) ∧
    r.cache.entriesUsed = r.cache.used.card ∧
    (∀ hd ∈ r.handles, (r.cache.list hd.slot).Shows hd) ∧
    (∀ s, (r.cache.probe s).isSome) ∧
    (∀ call r' i, r.step call = some r' → 0 < r.held i →
      (r'.cache.list i).dev = (r.cache.list i).dev ∧
      (r'.cache.list i).ino = (r.cache.list i).ino ∧
      (r'.cache.list i).len = (r.cache.list i).len ∧
      (r'.cache.list i).mmap = (r.cache.list i).mmap) ∧
    (∀ hd r', r.step (.release hd) = some r' → r'.unmaps = r.unmaps ++ r.lastUnmap hd) ∧
    (∀ s m advised r', r.step (.find s m advised) = some r' →
      r'.unmaps = r.unmaps ∨ (advised = false ∧ r'.cache = r.cache ∧ r'.handles = r.handles ∧
        ∃ p, m = some p ∧ r'.unmaps = r.unmaps ++ [(p, s.size)])) := by
  have hr : r.Accounted := MmapRun.accounted_init.run h
  refine ⟨hr.counts, hr.used, hr.shows, hr.probe_isSome, ?_, ?_, ?_⟩
  · intro call r' i hs hi
    exact hr.fields hs hi
  · intro hd r' hs
    exact hr.unmaps_release hs
  · intro s m advised r' hs
    exact MmapRun.unmaps_find hs

def sharedStat : MmapStat := ⟨1, 2, 5⟩

/-- Two requests for one file and the release of the first. -/
def sharedMmap : List MmapCall :=
  [.find sharedStat (some 7) true, .find sharedStat none true,
    .release ⟨mmapListHash sharedStat, sharedStat, 7⟩]

theorem mmapRun_accounting_shared : ∃ r, MmapRun.run {} sharedMmap = some r ∧
    r.cache.entriesUsed = r.cache.used.card ∧
    (r.cache.list (mmapListHash sharedStat)).useCount = r.held (mmapListHash sharedStat) ∧
    r.held (mmapListHash sharedStat) = 1 := by
  have hrun : (MmapRun.run {} sharedMmap).isSome := by decide +kernel
  obtain ⟨r, hr⟩ := Option.isSome_iff_exists.mp hrun
  have hone : (MmapRun.run {} sharedMmap).all fun r => r.held (mmapListHash sharedStat) = 1 := by
    decide +kernel
  obtain ⟨hcount, hused, -⟩ := mmapRun_accounting hr
  exact ⟨r, hr, hused, hcount _, by simpa [hr] using hone⟩

/-- With `madvise` failing, `find_mmap` calls `munmap` while no handle is released. -/
theorem munmap_without_release : ¬ ∀ calls r call r', MmapRun.run {} calls = some r →
    r.step call = some r' →
    (r'.unmaps ≠ r.unmaps ↔ ∃ hd, call = .release hd ∧ r.held hd.slot = 1) := by
  intro hall
  have hiff := hall [] {} (.find ⟨1, 2, 5⟩ (some 7) false) _ rfl rfl
  have hcall : ((MmapRun.step {} (.find ⟨1, 2, 5⟩ (some 7) false)).get rfl).unmaps = [(7, 5)] := by
    decide
  obtain ⟨hd, hrel, -⟩ := hiff.mp (by
    intro hnil
    exact absurd (hcall.symm.trans hnil) (by decide))
  exact nomatch hrel

end Boa
