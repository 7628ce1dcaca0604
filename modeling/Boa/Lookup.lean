import Boa.Chains
import Boa.Delivery
import Boa.Tables

/-! The alias that a URI is found under: by hash, and by a scan of all aliases. -/
namespace Boa
open Memory Chains

/-- The chains after the `add_alias` calls for `as`, in this order. -/
def addAliases (as : List Alias) : Option (List (List Alias)) :=
  as.foldlM (fun t a => addAlias t a.fakename a.realname a.type) (List.replicate aliasHashtableSize [])

/-- The fake name is the start of the URI, up to a border between two components. -/
def Alias.Covers (a : Alias) (uri : Bytes) : Prop :=
  ∃ rest, uri = a.fakename.val ++ rest ∧
    (a.fakename.val.getLast? = some slash ∨ rest = [] ∨ rest.head? = some slash)

/-- The answer of a scan: the first alias that covers the URI, nothing if there is none. -/
def Scanned (as : List Alias) (uri : Bytes) : Option Alias → Prop
  | some a => ∃ pre post, as = pre ++ a :: post ∧ a.Covers uri ∧ ∀ b ∈ pre, ¬ b.Covers uri
  | none => ∀ a ∈ as, ¬ a.Covers uri

/-- The first alias that covers the URI is for `/`, and the URI has another chain. -/
def RootHidden (as : List Alias) (uri : Bytes) : Prop :=
  (∃ pre a post, as = pre ++ a :: post ∧ a.fakename.val = [slash] ∧ a.Covers uri ∧
      ∀ b ∈ pre, ¬ b.Covers uri) ∧
    getAliasHashValue uri ≠ getAliasHashValue [slash]

lemma Alias.matchesUri_iff (a : Alias) (uri : Bytes) : a.matchesUri uri = true ↔ a.Covers uri := by
  have hlast : a.fakename.val.getLastD 0 = slash ↔ a.fakename.val.getLast? = some slash := by
    obtain ⟨b, s, h⟩ := List.exists_cons_of_ne_nil a.fake_ne
    rw [h, List.getLastD_eq_getLast?, List.getLast?_cons, Option.getD_some, Option.some_inj]
  unfold matchesUri Covers
  rw [Bool.and_eq_true, Bool.or_eq_true, beq_iff_eq, hlast, List.isPrefixOf_iff_prefix]
  constructor
  · rintro ⟨⟨rest, rfl⟩, h⟩
    rw [List.drop_left] at h
    refine ⟨rest, rfl, h.imp_right fun h => ?_⟩
    cases rest with
    | nil => exact .inl rfl
    | cons b rest => exact .inr (congrArg some (by simpa using h))
  · rintro ⟨rest, rfl, h⟩
    rw [List.drop_left]
    refine ⟨List.prefix_append _ _, h.imp_right fun h => ?_⟩
    cases rest with
    | nil => rfl
    | cons b rest => simpa using h

lemma scanned_iff {as : List Alias} {uri : Bytes} {o : Option Alias} :
    Scanned as uri o ↔ o = as.find? (·.matchesUri uri) := by
  have hnot : ∀ b : Alias, (!b.matchesUri uri) = true ↔ ¬ b.Covers uri := by
    intro b
    rw [← Alias.matchesUri_iff, Bool.not_eq_true', Bool.not_eq_true]
  cases o with
  | none =>
    rw [eq_comm, List.find?_eq_none]
    simp only [Scanned, Alias.matchesUri_iff]
  | some a =>
    rw [eq_comm, List.find?_eq_some_iff_append]
    simp only [Scanned, Alias.matchesUri_iff, hnot]
    constructor
    · rintro ⟨pre, post, h, hc, hpre⟩
      exact ⟨hc, pre, post, h, hpre⟩
    · rintro ⟨hc, pre, post, h, hpre⟩
      exact ⟨pre, post, h, hc, hpre⟩

/-- The chain of a name: what stands before its second `/` decides. -/
lemma getAliasHashValue_congr {c : UInt8} {s s' : Bytes}
    (h : s.takeWhile (· ≠ slash) = s'.takeWhile (· ≠ slash)) :
    getAliasHashValue (c :: s) = getAliasHashValue (c :: s') := by
  simp only [getAliasHashValue, h]

/-- A name that covers a URI is in the chain of the URI, unless it is `/`. -/
lemma Alias.Covers.hash_eq {a : Alias} {uri : Bytes} (h : a.Covers uri)
    (hslash : a.fakename.val.head? = some slash) (hroot : a.fakename.val ≠ [slash]) :
    getAliasHashValue a.fakename.val = getAliasHashValue uri := by
  obtain ⟨rest, rfl, hrest⟩ := h
  cases hname : a.fakename.val with
  | nil => exact absurd hname a.fake_ne
  | cons c s =>
    rw [hname] at hroot hslash hrest
    obtain rfl : c = slash := by simpa using hslash
    have hs : s ≠ [] := fun h => hroot (by rw [h])
    rw [List.cons_append]
    apply getAliasHashValue_congr
    rw [List.takeWhile_append]
    split_ifs with hlen
    · -- the name is one component, and the URI goes on with the next
      have hall : s.takeWhile (· ≠ slash) = s := (List.takeWhile_prefix _).eq_of_length hlen
      have hin : slash ∉ s := by
        intro hin
        simpa using List.takeWhile_eq_self_iff.mp hall slash hin
      rw [hall]
      obtain hlast | rfl | hhead := hrest
      · rw [List.getLast?_cons_of_ne_nil hs] at hlast
        exact absurd (List.mem_of_getLast? hlast) hin
      · simp
      · obtain ⟨rest, rfl⟩ : ∃ r, rest = slash :: r := by
          cases rest with
          | nil => simp at hhead
          | cons b r => exact ⟨r, by rw [show b = slash by simpa using hhead]⟩
        simp
    · rfl

lemma getAliasHashValue_lt (file : Bytes) : getAliasHashValue file < aliasHashtableSize := by
  cases file with
  | nil => exact Nat.zero_lt_succ _
  | cons c s => exact Nat.mod_lt _ (Nat.zero_lt_succ _)

/-- The chain and the name that `add_alias` sees. -/
def Alias.chain (a : Alias) : ℕ := getAliasHashValue a.fakename.val

def Alias.name (a : Alias) : Bytes := a.fakename.val

lemma addAlias_indexes {t u : List (List Alias)} {as : List Alias} {a : Alias}
    (h : addAlias t a.fakename a.realname a.type = some u) (ht : Indexes Alias.chain Alias.name as t)
    (hlen : t.length = aliasHashtableSize) :
    Indexes Alias.chain Alias.name (as ++ [a]) u ∧ u.length = aliasHashtableSize := by
  unfold addAlias at h
  rw [dif_pos ⟨a.fake_ne, a.real_ne⟩] at h
  dsimp only at h
  split_ifs at h with hdup
  · cases h
    obtain ⟨b, hb, hname⟩ := List.any_eq_true.mp hdup
    exact ⟨ht.skip ⟨b, List.mem_of_mem_dropLast hb, beq_iff_eq.mp hname⟩, hlen⟩
  · cases h
    exact ⟨ht.put, (length_put t a.chain a).trans hlen⟩

lemma addAliases_indexes {as : List Alias} {t : List (List Alias)} (h : addAliases as = some t) :
    Indexes Alias.chain Alias.name as t ∧ t.length = aliasHashtableSize := by
  induction as using List.reverseRecOn generalizing t with
  | nil =>
    cases h
    exact ⟨indexes_empty _, List.length_replicate⟩
  | append_singleton as a ih =>
    simp only [addAliases, List.foldlM_append, List.foldlM_cons, List.foldlM_nil,
      Option.bind_eq_bind, Option.bind_eq_some_iff] at h
    obtain ⟨s, hs, u, hu, he⟩ := h
    cases he
    obtain ⟨hind, hlen⟩ := ih hs
    exact addAlias_indexes hu hind hlen

/-- The calls end with a table: no name is empty. -/
lemma addAliases_isSome (as : List Alias) : (addAliases as).isSome := by
  induction as using List.reverseRecOn with
  | nil => rfl
  | append_singleton as a ih =>
    obtain ⟨t, ht⟩ := Option.isSome_iff_exists.mp ih
    unfold addAliases at ht ⊢
    rw [List.foldlM_append, ht]
    simp only [List.foldlM_cons, List.foldlM_nil, Option.bind_eq_bind, Option.bind_some, addAlias]
    rw [dif_pos ⟨a.fake_ne, a.real_ne⟩]
    split_ifs <;> rfl

/-- The lookup by hash sees the aliases of one chain. -/
lemma findAlias_eq {as : List Alias} {t : List (List Alias)} (h : addAliases as = some t) (cfg : Config)
    (uri : Bytes) : findAlias { cfg with aliasHashtable := t } uri =
      as.find? fun a => a.chain == getAliasHashValue uri && a.matchesUri uri := by
  obtain ⟨hind, hlen⟩ := addAliases_indexes h
  have hlt : getAliasHashValue uri < t.length := hlen ▸ getAliasHashValue_lt uri
  have hname (a : Alias) : a.matchesUri uri = (a.fakename.val.isPrefixOf uri && (a.fakename.val.getLastD 0 == slash ||
      (uri.drop a.fakename.val.length).head?.all (· == slash))) := by
    unfold Alias.matchesUri
    cases uri.drop a.fakename.val.length <;> rfl
  unfold findAlias Config.aliasBucket
  simp only [hname]
  exact hind _ hlt fun name => name.isPrefixOf uri && (name.getLastD 0 == slash ||
    (uri.drop name.length).head?.all (· == slash))

/-- The lookup by hash finds what a scan of all aliases finds, unless that is an alias for `/`
that stands in another chain than the URI. -/
theorem findAlias_scanned_iff {as : List Alias} {t : List (List Alias)} (h : addAliases as = some t)
    (hslash : ∀ a ∈ as, a.fakename.val.head? = some slash) (cfg : Config) (uri : Bytes) :
    Scanned as uri (findAlias { cfg with aliasHashtable := t } uri) ↔ ¬ RootHidden as uri := by
  rw [scanned_iff, findAlias_eq h, find?_and_eq_iff]
  constructor
  · rintro hall ⟨⟨pre, a, post, has, hroot, hcov, hpre⟩, hne⟩
    have hfind : some a = as.find? (·.matchesUri uri) := scanned_iff.mp ⟨pre, post, has, hcov, hpre⟩
    have hchain := beq_iff_eq.mp (hall a hfind.symm)
    rw [Alias.chain, hroot] at hchain
    exact hne hchain.symm
  · intro hnot a hfind
    obtain ⟨pre, post, has, hcov, hpre⟩ : Scanned as uri (some a) := scanned_iff.mpr hfind.symm
    have hmem : a ∈ as := by
      rw [has]
      simp
    rw [beq_iff_eq]
    by_cases hroot : a.fakename.val = [slash]
    · by_contra hne
      refine hnot ⟨⟨pre, a, post, has, hroot, hcov, hpre⟩, fun he => hne ?_⟩
      rw [Alias.chain, hroot, he]
    · exact hcov.hash_eq (hslash a hmem) hroot

/-- An alias for a directory, and one for the whole server. -/
def dirAlias : Alias := ⟨confText "/a" text_a, confText "/x" text_x, .alias, confText_a_ne, confText_x_ne⟩

def rootAlias : Alias := ⟨confText "/" (by decide +kernel), confText "http://h/" (by decide +kernel),
  .redirect, by decide +kernel, by decide +kernel⟩

theorem findAlias_scanned_dir : ∃ t, addAliases [dirAlias] = some t ∧
    Scanned [dirAlias] (text "/a/b") (findAlias { tinyConfig with aliasHashtable := t } (text "/a/b")) := by
  obtain ⟨t, ht⟩ := Option.isSome_iff_exists.mp (addAliases_isSome [dirAlias])
  refine ⟨t, ht, (findAlias_scanned_iff ht (by decide +kernel) tinyConfig (text "/a/b")).mpr ?_⟩
  rintro ⟨⟨pre, a, post, has, hroot, -⟩, -⟩
  have hmem : a ∈ [dirAlias] := by
    rw [has]
    simp
  rw [List.mem_singleton.mp hmem] at hroot
  exact absurd hroot (by decide +kernel)

/-- A redirect of the whole server is not found for `/x`. -/
theorem findAlias_misses_root : ∃ t, addAliases [rootAlias] = some t ∧
    (∀ a ∈ [rootAlias], a.fakename.val.head? = some slash) ∧
    findAlias { tinyConfig with aliasHashtable := t } (text "/x") = none ∧
    ¬ Scanned [rootAlias] (text "/x") (findAlias { tinyConfig with aliasHashtable := t } (text "/x")) := by
  obtain ⟨t, ht⟩ := Option.isSome_iff_exists.mp (addAliases_isSome [rootAlias])
  have hnone : findAlias { tinyConfig with aliasHashtable := t } (text "/x") = none := by
    have hchain : (rootAlias.chain == getAliasHashValue (text "/x")) = false := by decide +kernel
    rw [findAlias_eq ht, List.find?_cons_of_neg (by simp [hchain]), List.find?_nil]
  refine ⟨t, ht, by decide +kernel, hnone, fun hs => ?_⟩
  rw [hnone] at hs
  exact hs rootAlias (List.mem_singleton.mpr rfl)
    ((Alias.matchesUri_iff _ _).mp (by decide +kernel))

end Boa
