import Boa.Calls
import Boa.Flight

/-! The environment of a CGI script: what the header lines of a client put into it, and what
they cannot reach. -/
namespace Boa
open Memory History

/-- The name of an entry begins with `HTTP_`. -/
def isHttp (e : Bytes) : Bool := (text "HTTP_").isPrefixOf e

lemma isHttp_envGenExtra (key value : Bytes) : isHttp (envGenExtra key value true) = true := by
  unfold isHttp envGenExtra
  rw [if_pos rfl, List.append_assoc, List.append_assoc, List.isPrefixOf_iff_prefix]
  exact List.prefix_append _ _

/-- From `c` to `d` the entries `es` were added to the array, which keeps to its bounds. -/
structure Added (c d : Request) (es : List Bytes) : Prop where
  index : d.cgiEnvIndex = c.cgiEnvIndex + es.length
  cells : ∀ i, d.envCell i =
    if c.cgiEnvIndex ≤ i ∧ i < d.cgiEnvIndex then es[i - c.cgiEnvIndex]? else c.envCell i
  room : c.cgiEnvIndex ≤ cgiEnvMax → d.cgiEnvIndex ≤ cgiEnvMax

namespace Added

variable {c d e : Request} {es es' : List Bytes}

lemma of_eq (he : d.cgiEnv = c.cgiEnv) (hi : d.cgiEnvIndex = c.cgiEnvIndex) : Added c d [] := by
  refine ⟨by simpa using hi, fun i => ?_, fun h => hi ▸ h⟩
  rw [if_neg (by omega)]
  unfold Request.envCell
  rw [he]

lemma refl (c : Request) : Added c c [] := of_eq rfl rfl

lemma trans (h : Added c d es) (h' : Added d e es') : Added c e (es ++ es') := by
  have h1 := h.index
  have h2 := h'.index
  refine ⟨by rw [List.length_append]; omega, fun i => ?_, fun hr => h'.room (h.room hr)⟩
  rw [h'.cells]
  by_cases hi : d.cgiEnvIndex ≤ i ∧ i < e.cgiEnvIndex
  · rw [if_pos hi, if_pos (by omega), List.getElem?_append_right (by omega)]
    congr 1
    omega
  · rw [if_neg hi, h.cells]
    by_cases hj : c.cgiEnvIndex ≤ i ∧ i < d.cgiEnvIndex
    · rw [if_pos hj, if_pos (by omega), List.getElem?_append_left (by omega)]
    · rw [if_neg hj, if_neg (by omega)]

/-- The fields besides the array do not matter. -/
lemma congr {c' : Request} (h : Added c d es) (he : c'.cgiEnv = c.cgiEnv)
    (hi : c'.cgiEnvIndex = c.cgiEnvIndex) : Added c' d es := (of_eq he.symm hi.symm).trans h

end Added

/-- The value that a header line gives for a name. -/
def lineValue (name line : Bytes) : Option Bytes :=
  match line.dropWhile (· ≠ colon) with
  | [] => none
  | _ :: v =>
    let value := v.dropWhile (fun b => b = space ∨ b = tab)
    if toUpper (line.takeWhile (· ≠ colon)) = name ∧ value ≠ [] then some value else none

namespace Request

lemma addCgiEnv_added (c : Request) (key value : Bytes) (http : Bool) :
    ((c.addCgiEnv key value http).2 = true ∧
      Added c (c.addCgiEnv key value http).1 [envGenExtra key value http]) ∨
    ((c.addCgiEnv key value http).2 = false ∧ (c.addCgiEnv key value http).1 = c) := by
  unfold addCgiEnv
  split_ifs with hroom
  · refine .inl ⟨rfl, rfl, fun i => ?_, fun _ => hroom⟩
    simp only [envCell, getD_store, List.length_singleton]
    split_ifs with hi
    · obtain rfl : i = c.cgiEnvIndex := by omega
      simp
    · rfl
  · exact .inr ⟨rfl, rfl⟩

/-- A line adds entries for the client only. -/
def AddsHttp (c d : Request) : Prop := ∃ es, Added c d es ∧ ∀ e ∈ es, isHttp e

lemma AddsHttp.of_eq {c d : Request} (he : d.cgiEnv = c.cgiEnv) (hi : d.cgiEnvIndex = c.cgiEnvIndex) :
    AddsHttp c d := ⟨[], .of_eq he hi, fun _ h => absurd h List.not_mem_nil⟩

lemma AddsHttp.trans {c d e : Request} (h : AddsHttp c d) (h' : AddsHttp d e) : AddsHttp c e := by
  obtain ⟨es, ha, hes⟩ := h
  obtain ⟨es', ha', hes'⟩ := h'
  exact ⟨es ++ es', ha.trans ha', fun x hx => (List.mem_append.mp hx).elim (hes x) (hes' x)⟩

lemma addCgiEnv_addsHttp (c : Request) (key value : Bytes) :
    AddsHttp c (c.addCgiEnv key value true).1 := by
  rcases addCgiEnv_added c key value true with ⟨-, h⟩ | ⟨-, h⟩
  · exact ⟨_, h, List.forall_mem_singleton.mpr (isHttp_envGenExtra key value)⟩
  · rw [h]
    exact .of_eq rfl rfl

/-- What a line leaves of the two fields that end up in the environment. -/
structure KeepsContent (c d : Request) (key value : Bytes) : Prop where
  type : d.contentType = c.contentType.or (if key = text "CONTENT_TYPE" then some value else none)
  length : d.contentLength = c.contentLength.or (if key = text "CONTENT_LENGTH" then some value else none)

lemma or_of_not_first {o : Option Bytes} {p : Prop} [Decidable p] {v : Bytes} (h : ¬ (p ∧ o = none)) :
    o = o.or (if p then some v else none) := by
  cases o with
  | some x => rfl
  | none => rw [if_neg fun hp => h ⟨hp, rfl⟩, Option.or_none]

/-- A line that is for neither field, or for one that has its value. -/
lemma KeepsContent.of_eq {c d : Request} {key value : Bytes} (ht : d.contentType = c.contentType)
    (hl : d.contentLength = c.contentLength) (h1 : ¬ (key = text "CONTENT_TYPE" ∧ c.contentType = none))
    (h2 : ¬ (key = text "CONTENT_LENGTH" ∧ c.contentLength = none)) : KeepsContent c d key value :=
  ⟨ht.trans (or_of_not_first h1), hl.trans (or_of_not_first h2)⟩

lemma addCgiEnv_content (c : Request) (key value : Bytes) (http : Bool) :
    (c.addCgiEnv key value http).1.contentType = c.contentType ∧
      (c.addCgiEnv key value http).1.contentLength = c.contentLength := by
  unfold addCgiEnv
  split_ifs <;> exact ⟨rfl, rfl⟩

lemma rangeOption_env (env : Env) (c : Request) (value : Bytes) :
    AddsHttp c (c.rangeOption env value).1 ∧ (c.rangeOption env value).1.contentType = c.contentType ∧
      (c.rangeOption env value).1.contentLength = c.contentLength := by
  unfold rangeOption
  split
  · exact ⟨.of_eq rfl rfl, rfl, rfl⟩
  · obtain ⟨rs, n, he, -⟩ := rangeParse_spec c value
    split
    · next d hd =>
      rw [hd] at he
      obtain rfl : d = _ := he
      obtain ⟨o, code, href, -⟩ := sendRInvalidRange_refused env { c with ranges := rs, numranges := n }
      rw [href]
      exact ⟨.of_eq rfl rfl, rfl, rfl⟩
    · next d hd =>
      rw [hd] at he
      obtain rfl : d = _ := he
      exact ⟨.of_eq rfl rfl, rfl, rfl⟩

/-- The `switch` gives each of the two fields its first value, and adds entries for the client only. -/
lemma optionSwitch_env (env : Env) (c : Request) (key value : Bytes) :
    AddsHttp c (c.optionSwitch env key value).1 ∧
      KeepsContent c (c.optionSwitch env key value).1 key value := by
  have hne : text "CONTENT_TYPE" ≠ text "CONTENT_LENGTH" := by decide +kernel
  unfold optionSwitch
  by_cases ha : key = text "ACCEPT"
  · rw [if_pos ha]
    refine ⟨.of_eq rfl rfl, .of_eq rfl rfl (fun h => ?_) fun h => ?_⟩
    · exact absurd (ha.symm.trans h.1) (by decide +kernel)
    · exact absurd (ha.symm.trans h.1) (by decide +kernel)
  rw [if_neg ha]
  by_cases ht : key = text "CONTENT_TYPE" ∧ c.contentType = none
  · rw [if_pos ht]
    refine ⟨.of_eq rfl rfl, ?_, or_of_not_first fun h => hne (ht.1.symm.trans h.1)⟩
    rw [ht.2, if_pos ht.1]
    rfl
  rw [if_neg ht]
  by_cases hl : key = text "CONTENT_LENGTH" ∧ c.contentLength = none
  · rw [if_pos hl]
    refine ⟨.of_eq rfl rfl, or_of_not_first fun h => hne (h.1.symm.trans hl.1), ?_⟩
    rw [hl.2, if_pos hl.1]
    rfl
  rw [if_neg hl]
  have hkeep : ∀ d : Request, AddsHttp c d → d.contentType = c.contentType → d.contentLength = c.contentLength →
      AddsHttp c d ∧ KeepsContent c d key value := fun d h1 h2 h3 => ⟨h1, .of_eq h2 h3 ht hl⟩
  split_ifs
  · exact hkeep _ (.of_eq rfl rfl) rfl rfl
  · exact hkeep _ (.of_eq rfl rfl) rfl rfl
  · exact hkeep _ (.of_eq rfl rfl) rfl rfl
  · exact hkeep _ (.of_eq rfl rfl) rfl rfl
  · have hadd := addCgiEnv_addsHttp { c with headerReferer := some value } (text "REFERER") value
    have hcont := addCgiEnv_content { c with headerReferer := some value } (text "REFERER") value true
    have hadd : AddsHttp c _ := (AddsHttp.of_eq rfl rfl : AddsHttp c { c with headerReferer := some value }).trans hadd
    split
    · next d hd =>
      rw [hd] at hadd hcont
      exact hkeep d hadd hcont.1 hcont.2
    · next d hd =>
      rw [hd] at hadd hcont
      exact hkeep d hadd hcont.1 hcont.2
  · obtain ⟨h1, h2, h3⟩ := rangeOption_env env c value
    exact hkeep _ h1 h2 h3
  · have hadd := addCgiEnv_addsHttp { c with headerUserAgent := some value } (text "USER_AGENT") value
    have hcont := addCgiEnv_content { c with headerUserAgent := some value } (text "USER_AGENT") value true
    exact hkeep _ ((AddsHttp.of_eq rfl rfl : AddsHttp c { c with headerUserAgent := some value }).trans hadd)
      hcont.1 hcont.2
  · exact hkeep _ (.of_eq rfl rfl) rfl rfl
  · exact hkeep _ (.of_eq rfl rfl) rfl rfl

/-- One header line. -/
lemma processOptionLine_env (env : Env) (c : Request) :
    AddsHttp c (c.processOptionLine env).1 ∧
      (c.processOptionLine env).1.contentType =
        c.contentType.or (lineValue (text "CONTENT_TYPE") c.lineAt) ∧
      (c.processOptionLine env).1.contentLength =
        c.contentLength.or (lineValue (text "CONTENT_LENGTH") c.lineAt) := by
  have hlog : AddsHttp c (c.log (.optionLine c.lineAt)) := .of_eq rfl rfl
  unfold processOptionLine lineValue
  dsimp only
  cases hline : c.lineAt.dropWhile (· ≠ colon) with
  | nil => exact ⟨hlog, (Option.or_none).symm, (Option.or_none).symm⟩
  | cons x v =>
    dsimp only
    by_cases hvalue : v.dropWhile (fun b => b = space ∨ b = tab) = []
    · rw [if_pos hvalue, if_neg fun h => h.2 hvalue, if_neg fun h => h.2 hvalue]
      exact ⟨hlog, (Option.or_none).symm, (Option.or_none).symm⟩
    · rw [if_neg hvalue]
      generalize hkey : toUpper (c.lineAt.takeWhile (· ≠ colon)) = key
      obtain ⟨hadd, htype, hlen⟩ := optionSwitch_env env (c.log (.optionLine c.lineAt)) key
        (v.dropWhile (fun b => b = space ∨ b = tab))
      have hadd := hlog.trans hadd
      have hand : ∀ p : Prop, (p ∧ v.dropWhile (fun b => decide (b = space ∨ b = tab)) ≠ []) = p :=
        fun p => propext ⟨fun h => h.1, fun h => ⟨h, hvalue⟩⟩
      simp only [hand]
      split
      · next d ok hd =>
        rw [hd] at hadd htype hlen
        exact ⟨hadd, htype, hlen⟩
      · next d hd =>
        rw [hd] at hadd htype hlen
        obtain ⟨h1, h2⟩ := addCgiEnv_content d key (v.dropWhile (fun b => b = space ∨ b = tab)) true
        exact ⟨hadd.trans (addCgiEnv_addsHttp d _ _), h1.trans htype, h2.trans hlen⟩

end Request

end Boa
