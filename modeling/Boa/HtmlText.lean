import Boa.Entities
import Boa.Indexer
import Boa.Redirect

/-! Text for HTML pages: what `req_write_escape_html` appends to the buffer, compared with
`html_escape_string` of boa_indexer. -/
namespace Boa
open Memory

/-- The four entities. -/
def htmlTable : Entities.Table UInt8 :=
  [(62, text "&gt;"), (60, text "&lt;"), (38, text "&amp;"), (34, text "&quot;")]

/-- A text with its entities replaced. -/
def replaceEntities (s : Bytes) : Bytes := htmlTable.decode 0 s

/-- What `req_write_escape_html` appends to the buffer. -/
def Out.htmlWritten (o : Out) (msg : Bytes) : Bytes :=
  slice (o.reqWriteEscapeHtml msg).buffer o.bufferEnd (o.reqWriteEscapeHtml msg).bufferEnd

/-- What `req_write_escape_html` returns: nothing for -1, or `buffer_end`. -/
def Out.htmlReturn (o : Out) (msg : Bytes) : Option ℕ :=
  if (escapeHtmlLoop (bufferSize - o.bufferEnd) msg).2 ≠ [] then none
  else some (o.reqWriteEscapeHtml msg).bufferEnd

lemma htmlTable_sound : htmlTable.Sound 38 where
  marked := by
    have hall : ∀ e ∈ htmlTable, e.2.head? = some 38 ∧ 38 ∉ e.2.tail := by decide +kernel
    intro e he
    obtain ⟨hhead, htail⟩ := hall e he
    exact ⟨e.2.tail, (List.cons_head?_tail hhead).symm, htail⟩
  apart := by decide +kernel
  named := by decide +kernel

lemma htmlEntity_eq (c : UInt8) : htmlEntity c = htmlTable.write c := by
  simp only [htmlEntity, htmlTable, Entities.Table.write_cons, Entities.Table.write_nil]

lemma htmlEscapeChar_eq : htmlEscapeChar = htmlTable.write := funext htmlEntity_eq

/-- The loop stops in front of a character, and has written what is before it. -/
lemma escapeHtmlLoop_eq (left : ℕ) (s : Bytes) : ∃ done, s = done ++ (escapeHtmlLoop left s).2 ∧
    (escapeHtmlLoop left s).1 = htmlEscapeString done := by
  induction s generalizing left with
  | nil => exact ⟨[], rfl, rfl⟩
  | cons c s ih =>
    by_cases hroom : left < 6
    · have hstop : escapeHtmlLoop left (c :: s) = ([], c :: s) := if_pos hroom
      exact ⟨[], by rw [hstop]; rfl, by rw [hstop]; rfl⟩
    · obtain ⟨done, hs, hw⟩ := ih (left - (htmlEntity c).length)
      have hgo : escapeHtmlLoop left (c :: s) =
          (htmlEntity c ++ (escapeHtmlLoop (left - (htmlEntity c).length) s).1,
            (escapeHtmlLoop (left - (htmlEntity c).length) s).2) := if_neg hroom
      refine ⟨c :: done, ?_, ?_⟩
      · rw [hgo, List.cons_append, ← hs]
      · rw [hgo, hw]
        rfl

lemma htmlWritten_eq (o : Out) (s : Bytes) :
    o.htmlWritten s = (escapeHtmlLoop (bufferSize - o.bufferEnd) s).1 := by
  rw [← slice_append_self o .queued (escapeHtmlLoop (bufferSize - o.bufferEnd) s).1]
  unfold Out.htmlWritten Out.reqWriteEscapeHtml Out.finishEscape
  dsimp only
  split_ifs <;> rfl

lemma htmlReturn_eq_none_iff (o : Out) (s : Bytes) :
    o.htmlReturn s = none ↔ (escapeHtmlLoop (bufferSize - o.bufferEnd) s).2 ≠ [] := by
  unfold Out.htmlReturn
  split_ifs with h <;> simp [h]

lemma dead_of_htmlReturn {o : Out} {s : Bytes} (h : o.htmlReturn s = none) :
    (o.reqWriteEscapeHtml s).status = .dead := by
  unfold Out.reqWriteEscapeHtml Out.finishEscape
  dsimp only
  rw [if_pos ((htmlReturn_eq_none_iff o s).mp h)]

/-- The text that was written, and how it ends. -/
lemma htmlWritten_cases (o : Out) (s : Bytes) : ∃ done rest, s = done ++ rest ∧
    o.htmlWritten s = htmlTable.encode done ∧ (o.htmlReturn s = none ↔ rest ≠ []) := by
  obtain ⟨done, hs, hw⟩ := escapeHtmlLoop_eq (bufferSize - o.bufferEnd) s
  refine ⟨done, _, hs, ?_, htmlReturn_eq_none_iff o s⟩
  rw [htmlWritten_eq, hw, htmlEscapeString, htmlEscapeChar_eq]
  rfl

/-- No markup is appended, every `&` begins an entity, and without the entities it is the text as far
as there was room for it: all of it, as boa_indexer writes it, unless -1 is returned. -/
theorem htmlWritten_safe (o : Out) (s : Bytes) :
    (60 ∉ o.htmlWritten s ∧ 62 ∉ o.htmlWritten s ∧ 34 ∉ o.htmlWritten s) ∧
      (∀ pre post, o.htmlWritten s = pre ++ 38 :: post → ∃ e ∈ htmlTable, e.2 <+: 38 :: post) ∧
      replaceEntities (o.htmlWritten s) <+: s ∧
      (replaceEntities (o.htmlWritten s) = s ↔ o.htmlReturn s ≠ none) ∧
      (o.htmlReturn s = none → (o.reqWriteEscapeHtml s).status = .dead) ∧
      (o.htmlReturn s ≠ none → o.htmlWritten s = htmlEscapeString s) := by
  obtain ⟨done, rest, rfl, hw, hret⟩ := htmlWritten_cases o s
  have hdecode : replaceEntities (o.htmlWritten (done ++ rest)) = done := by
    rw [hw]
    exact Entities.Table.decode_encode htmlTable_sound done
  rw [hdecode]
  refine ⟨?_, ?_, List.prefix_append _ _, ?_, dead_of_htmlReturn, ?_⟩
  · rw [hw]
    refine ⟨?_, ?_, ?_⟩ <;> exact Entities.Table.not_mem_encode (by decide +kernel) (by decide +kernel) _
  · intro pre post heq
    rw [hw] at heq
    exact Entities.Table.mark_starts htmlTable_sound heq
  · rw [ne_eq, hret, not_not]
    exact List.self_eq_append_right
  · intro h
    have hrest : rest = [] := not_not.mp fun hne => h (hret.mpr hne)
    subst hrest
    rw [hw, List.append_nil, htmlEscapeString, htmlEscapeChar_eq]
    rfl

example : replaceEntities (text "a&lt;b&amp;lt;&x") = text "a<b&lt;&x" := by decide +kernel

end Boa
