import Boa.Delivery

/-! What `req_write_escape_http` lets through into a header line. -/
namespace Boa
open Memory

/-- A character that cannot end a header line or a word of it. -/
def Visible (b : UInt8) : Prop := 32 < b.toNat ∧ b.toNat < 127

instance (b : UInt8) : Decidable (Visible b) := inferInstanceAs (Decidable (_ ∧ _))

/-- The room that a character takes; `raw` says that a `%` comes before it. -/
def escapedWidth (raw : Bool) (c : UInt8) : ℕ :=
  if raw = false ∧ c ≠ percent ∧ needsEscape c then 3 else 1

/-- The room that a text takes in its escaped form. -/
def escapedSize : Bool → Bytes → ℕ
  | _, [] => 0
  | raw, c :: s => escapedWidth raw c + escapedSize (decide (c = percent)) s

/-- The text has a `%` right before a character that is not visible, and there is room for the
text up to the `%` and three bytes more. -/
def LeaksRaw (room : ℕ) (url : Bytes) : Prop :=
  ∃ pre b post, url = pre ++ percent :: b :: post ∧ ¬ Visible b ∧
    escapedSize false (pre ++ [percent]) + 3 ≤ room

/-- What `req_write_escape_http` appends to the buffer. -/
def Out.httpWritten (o : Out) (url : Bytes) : Bytes :=
  slice (o.reqWriteEscapeHttp url).buffer o.bufferEnd (o.reqWriteEscapeHttp url).bufferEnd

section Loop

lemma visible_intToHex {x : ℕ} (h : x < 16) : Visible (intToHex x) := by
  have hall : ∀ x < 16, Visible (intToHex x) := by decide +kernel
  exact hall x h

lemma visible_of_not_needsEscape {c : UInt8} (h : ¬ needsEscape c = true) : Visible c := by
  have hall : ∀ c ∈ unescaped, Visible c := by decide +kernel
  unfold needsEscape at h
  simp only [Bool.or_eq_true, decide_eq_true_eq, Bool.not_eq_true', not_or, Bool.not_eq_false] at h
  exact hall c (List.contains_iff_mem.mp h.2)

/-- `LeaksRaw`, with what comes before the text. -/
def LeaksFrom (room : ℕ) (raw : Bool) (url : Bytes) : Prop :=
  (raw = true ∧ 3 ≤ room ∧ ∃ b post, url = b :: post ∧ ¬ Visible b) ∨
    ∃ pre b post, url = pre ++ percent :: b :: post ∧ ¬ Visible b ∧
      escapedSize raw (pre ++ [percent]) + 3 ≤ room

lemma leaksFrom_false {room : ℕ} {url : Bytes} : LeaksFrom room false url ↔ LeaksRaw room url :=
  or_iff_right fun h => Bool.false_ne_true h.1

lemma leaksFrom_nil {room : ℕ} {raw : Bool} : ¬ LeaksFrom room raw [] := by
  rintro (⟨-, -, b, post, heq, -⟩ | ⟨pre, b, post, heq, -⟩)
  · exact List.cons_ne_nil _ _ heq.symm
  · exact List.append_ne_nil_of_right_ne_nil pre (List.cons_ne_nil _ _) heq.symm

lemma one_le_escapedWidth (raw : Bool) (c : UInt8) : 1 ≤ escapedWidth raw c := by
  unfold escapedWidth
  split_ifs <;> omega

lemma escapedWidth_percent (raw : Bool) : escapedWidth raw percent = 1 := if_neg fun h => h.2.1 rfl

lemma leaksFrom_cons {room : ℕ} {raw : Bool} {c : UInt8} {url : Bytes} (hroom : 3 ≤ room) :
    LeaksFrom room raw (c :: url) ↔ (raw = true ∧ ¬ Visible c) ∨
      LeaksFrom (room - escapedWidth raw c) (decide (c = percent)) url := by
  have hwidth := one_le_escapedWidth raw c
  unfold LeaksFrom
  constructor
  · rintro (⟨hraw, -, b, post, heq, hb⟩ | ⟨pre, b, post, heq, hb, hsize⟩)
    · obtain ⟨rfl, -⟩ := List.cons.inj heq
      exact .inl ⟨hraw, hb⟩
    · cases pre with
      | nil =>
        obtain ⟨rfl, rfl⟩ := List.cons.inj heq
        have hone := escapedWidth_percent raw
        simp only [List.nil_append, escapedSize] at hsize
        exact .inr (.inl ⟨decide_eq_true rfl, by omega, b, post, rfl, hb⟩)
      | cons x pre =>
        obtain ⟨rfl, rfl⟩ := List.cons.inj heq
        simp only [List.cons_append, escapedSize] at hsize
        exact .inr (.inr ⟨pre, b, post, rfl, hb, by omega⟩)
  · rintro (⟨hraw, hc⟩ | ⟨hc, h3, b, post, rfl, hb⟩ | ⟨pre, b, post, rfl, hb, hsize⟩)
    · exact .inl ⟨hraw, hroom, c, url, rfl, hc⟩
    · obtain rfl := of_decide_eq_true hc
      have hone := escapedWidth_percent raw
      refine .inr ⟨[], b, post, rfl, hb, ?_⟩
      simp only [List.nil_append, escapedSize]
      omega
    · refine .inr ⟨c :: pre, b, post, rfl, hb, ?_⟩
      simp only [List.cons_append, escapedSize]
      omega

lemma exists_mem_cons_leaks {c : UInt8} {s : Bytes} (hc : Visible c) :
    (∃ x ∈ c :: s, ¬ Visible x) ↔ ∃ x ∈ s, ¬ Visible x := by
  simp [hc]

/-- One character of the loop, as it is or escaped. -/
lemma escapeHttpLoop_cons {left skip : ℕ} {c : UInt8} {msg : Bytes} (hroom : ¬ left < 3) (hskip : skip ≤ 2) :
    (escapeHttpLoop left skip (c :: msg)).1 =
      if c = percent then percent :: (escapeHttpLoop (left - 1) 2 msg).1
      else if skip = 2 then c :: (escapeHttpLoop (left - 1) 1 msg).1
      else if needsEscape c then
        percent :: intToHex (c.toNat / 16) :: intToHex (c.toNat % 16) :: (escapeHttpLoop (left - 3) 0 msg).1
      else c :: (escapeHttpLoop (left - 1) 0 msg).1 := by
  rw [escapeHttpLoop, if_neg hroom]
  dsimp only
  by_cases hc : c = percent
  · subst hc
    simp
  · simp only [hc, if_false]
    by_cases h2 : skip = 2
    · subst h2
      simp
    · have h0 : skip - 1 = 0 := by omega
      simp only [h0, h2, if_false, true_and]
      split_ifs <;> rfl

/-- The skip counter is 2 exactly behind a `%`, and only then a character goes through as it is. -/
lemma escapeHttpLoop_leaks_iff {left skip : ℕ} {msg : Bytes} (hskip : skip ≤ 2) :
    (∃ x ∈ (escapeHttpLoop left skip msg).1, ¬ Visible x) ↔ LeaksFrom left (decide (skip = 2)) msg := by
  induction msg generalizing left skip with
  | nil => exact iff_of_false (by simp [escapeHttpLoop]) leaksFrom_nil
  | cons c msg ih =>
    by_cases hroom : left < 3
    · have hloop : escapeHttpLoop left skip (c :: msg) = ([], c :: msg) := by
        unfold escapeHttpLoop
        rw [if_pos hroom]
      rw [hloop]
      refine iff_of_false (by simp) ?_
      rintro (⟨-, h3, -⟩ | ⟨pre, b, post, -, -, h⟩) <;> omega
    · rw [escapeHttpLoop_cons hroom hskip, leaksFrom_cons (by omega)]
      by_cases hc : c = percent
      · -- a `%`: the next character is not escaped
        subst hc
        have hvis : Visible percent := by decide
        rw [if_pos rfl, exists_mem_cons_leaks hvis, ih le_rfl, escapedWidth_percent]
        exact (or_iff_right fun h => h.2 hvis).symm
      · rw [if_neg hc]
        by_cases h2 : skip = 2
        · -- behind a `%`
          have hwidth : escapedWidth (decide (skip = 2)) c = 1 :=
            if_neg fun h => absurd h.1 (by simp [h2])
          have ih : (∃ x ∈ (escapeHttpLoop (left - 1) 1 msg).1, ¬ Visible x) ↔
              LeaksFrom (left - 1) (decide (1 = 2)) msg := ih (by decide)
          rw [if_pos h2, hwidth]
          simp only [h2, decide_true, true_and, List.exists_mem_cons_iff, ih, decide_eq_false hc,
            show decide (1 = 2) = false from rfl]
        · have hraw : decide (skip = 2) = false := decide_eq_false h2
          rw [if_neg h2, hraw, decide_eq_false hc]
          have hzero : ∀ n, (∃ x ∈ (escapeHttpLoop n 0 msg).1, ¬ Visible x) ↔ LeaksFrom n false msg :=
            fun n => ih (Nat.zero_le 2)
          by_cases hesc : needsEscape c = true
          · have hwidth : escapedWidth false c = 3 := if_pos ⟨rfl, hc, hesc⟩
            have hbyte := c.toNat_lt
            rw [if_pos hesc, hwidth, exists_mem_cons_leaks (by decide),
              exists_mem_cons_leaks (visible_intToHex (by omega)),
              exists_mem_cons_leaks (visible_intToHex (by omega)), hzero]
            exact (or_iff_right fun h => Bool.false_ne_true h.1).symm
          · have hwidth : escapedWidth false c = 1 := if_neg fun h => hesc h.2.2
            rw [if_neg hesc, hwidth, exists_mem_cons_leaks (visible_of_not_needsEscape hesc), hzero]
            exact (or_iff_right fun h => Bool.false_ne_true h.1).symm

end Loop

lemma slice_append_self (o : Out) (e : Bytes → Event) (bs : Bytes) :
    slice (o.append e bs).buffer o.bufferEnd (o.append e bs).bufferEnd = bs := by
  show slice (store o.buffer o.bufferEnd bs) o.bufferEnd (o.bufferEnd + bs.length) = bs
  have hlen : (o.buffer.take o.bufferEnd ++ List.replicate (o.bufferEnd - o.buffer.length) default).length =
      o.bufferEnd := by
    simp only [List.length_append, List.length_take, List.length_replicate]
    omega
  unfold slice store
  rw [List.append_assoc, List.drop_append, List.drop_eq_nil_of_le hlen.le, List.nil_append, hlen]
  simp

lemma httpWritten_eq (o : Out) (url : Bytes) :
    o.httpWritten url = (escapeHttpLoop (bufferSize - o.bufferEnd) 0 url).1 := by
  rw [← slice_append_self o .queued (escapeHttpLoop (bufferSize - o.bufferEnd) 0 url).1]
  unfold Out.httpWritten Out.reqWriteEscapeHttp Out.finishEscape
  dsimp only
  split_ifs <;> rfl

/-- Only visible characters are written, exactly if none of the others follows a `%` that the
buffer has room for. -/
theorem httpWritten_visible_iff (o : Out) (url : Bytes) :
    (∀ x ∈ o.httpWritten url, Visible x) ↔ ¬ LeaksRaw (bufferSize - o.bufferEnd) url := by
  have hleaks : (∃ x ∈ o.httpWritten url, ¬ Visible x) ↔ LeaksFrom (bufferSize - o.bufferEnd) false url := by
    rw [httpWritten_eq]
    exact escapeHttpLoop_leaks_iff (Nat.zero_le 2)
  rw [← leaksFrom_false, ← hleaks]
  simp

/-- A server that redirects `/r` to another host. -/
def redirectConfig : Config :=
  { tinyConfig with
    aliasHashtable := List.replicate aliasHashtableSize
      [⟨confText "/r" text_r, confText "http://h" (by decide +kernel), .redirect,
        by decide +kernel, by decide +kernel⟩] }

def redirectEnv : Env := { tinyEnv with cfg := redirectConfig }

def redirectClient (request : String) : Env := { redirectEnv with client := [.data (text request)] }

/-- The target `/r/%25%0aX:1` is decoded, and the line feed behind the `%` ends the Location line:
the client gets a header line of the requester's choice. -/
theorem redirect_injects : (∃ o url, ¬ ∀ x ∈ Out.httpWritten o url, Visible x) ∧
    ∃ c p, Reachable c p ∧ .queued (text "Location: ") ∈ c.trace ∧ .queued (text "http://h/%\nX:1") ∈ c.trace := by
  refine ⟨⟨{}, text "http://h/%\nX:1", by decide +kernel⟩, ?_⟩
  have hstart : Reachable (Request.getRequest redirectEnv tinyPeer {}) .ready :=
    .accept redirectEnv tinyPeer {} trivial
  have hrun : ((Request.getRequest redirectEnv tinyPeer {}).rounds
      [redirectClient "GET /r/%25%0aX:1 HTTP/1.0\r\n\r\n"]).any (fun c =>
        let t := (c.processRequest redirectEnv).1.trace
        decide (.queued (text "Location: ") ∈ t) && decide (.queued (text "http://h/%\nX:1") ∈ t)) = true := by
    decide +kernel
  obtain ⟨c, hc, ht⟩ := (Option.any_eq_true _ _).mp hrun
  have hreach : Reachable c .ready := reach_rounds hstart (fun _ => trivial) (fun _ _ _ => trivial) hc
  simp only [Bool.and_eq_true, decide_eq_true_eq] at ht
  exact ⟨_, _, .pass redirectEnv hreach trivial, ht.1, ht.2⟩

end Boa
