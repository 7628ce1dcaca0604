import Boa.HeaderLines
import Boa.Multipart
import Boa.Redirect

/-! The header of the answer to a CGI that names another location: which lines of the child
it takes over, when URL and header lines are read from the buffer it is written to. -/
namespace Boa
open Memory History

/-! ### The output of the child -/

/-- Offset of the end of the first line, which is looked for behind the first ten bytes. -/
def lineEnd (out : Bytes) : ℕ := 10 + ((out.drop 10).takeWhile (· ≠ lf)).length

/-- The text between `Location: ` and the end of its line, less the CRs at its end. -/
def redirectUrl (out : Bytes) : Bytes := slice out 10 (locationEnd out)

/-- What is behind the first line. -/
def behindLine (out : Bytes) : Bytes := out.drop (lineEnd out + 1)

/-- A header block with a URL in its first line. -/
structure Redirects (out : Bytes) : Prop where
  named : startsWithCase (text "Location: ") out
  remote : out.getD 10 0 ≠ slash
  ended : findBlankLine out ≠ none

/-- The text of `req_write_escape_http`, with room for all of it. -/
def httpText (url : Bytes) : Bytes := (escapeHttpLoop (3 * url.length + 3) 0 url).1

/-! ### The copy inside the buffer -/

section Escape

variable {mem out v t : Bytes} {e fuel inp skip : ℕ}

/-- What is read behind the output is what was there before. -/
lemma getD_store_behind (he : e ≤ mem.length) (h : e + out.length ≤ inp) :
    (store mem e out).getD inp 0 = mem.getD inp 0 := by
  have hlen : (mem.take e ++ out).length = e + out.length := by
    simp only [List.length_append, List.length_take, Nat.min_eq_left he]
  rw [store_of_le out he, List.getD_eq_getElem?_getD, List.getElem?_append_right (by rw [hlen]; exact h),
    hlen, List.getElem?_drop, Nat.add_sub_cancel' h, ← List.getD_eq_getElem?_getD]

/-- In front of that the output itself is read. -/
lemma getD_store_inside (he : e ≤ mem.length) (hi : e ≤ inp) (h : inp < e + out.length) :
    (store mem e out).getD inp 0 ∈ out := by
  have hlen : (mem.take e).length = e := by simp [he]
  rw [store_of_le out he, List.append_assoc, List.getD_eq_getElem?_getD,
    List.getElem?_append_right (by rw [hlen]; exact hi), hlen,
    List.getElem?_append_left (by omega), List.getElem?_eq_getElem (by omega), Option.getD_some]
  exact List.getElem_mem _

/-- The bytes that one character becomes. -/
def escapedChar (raw : Bool) (c : UInt8) : Bytes :=
  if raw = false ∧ c ≠ percent ∧ needsEscape c
  then [percent, intToHex (c.toNat / 16), intToHex (c.toNat % 16)] else [c]

lemma length_escapedChar (raw : Bool) (c : UInt8) : (escapedChar raw c).length = escapedWidth raw c := by
  unfold escapedChar escapedWidth
  split_ifs <;> rfl

/-- Neither a NUL nor a line end is made. -/
lemma escapedChar_clean {raw : Bool} {c b : UInt8} (hb : b = 0 ∨ b = lf) (hc : c ≠ b) :
    b ∉ escapedChar raw c := by
  have hclean : ∀ x : UInt8, Visible x → x ≠ b := by
    rintro x hx rfl
    obtain rfl | rfl := hb
    · exact absurd hx (by decide)
    · exact absurd hx (by decide)
  have hbyte := c.toNat_lt
  unfold escapedChar
  split_ifs
  · have h1 := hclean percent (by decide)
    have h2 := hclean _ (visible_intToHex (x := c.toNat / 16) (by omega))
    have h3 := hclean _ (visible_intToHex (x := c.toNat % 16) (by omega))
    simp [h1.symm, h2.symm, h3.symm]
  · simpa using hc.symm

/-- One character of the loop on a message in the buffer. -/
lemma escapeHttpAt_char {c : UInt8} (hc : (store mem e out).getD inp 0 = c) (h0 : c ≠ 0)
    (hskip : skip ≤ 2) (hroom : ¬ bufferSize - e - out.length < 3) :
    escapeHttpAt mem e (fuel + 1) inp skip out =
      escapeHttpAt mem e fuel (inp + 1) (if c = percent then 2 else skip - 1)
        (out ++ escapedChar (decide (skip = 2)) c) := by
  rw [escapeHttpAt]
  dsimp only
  rw [hc, if_neg h0, if_neg hroom]
  unfold escapedChar
  by_cases hp : c = percent
  · simp [hp]
  · by_cases h2 : skip = 2
    · subst h2
      simp [hp]
    · have hlow : skip - 1 = 0 := by omega
      simp [hp, h2, hlow]

/-- The same of the loop on a message elsewhere. -/
lemma escapeHttpLoop_char {left : ℕ} {c : UInt8} {msg : Bytes} (hroom : ¬ left < 3) (hskip : skip ≤ 2) :
    (escapeHttpLoop left skip (c :: msg)).1 = escapedChar (decide (skip = 2)) c ++
      (escapeHttpLoop (left - escapedWidth (decide (skip = 2)) c)
        (if c = percent then 2 else skip - 1) msg).1 := by
  rw [escapeHttpLoop_cons hroom hskip]
  unfold escapedChar escapedWidth
  by_cases hp : c = percent
  · simp [hp]
  · by_cases h2 : skip = 2
    · subst h2
      simp [hp]
    · have hlow : skip - 1 = 0 := by omega
      simp only [hp, h2, hlow, decide_false, if_false, not_false_eq_true, ne_eq, true_and]
      split_ifs <;> rfl

lemma escapedWidth_le (raw : Bool) (c : UInt8) : escapedWidth raw c ≤ 3 := by
  unfold escapedWidth
  split_ifs <;> omega

/-- The skip counter behind a character. -/
lemma skip_next {c : UInt8} (hskip : skip ≤ 2) : (if c = percent then 2 else skip - 1) ≤ 2 ∧
    decide ((if c = percent then 2 else skip - 1) = 2) = decide (c = percent) := by
  split_ifs with hp
  · simp [hp]
  · have hne : skip - 1 ≠ 2 := by omega
    exact ⟨by omega, by rw [decide_eq_false hne, decide_eq_false hp]⟩

lemma length_escapeHttpLoop {left skip : ℕ} {msg : Bytes} (hskip : skip ≤ 2) (hleft : 3 * msg.length + 3 ≤ left) :
    (escapeHttpLoop left skip msg).1.length = escapedSize (decide (skip = 2)) msg := by
  induction msg generalizing left skip with
  | nil => rfl
  | cons c msg ih =>
    have hthree := escapedWidth_le (decide (skip = 2)) c
    simp only [List.length_cons] at hleft
    rw [escapeHttpLoop_char (by omega) hskip, List.length_append, length_escapedChar, escapedSize,
      ih (skip_next hskip).1 (by omega), (skip_next hskip).2]

lemma length_httpText (url : Bytes) : (httpText url).length = escapedSize false url :=
  length_escapeHttpLoop (Nat.zero_le 2) le_rfl

lemma lf_not_mem_escapeHttpLoop {left skip : ℕ} {msg : Bytes} (hskip : skip ≤ 2) (hmsg : lf ∉ msg) :
    lf ∉ (escapeHttpLoop left skip msg).1 := by
  induction msg generalizing left skip with
  | nil => exact List.not_mem_nil
  | cons c msg ih =>
    by_cases hroom : left < 3
    · have hstop : escapeHttpLoop left skip (c :: msg) = ([], c :: msg) := by
        unfold escapeHttpLoop
        rw [if_pos hroom]
      rw [hstop]
      exact List.not_mem_nil
    · rw [escapeHttpLoop_char hroom hskip]
      simp only [List.mem_append, not_or]
      exact ⟨escapedChar_clean (.inr rfl) fun h => hmsg (h ▸ List.mem_cons_self),
        ih (skip_next hskip).1 fun h => hmsg (List.mem_cons_of_mem _ h)⟩

/-- Once the output reaches what is still to be read, the loop reads its own output until the
buffer is full. -/
lemma escapeHttpAt_overtaken (he : e ≤ mem.length) (hi : e ≤ inp) (hover : inp < e + out.length)
    (hskip : skip ≤ 2) (h0 : 0 ∉ out) (hlf : lf ∉ out) (hfit : e + out.length ≤ bufferSize)
    (hfuel : bufferSize < fuel + e + out.length) :
    (escapeHttpAt mem e fuel inp skip out).2 ≠ [] ∧ lf ∉ (escapeHttpAt mem e fuel inp skip out).1 := by
  induction fuel generalizing inp skip out with
  | zero => omega
  | succ fuel ih =>
    have hread := getD_store_inside he hi hover
    generalize hc : (store mem e out).getD inp 0 = c at hread
    have hc0 : c ≠ 0 := fun h => h0 (h ▸ hread)
    have hclf : c ≠ lf := fun h => hlf (h ▸ hread)
    by_cases hroom : bufferSize - e - out.length < 3
    · have hstop : escapeHttpAt mem e (fuel + 1) inp skip out = (out, [c]) := by
        rw [escapeHttpAt]
        dsimp only
        rw [hc, if_neg hc0, if_pos hroom]
      rw [hstop]
      exact ⟨List.cons_ne_nil _ _, hlf⟩
    · have hone := one_le_escapedWidth (decide (skip = 2)) c
      have hthree := escapedWidth_le (decide (skip = 2)) c
      have hlen : (out ++ escapedChar (decide (skip = 2)) c).length =
          out.length + escapedWidth (decide (skip = 2)) c := by
        rw [List.length_append, length_escapedChar]
      rw [escapeHttpAt_char hc hc0 hskip hroom]
      apply ih (by omega) (by omega) (skip_next hskip).1
      · simp only [List.mem_append, not_or]
        exact ⟨h0, escapedChar_clean (.inl rfl) hc0⟩
      · simp only [List.mem_append, not_or]
        exact ⟨hlf, escapedChar_clean (.inr rfl) hclf⟩
      · omega
      · omega

/-- The output never reaches what is still to be read of the text `v`. -/
def Behind (room : ℕ) (raw : Bool) (v : Bytes) : Prop :=
  ∀ i ≤ v.length, escapedSize raw (v.take i) ≤ room + i

lemma behind_nil (room : ℕ) (raw : Bool) : Behind room raw [] := by
  intro i hi
  rw [List.take_nil]
  exact Nat.zero_le _

lemma behind_cons {room : ℕ} {raw : Bool} {c : UInt8} :
    Behind room raw (c :: v) ↔ escapedWidth raw c ≤ room + 1 ∧
      Behind (room + 1 - escapedWidth raw c) (decide (c = percent)) v := by
  unfold Behind
  constructor
  · intro h
    have h1 := h 1 (by simp)
    simp only [List.take_succ_cons, List.take_zero, escapedSize, Nat.add_zero] at h1
    refine ⟨h1, fun i hi => ?_⟩
    have hi1 := h (i + 1) (by simp [hi])
    simp only [List.take_succ_cons, escapedSize] at hi1
    omega
  · rintro ⟨h1, h⟩ i hi
    cases i with
    | zero => exact Nat.zero_le _
    | succ i =>
      have hi := h i (by simpa using hi)
      simp only [List.take_succ_cons, escapedSize]
      omega

/-- The loop copies the message, or it overtakes it and fills the buffer with its own output. -/
lemma escapeHttpAt_iff (he : e ≤ mem.length) (hmem : mem.drop inp = v ++ 0 :: t) (hv0 : 0 ∉ v)
    (hvlf : lf ∉ v) (hover : e + out.length ≤ inp) (hskip : skip ≤ 2) (h0 : 0 ∉ out) (hlf : lf ∉ out)
    (hend : inp + v.length + 2 ≤ bufferSize) (hfuel : bufferSize < fuel + out.length) (left : ℕ)
    (hleft : 3 * v.length + 3 ≤ left) :
    (Behind (inp - e - out.length) (decide (skip = 2)) v →
      escapeHttpAt mem e fuel inp skip out = (out ++ (escapeHttpLoop left skip v).1, [])) ∧
    (¬ Behind (inp - e - out.length) (decide (skip = 2)) v →
      (escapeHttpAt mem e fuel inp skip out).2 ≠ [] ∧ lf ∉ (escapeHttpAt mem e fuel inp skip out).1) := by
  induction v generalizing fuel inp skip out left with
  | nil =>
    have hc : (store mem e out).getD inp 0 = 0 := by
      rw [getD_store_behind he hover, List.getD_eq_getElem?_getD, ← Nat.add_zero inp, ← List.getElem?_drop,
        hmem]
      rfl
    obtain ⟨fuel, rfl⟩ : ∃ k, fuel = k + 1 := ⟨fuel - 1, by omega⟩
    refine ⟨fun _ => ?_, fun h => absurd (behind_nil _ _) h⟩
    rw [escapeHttpAt]
    dsimp only
    rw [hc, if_pos rfl, escapeHttpLoop, List.append_nil]
  | cons c v ih =>
    have hc : (store mem e out).getD inp 0 = c := by
      rw [getD_store_behind he hover, List.getD_eq_getElem?_getD, ← Nat.add_zero inp, ← List.getElem?_drop,
        hmem]
      rfl
    have hc0 : c ≠ 0 := fun h => hv0 (h ▸ List.mem_cons_self)
    have hclf : c ≠ lf := fun h => hvlf (h ▸ List.mem_cons_self)
    simp only [List.length_cons] at hend hleft
    obtain ⟨fuel, rfl⟩ : ∃ k, fuel = k + 1 := ⟨fuel - 1, by omega⟩
    have hroom : ¬ bufferSize - e - out.length < 3 := by omega
    have hone := one_le_escapedWidth (decide (skip = 2)) c
    have hthree := escapedWidth_le (decide (skip = 2)) c
    have hlen : (out ++ escapedChar (decide (skip = 2)) c).length =
        out.length + escapedWidth (decide (skip = 2)) c := by
      rw [List.length_append, length_escapedChar]
    have hnext0 : 0 ∉ out ++ escapedChar (decide (skip = 2)) c := by
      simp only [List.mem_append, not_or]
      exact ⟨h0, escapedChar_clean (.inl rfl) hc0⟩
    have hnextlf : lf ∉ out ++ escapedChar (decide (skip = 2)) c := by
      simp only [List.mem_append, not_or]
      exact ⟨hlf, escapedChar_clean (.inr rfl) hclf⟩
    obtain ⟨hskip', hraw⟩ := skip_next (c := c) hskip
    rw [escapeHttpAt_char hc hc0 hskip hroom, behind_cons]
    by_cases hw : escapedWidth (decide (skip = 2)) c ≤ inp - e - out.length + 1
    · -- the output is still behind
      have hrest : mem.drop (inp + 1) = v ++ 0 :: t := by
        rw [← List.drop_drop, hmem]
        rfl
      have hgap : inp + 1 - e - (out ++ escapedChar (decide (skip = 2)) c).length =
          inp - e - out.length + 1 - escapedWidth (decide (skip = 2)) c := by
        rw [hlen]
        omega
      have hfuel' : bufferSize < fuel + (out ++ escapedChar (decide (skip = 2)) c).length := by omega
      have hleft' : 3 * v.length + 3 ≤ left - escapedWidth (decide (skip = 2)) c := by omega
      have ih := ih hrest (fun h => hv0 (List.mem_cons_of_mem _ h))
        (fun h => hvlf (List.mem_cons_of_mem _ h)) (by omega) hskip' hnext0 hnextlf (by omega) hfuel' _ hleft'
      rw [hraw, hgap] at ih
      simp only [hw, true_and]
      refine ⟨fun h => ?_, ih.2⟩
      rw [ih.1 h, escapeHttpLoop_char (by omega) hskip, List.append_assoc]
    · refine ⟨fun h => absurd h.1 hw, fun _ => ?_⟩
      exact escapeHttpAt_overtaken he (by omega) (by omega) hskip' hnext0 hnextlf (by omega) (by omega)

/-- The copy of a message from its start. -/
lemma escapeHttpAt_start (he : e ≤ mem.length) (hmem : mem.drop inp = v ++ 0 :: t) (hv0 : 0 ∉ v) (hvlf : lf ∉ v)
    (hover : e ≤ inp) (hend : inp + v.length + 2 ≤ bufferSize) :
    (Behind (inp - e) false v →
      escapeHttpAt mem e (bufferSize + 1) inp 0 [] = ([] ++ (escapeHttpLoop (3 * v.length + 3) 0 v).1, [])) ∧
    (¬ Behind (inp - e) false v →
      (escapeHttpAt mem e (bufferSize + 1) inp 0 []).2 ≠ [] ∧
        lf ∉ (escapeHttpAt mem e (bufferSize + 1) inp 0 []).1) := by
  have hstart : e + ([] : Bytes).length ≤ inp := hover
  exact escapeHttpAt_iff he hmem hv0 hvlf hstart (Nat.zero_le 2) List.not_mem_nil List.not_mem_nil hend
    (Nat.lt_succ_self _) _ le_rfl

end Escape

/-! ### The header of the server -/

section ServerHead

variable {l : Bytes}

lemma IsBlock.crlf (hl : lf ∉ l) (hne : l ≠ []) : IsBlock (l ++ crlf) := by
  have hline : l ++ Boa.crlf = (l ++ [cr]) ++ [lf] := (List.append_assoc l [cr] [lf]).symm
  rw [hline]
  apply IsBlock.line
  · simp only [List.mem_append, List.mem_singleton, not_or]
    exact ⟨hl, by decide⟩
  · rintro (h | h)
    · exact List.append_ne_nil_of_right_ne_nil l (List.cons_ne_nil cr []) h
    · exact hne (by simpa using h)

lemma simpleItoa_line (n : ℕ) : lf ∉ simpleItoa n ∧ (simpleItoa n).length ≤ 21 := by
  obtain ⟨hdigits, hlen⟩ := simpleItoa_digits n
  exact ⟨fun h => absurd (hdigits _ h) (by decide), hlen⟩

lemma lf_not_mem_two : ∀ n < 61, lf ∉ two n := by decide

/-- A date is short and has no line end in it. -/
lemma rfc822Text_line (t : Tm) : lf ∉ rfc822Text t ∧ (rfc822Text t).length ≤ 60 := by
  have hday : ∀ i : Fin 7, lf ∉ dayTab.getD i [] ∧ (dayTab.getD i []).length = 4 := by decide +kernel
  have hmon : ∀ i : Fin 12, lf ∉ monthTab.getD i [] ∧ (monthTab.getD i []).length = 4 := by decide +kernel
  have hgmt : lf ∉ text " GMT" ∧ (text " GMT").length = 4 := by decide +kernel
  obtain ⟨hday, hdaylen⟩ := hday t.wday
  obtain ⟨hmon, hmonlen⟩ := hmon t.mon
  obtain ⟨hyear, hyearlen⟩ := simpleItoa_line t.year.toNat
  have hmday := lf_not_mem_two t.mday (by omega)
  have hhour := lf_not_mem_two t.hour (by omega)
  have hmin := lf_not_mem_two t.min (by omega)
  have hsec := lf_not_mem_two t.sec (by omega)
  have hspace : lf ≠ space := by decide
  have hcolon : lf ≠ colon := by decide
  have htwo : ∀ n, (two n).length = 2 := fun _ => rfl
  unfold rfc822Text
  constructor
  · simp only [List.mem_append, List.mem_singleton, not_or]
    simp only [hday, hmon, hyear, hmday, hhour, hmin, hsec, hspace, hcolon, hgmt.1, not_false_eq_true,
      and_self]
  · simp only [List.length_append, hdaylen, hmonlen, htwo, hgmt.2, List.length_singleton]
    omega

lemma rfc822TimeBuf_line (env : Env) (s : ℤ) :
    lf ∉ rfc822TimeBuf env s ∧ (rfc822TimeBuf env s).length ≤ 60 := rfc822Text_line _

namespace Request

/-- The request that `send_r_moved_temp` answers. -/
def moved (c : Request) : Request := { c.squashKa with responseStatus := 302 }

/-- The calls that write the header of the server, up to the Location line. -/
def serverMsgs (env : Env) (c : Request) : List Msg :=
  c.moved.statusLine " 302 Moved Temporarily\r\n" ++ c.moved.printHttpHeaders env ++ htmlType

/-- The text they write. -/
def serverHead (env : Env) (c : Request) : Bytes := msgText (c.serverMsgs env)

lemma serverMsgs_plain (env : Env) (c : Request) : ∀ m ∈ c.serverMsgs env, m.plain := by
  intro m hm
  simp only [serverMsgs, List.mem_append] at hm
  rcases hm with (hm | hm) | hm
  · simp only [statusLine, List.mem_cons, List.not_mem_nil, or_false] at hm
    rcases hm with rfl | rfl <;> rfl
  · exact printHttpHeaders_plain env c.moved m hm
  · rw [List.mem_singleton.mp hm]
    rfl

/-- The `Server` line and the one for secure transport, which the configuration decides about. -/
def configLines (cfg : Config) : Bytes :=
  (if cfg.concealServerIdentity then [] else text "Server: Boa/0.94.101wk\r\n") ++
    match cfg.hstsHeader with
    | some h => text "Strict-Transport-Security: " ++ h.val ++ crlf
    | none => []

lemma serverHead_eq (env : Env) (c : Request) : c.serverHead env =
    (httpVerString c.httpVersion ++ text " 302 Moved Temporarily\r\n") ++
      ((text "Date: " ++ rfc822TimeBuf env 0 ++ crlf) ++ (configLines env.cfg ++
        (text "Accept-Ranges: bytes\r\n" ++ (text "Connection: close\r\n" ++
          text "Content-Type: text/html; charset=ISO-8859-1\r\n")))) := by
  have hclose : c.moved.keepsAlive = false := decide_eq_false fun h => nomatch h.2.1
  unfold serverHead serverMsgs printHttpHeaders printKaPhrase configLines
  rw [hclose, if_neg Bool.false_ne_true]
  cases env.cfg.hstsHeader <;> split_ifs <;>
    simp [msgText, statusLine, htmlType, Msg.bytes, moved, squashKa]

lemma configLines_block (cfg : Config) : IsBlock (configLines cfg) := by
  unfold configLines
  apply IsBlock.append
  · split_ifs
    · exact .nil
    · have hline : text "Server: Boa/0.94.101wk\r\n" = text "Server: Boa/0.94.101wk" ++ crlf := by decide +kernel
      rw [hline]
      exact .crlf (by decide +kernel) (by decide +kernel)
  · cases cfg.hstsHeader with
    | none => exact .nil
    | some h =>
      have hname : lf ∉ text "Strict-Transport-Security: " ∧ text "Strict-Transport-Security: " ≠ [] := by
        decide +kernel
      apply IsBlock.crlf
      · simp only [List.mem_append, not_or]
        exact ⟨hname.1, h.noLf⟩
      · exact List.append_ne_nil_of_left_ne_nil hname.2 _

/-- The header of the server consists of whole lines. -/
lemma serverHead_block (env : Env) (c : Request) : IsBlock (c.serverHead env) := by
  rw [serverHead_eq]
  apply IsBlock.append
  · have hline : text " 302 Moved Temporarily\r\n" = text " 302 Moved Temporarily" ++ crlf := by decide +kernel
    have hvers : ∀ v, lf ∉ httpVerString v ++ text " 302 Moved Temporarily" ∧
        httpVerString v ++ text " 302 Moved Temporarily" ≠ [] := by
      intro v
      cases v <;> decide +kernel
    rw [hline, ← List.append_assoc]
    exact .crlf (hvers _).1 (hvers _).2
  apply IsBlock.append
  · have hname : lf ∉ text "Date: " ∧ text "Date: " ≠ [] := by decide +kernel
    apply IsBlock.crlf
    · simp only [List.mem_append, not_or]
      exact ⟨hname.1, (rfc822TimeBuf_line env 0).1⟩
    · exact List.append_ne_nil_of_left_ne_nil hname.2 _
  apply IsBlock.append (configLines_block env.cfg)
  have hconst : ∀ t ∈ [text "Accept-Ranges: bytes", text "Connection: close",
      text "Content-Type: text/html; charset=ISO-8859-1"], IsBlock (t ++ crlf) := by
    intro t ht
    have hall : ∀ t ∈ [text "Accept-Ranges: bytes", text "Connection: close",
      text "Content-Type: text/html; charset=ISO-8859-1"], lf ∉ t ∧ t ≠ [] := by decide +kernel
    exact .crlf (hall t ht).1 (hall t ht).2
  have hranges : text "Accept-Ranges: bytes\r\n" = text "Accept-Ranges: bytes" ++ crlf := by decide +kernel
  have hclose : text "Connection: close\r\n" = text "Connection: close" ++ crlf := by decide +kernel
  have htype : text "Content-Type: text/html; charset=ISO-8859-1\r\n" =
      text "Content-Type: text/html; charset=ISO-8859-1" ++ crlf := by decide +kernel
  rw [hranges, hclose, htype]
  exact (hconst _ (by simp)).append ((hconst _ (by simp)).append (hconst _ (by simp)))

/-- It fits below the output of the child. -/
lemma length_serverHead (env : Env) (c : Request) : (c.serverHead env).length ≤ bufferSize / 2 - 10 := by
  have hvers : ∀ v, (httpVerString v).length = 8 := by
    intro v
    cases v <;> decide +kernel
  have hdate := (rfc822TimeBuf_line env 0).2
  have hconf : (configLines env.cfg).length ≤ 1100 := by
    have hserver : (text "Server: Boa/0.94.101wk\r\n").length = 24 := by decide +kernel
    have hname : (text "Strict-Transport-Security: ").length = 27 := by decide +kernel
    have hcrlf : crlf.length = 2 := rfl
    unfold configLines
    cases hh : env.cfg.hstsHeader with
    | none => split_ifs <;> simp [hserver]
    | some h =>
      have hshort := h.short
      split_ifs <;> simp only [List.length_append, List.length_nil, hserver, hname, hcrlf] <;> omega
  have hlen : (text " 302 Moved Temporarily\r\n").length = 24 ∧ (text "Date: ").length = 6 ∧
      (text "Accept-Ranges: bytes\r\n").length = 22 ∧ (text "Connection: close\r\n").length = 19 ∧
      (text "Content-Type: text/html; charset=ISO-8859-1\r\n").length = 45 := by decide +kernel
  have hcrlf : crlf.length = 2 := rfl
  have hsize : bufferSize / 2 = 2048 := by decide
  obtain ⟨h1, h2, h3, h4, h5⟩ := hlen
  rw [serverHead_eq, hsize]
  simp only [List.length_append, hvers, h1, h2, h3, h4, h5, hcrlf]
  omega

end Request

end ServerHead

/-! ### The first line of the child -/

/-- `out` starts with a line of a name, a URL and some CRs; `rest` is behind it. -/
structure Parts (out name url : Bytes) (k : ℕ) (rest : Bytes) : Prop where
  eq : out = name ++ (url ++ (List.replicate k cr ++ lf :: rest))
  ten : name.length = 10
  nameLf : lf ∉ name
  nameCr : cr ∉ name
  urlLf : lf ∉ url
  last : ∀ b ∈ url.getLast?, b ≠ cr

namespace Parts

variable {out name url rest : Bytes} {k : ℕ}

lemma drop_ten (h : Parts out name url k rest) : out.drop 10 = url ++ (List.replicate k cr ++ lf :: rest) := by
  rw [h.eq, ← h.ten, List.drop_left]

lemma lineEnd (h : Parts out name url k rest) : lineEnd out = 10 + url.length + k := by
  have hline : lf ∉ url ++ List.replicate k cr := by
    simp only [List.mem_append, not_or]
    exact ⟨h.urlLf, fun hm => absurd (List.eq_of_mem_replicate hm) (by decide)⟩
  have htake : (out.drop 10).takeWhile (fun b => decide (b ≠ lf)) = url ++ List.replicate k cr := by
    rw [h.drop_ten, ← List.append_assoc, List.takeWhile_append_of_pos, List.takeWhile_cons_of_neg,
      List.append_nil]
    · simp
    · intro b hb
      exact decide_eq_true fun hbl => hline (hbl ▸ hb)
  unfold Boa.lineEnd
  rw [htake, List.length_append, List.length_replicate, Nat.add_assoc]

lemma locationEnd (h : Parts out name url k rest) : locationEnd out = 10 + url.length := by
  have hn : 10 + ((out.drop 10).takeWhile (fun b => decide (b ≠ lf))).length = 10 + url.length + k := h.lineEnd
  have htake : out.take (10 + url.length + k) = name ++ (url ++ List.replicate k cr) := by
    have hlen : 10 + url.length + k = (name ++ (url ++ List.replicate k cr)).length := by
      simp only [List.length_append, List.length_replicate, h.ten]
      omega
    have heq : out = (name ++ (url ++ List.replicate k cr)) ++ lf :: rest := by
      rw [h.eq]
      simp
    rw [hlen, heq, List.take_left]
  have hcrs : (name ++ (url ++ List.replicate k cr)).reverse.takeWhile (fun b => decide (b = cr)) =
      List.replicate k cr := by
    rw [← List.append_assoc, List.reverse_append, List.reverse_replicate,
      List.takeWhile_append_of_pos (by simp)]
    have hstop : ∀ b ∈ (name ++ url).reverse.head?, b ≠ cr := by
      intro b hb
      rw [List.head?_reverse, List.getLast?_append] at hb
      cases hu : url.getLast? with
      | none =>
        rw [hu, Option.none_or] at hb
        exact fun hbc => h.nameCr (hbc ▸ List.mem_of_getLast? hb)
      | some x =>
        rw [hu, Option.some_or] at hb
        exact h.last b (hu ▸ hb)
    cases hz : (name ++ url).reverse with
    | nil => simp
    | cons b z =>
      rw [List.takeWhile_cons_of_neg, List.append_nil]
      simpa using hstop b (by rw [hz]; rfl)
  unfold Boa.locationEnd
  dsimp only
  rw [hn, htake, hcrs, List.length_replicate]
  omega

lemma redirectUrl (h : Parts out name url k rest) : redirectUrl out = url := by
  unfold Boa.redirectUrl slice
  rw [h.locationEnd, h.drop_ten, Nat.add_sub_cancel_left, List.take_left]

lemma behindLine (h : Parts out name url k rest) : behindLine out = rest := by
  have hlen : 10 + url.length + k + 1 = (name ++ (url ++ (List.replicate k cr ++ [lf]))).length := by
    simp only [List.length_append, List.length_replicate, h.ten, List.length_singleton]
    omega
  have heq : out = (name ++ (url ++ (List.replicate k cr ++ [lf]))) ++ rest := by
    rw [h.eq]
    simp
  unfold Boa.behindLine
  rw [h.lineEnd, hlen]
  nth_rewrite 1 [heq]
  exact List.drop_left

/-- The lines of the child: the first one, and those behind it. -/
lemma headLines (h : Parts out name url k rest) : headLines out =
    (headLines rest).map ((name ++ (url ++ List.replicate k cr)) :: ·) := by
  have heq : out = (name ++ (url ++ List.replicate k cr)) ++ lf :: rest := by
    rw [h.eq]
    simp
  have hlf : lf ∉ name ++ (url ++ List.replicate k cr) := by
    simp only [List.mem_append, not_or]
    exact ⟨h.nameLf, h.urlLf, fun hm => absurd (List.eq_of_mem_replicate hm) (by decide)⟩
  have hten := h.ten
  have hblank : ¬ IsBlank (name ++ (url ++ List.replicate k cr)) := by
    rintro (hb | hb) <;>
    · have := congrArg List.length hb
      simp only [List.length_append, List.length_nil, List.length_singleton] at this
      omega
  rw [heq, headLines_line hlf, if_neg hblank]

/-- What is left behind the CR or LF that the terminator is written over. -/
lemma skipEnds (h : Parts out name url k rest) :
    skipEnds (out.drop (Boa.locationEnd out + 1)) = skipEnds rest := by
  have hdrop : out.drop (Boa.locationEnd out) = List.replicate k cr ++ lf :: rest := by
    have hlen : 10 + url.length = (name ++ url).length := by rw [List.length_append, h.ten]
    have heq : out = (name ++ url) ++ (List.replicate k cr ++ lf :: rest) := by
      rw [h.eq]
      simp
    rw [h.locationEnd, hlen]
    nth_rewrite 1 [heq]
    exact List.drop_left
  rw [← List.drop_drop, hdrop]
  unfold Boa.skipEnds
  cases k with
  | zero => rfl
  | succ k =>
    rw [List.replicate_succ, List.cons_append, List.drop_one, List.tail_cons,
      List.dropWhile_append_of_pos (by simp), List.dropWhile_cons_of_pos (by simp)]

end Parts

lemma Redirects.parts {out : Bytes} (h : Redirects out) :
    ∃ name k, Parts out name (redirectUrl out) k (behindLine out) := by
  have h10 := cgiNames.1
  have hlf : lf ∉ out.take 10 := by
    rw [← h10]
    exact startsWithCase_not_mem h.named (by decide +kernel) (by decide)
  have hcr : cr ∉ out.take 10 := by
    rw [← h10]
    exact startsWithCase_not_mem h.named (by decide +kernel) (by decide)
  have hten : (out.take 10).length = 10 := by
    have hlen := congrArg List.length (beq_iff_eq.mp h.named)
    rwa [List.length_map, List.length_map, h10] at hlen
  -- the first line ends behind the name
  obtain ⟨i, hi⟩ := Option.ne_none_iff_exists'.mp h.ended
  have hmem : lf ∈ out.drop 10 := by
    have hout := List.mem_of_getElem? (findBlankLine_spec hi).1
    rw [← List.take_append_drop 10 out] at hout
    exact (List.mem_append.mp hout).resolve_left hlf
  obtain ⟨line, rest, hline, hno⟩ := List.eq_append_cons_of_mem hmem
  -- and the URL before the CRs at its end
  have hsplit : line = (line.reverse.dropWhile (fun b => b = cr)).reverse ++
      (line.reverse.takeWhile (fun b => b = cr)).reverse := by
    rw [← List.reverse_append, List.takeWhile_append_dropWhile, List.reverse_reverse]
  have hcrs : (line.reverse.takeWhile (fun b => b = cr)).reverse =
      List.replicate (line.reverse.takeWhile (fun b => b = cr)).length cr := by
    rw [← List.length_reverse]
    apply List.eq_replicate_of_mem
    intro b hb
    simpa using List.mem_takeWhile_imp (List.mem_reverse.mp hb)
  have hparts : Parts out (out.take 10) (line.reverse.dropWhile (fun b => b = cr)).reverse
      (line.reverse.takeWhile (fun b => b = cr)).length rest := by
    refine ⟨?_, hten, hlf, hcr, ?_, ?_⟩
    · rw [← hcrs, ← List.append_assoc (List.reverse _), ← hsplit, ← hline, List.take_append_drop]
    · intro hm
      apply hno
      rw [hsplit]
      exact List.mem_append_left _ hm
    · intro b hb
      rw [List.getLast?_reverse] at hb
      have hne : line.reverse.dropWhile (fun b => decide (b = cr)) ≠ [] := by
        intro hnil
        rw [hnil] at hb
        cases hb
      have hhead := List.head_dropWhile_not (fun b => decide (b = cr)) hne
      rw [List.head?_eq_some_head hne] at hb
      cases hb
      simpa using hhead
  refine ⟨out.take 10, (line.reverse.takeWhile (fun b => b = cr)).length, ?_⟩
  rw [hparts.redirectUrl, hparts.behindLine]
  exact hparts

lemma Redirects.headLines_ne_none {out : Bytes} (h : Redirects out) : headLines out ≠ none := by
  obtain ⟨i, hi⟩ := Option.ne_none_iff_exists'.mp h.ended
  obtain ⟨b, hb, t, ht⟩ : ∃ b, (b = [lf, lf] ∨ b = [lf, cr, lf]) ∧ b <+: out.drop i := by
    unfold findBlankLine at hi
    cases h1 : strstr [lf, cr, lf] out with
    | some j =>
      rw [h1] at hi
      obtain rfl : j = i := by simpa using hi
      exact ⟨_, .inr rfl, strstr_spec h1⟩
    | none =>
      rw [h1] at hi
      exact ⟨_, .inl rfl, strstr_spec hi⟩
  rw [← List.take_append_drop i out, ← ht]
  exact Boa.headLines_ne_none hb

/-! ### What a sequence of calls leaves in the buffer -/

/-- A call that does not escape what it writes. -/
def Msg.unescaped : Msg → Bool
  | .http _ | .html _ | .httpAt _ | .htmlAt _ => false
  | _ => true

namespace Out

variable {o o' o'' : Out}

/-- `o'` has written behind the text of `o`; what is further behind is as it was. -/
structure Below (o o' : Out) : Prop where
  last : o.bufferEnd ≤ o'.bufferEnd
  drop : ∀ k, o'.bufferEnd ≤ k → o'.buffer.drop k = o.buffer.drop k

lemma Below.refl (o : Out) : Below o o := ⟨le_rfl, fun _ _ => rfl⟩

lemma Below.trans (h : Below o o') (h' : Below o' o'') : Below o o'' :=
  ⟨h.last.trans h'.last, fun k hk => (h'.drop k hk).trans (h.drop k (h'.last.trans hk))⟩

lemma append_below (o : Out) (e : Bytes → Event) (bs : Bytes) : Below o (o.append e bs) :=
  ⟨Nat.le_add_right _ _, fun _ hk => drop_store o.buffer bs hk⟩

lemma reqWrite_below (o : Out) (msg : Bytes) : Below o (o.reqWrite msg) := by
  unfold reqWrite
  split_ifs
  · exact .refl o
  · exact ⟨le_rfl, fun _ _ => rfl⟩
  · exact append_below o _ _

lemma finishEscape_below (o : Out) (r : Bytes × Bytes) : Below o (o.finishEscape r) := by
  have h := append_below o .queued r.1
  unfold finishEscape
  dsimp only
  split_ifs
  · exact ⟨h.last, h.drop⟩
  · exact h

lemma writeMsg_below (o : Out) (m : Msg) : Below o (o.writeMsg m) := by
  cases m with
  | raw | rawAt => exact reqWrite_below o _
  | http | html | httpAt | htmlAt => exact finishEscape_below o _
  | ka | len =>
    unfold writeMsg
    split_ifs
    · exact .refl o
    · exact ⟨le_rfl, fun _ _ => rfl⟩

lemma writes_below (o : Out) (ms : List Msg) : Below o (o.writes ms) := by
  induction ms generalizing o with
  | nil => exact .refl o
  | cons m ms ih => exact (writeMsg_below o m).trans (ih _)

lemma writes_append (o : Out) (ms ms' : List Msg) : o.writes (ms ++ ms') = (o.writes ms).writes ms' :=
  List.foldl_append

/-- What is produced behind a text. -/
lemma produced_replies {ka : Bool → Prop} {len : ℕ → Prop} (h : Replies ka len o o') :
    ∃ y, produced o'.trace = produced o.trace ++ y := by
  obtain ⟨es, hes, hreply⟩ := h.adds
  rw [hes]
  clear hes h
  induction es using List.reverseRecOn with
  | nil => exact ⟨[], by simp⟩
  | append_singleton es e ih =>
    obtain ⟨y, hy⟩ := ih fun e' he' => hreply e' (List.mem_append_left _ he')
    have he := hreply e (by simp)
    rw [← List.append_assoc, produced_snoc, hy]
    cases e with
    | queued bs => exact ⟨y ++ bs, List.append_assoc _ _ _⟩
    | noRoom | sent | kaPhrase | contentLength => exact ⟨y, rfl⟩
    | _ => exact he.elim

/-- A dead request writes no text that is given to `req_write`. -/
lemma writes_dead (hs : .done < o.status) {ms : List Msg} (hms : ∀ m ∈ ms, m.unescaped) :
    o.writes ms = o := by
  induction ms with
  | nil => rfl
  | cons m ms ih =>
    have hm : o.writeMsg m = o := by
      have hraw : ∀ bs, o.reqWrite bs = o := fun bs => if_pos (.inr hs)
      have hm := hms m List.mem_cons_self
      cases m with
      | raw | rawAt => exact hraw _
      | ka | len => exact if_pos hs
      | _ => cases hm
    show (o.writeMsg m).writes ms = o
    rw [hm]
    exact ih fun m' hm' => hms m' (List.mem_cons_of_mem _ hm')

section Redirect

variable {url t : Bytes} {p : ℕ}

/-- The URL is copied inside the buffer. -/
lemma writeMsg_httpAt (hb : o.BufOk) (hmem : o.buffer.drop p = url ++ 0 :: t) (hnul : 0 ∉ url) (hlf : lf ∉ url)
    (hover : o.bufferEnd ≤ p) (hend : p + url.length + 2 ≤ bufferSize)
    (hcopy : Boa.Behind (p - o.bufferEnd) false url) :
    Wrote o (httpText url) (o.writeMsg (.httpAt p)) := by
  have hlen := length_httpText url
  have hroom := hcopy url.length le_rfl
  rw [List.take_length] at hroom
  have he : o.bufferEnd ≤ o.buffer.length := hb.end_len
  have hloop := (escapeHttpAt_start he hmem hnul hlf hover hend).1 hcopy
  have hwrite : o.writeMsg (.httpAt p) = o.append .queued (httpText url) := by
    show o.finishEscape (escapeHttpAt o.buffer o.bufferEnd (bufferSize + 1) p 0 []) = _
    rw [hloop, List.nil_append, finishEscape, if_neg (not_not.mpr rfl)]
    rfl
  rw [hwrite]
  refine ⟨append_bufOk hb _ (by omega), rfl, rfl, rfl, rfl, ?_, lost_snoc (by simp)⟩
  simp [append, produce]

/-- Or the copy runs into what it has written. -/
lemma writeMsg_httpAt_dead (hb : o.BufOk) (hmem : o.buffer.drop p = url ++ 0 :: t) (hnul : 0 ∉ url)
    (hlf : lf ∉ url) (hover : o.bufferEnd ≤ p) (hend : p + url.length + 2 ≤ bufferSize)
    (hcopy : ¬ Boa.Behind (p - o.bufferEnd) false url) :
    (o.writeMsg (.httpAt p)).status = .dead ∧
      ∃ x, lf ∉ x ∧ produced (o.writeMsg (.httpAt p)).trace = produced o.trace ++ x := by
  have he : o.bufferEnd ≤ o.buffer.length := hb.end_len
  have hloop := (escapeHttpAt_start he hmem hnul hlf hover hend).2 hcopy
  have hwrite : o.writeMsg (.httpAt p) =
      o.finishEscape (escapeHttpAt o.buffer o.bufferEnd (bufferSize + 1) p 0 []) := rfl
  generalize escapeHttpAt o.buffer o.bufferEnd (bufferSize + 1) p 0 [] = r at hloop hwrite
  rw [hwrite, finishEscape, if_pos hloop.1]
  refine ⟨rfl, r.1, hloop.2, ?_⟩
  show produced ((o.trace ++ [.queued r.1]) ++ [.noRoom]) = _
  rw [produced_snoc, produced_snoc]
  rfl

/-- Text that does not fit is not written. -/
lemma reqWrite_full {msg : Bytes} (hs : ¬ .done < o.status) (hne : msg ≠ [])
    (hroom : bufferSize < o.bufferEnd + msg.length) :
    (o.reqWrite msg).status = .dead ∧ produced (o.reqWrite msg).trace = produced o.trace := by
  unfold reqWrite
  rw [if_neg (by simp [hne, hs]), if_pos hroom]
  exact ⟨rfl, produced_snoc _ _⟩

/-- The calls that follow the URL. -/
def restMsgs (more : Msg) : List Msg := [.raw crlf, more, .raw (text "\r\n\r\n")]

/-- The header lines of the child are written as they were if they are still behind the output. -/
lemma restMsgs_kept {rest : Bytes} {more : Msg} (hb : o.BufOk) (hs : ¬ .done < o.status)
    (hmem : o.buffer.drop p = rest ++ 0 :: t) (hnul : 0 ∉ rest) (hover : o.bufferEnd + 2 ≤ p)
    (hend : p + rest.length ≤ bufferSize) (hmore : more = .rawAt p ∨ more = .raw [] ∧ rest = []) :
    ∃ y, produced (o.writes (restMsgs more)).trace = produced o.trace ++ (crlf ++ (rest ++ y)) ∧
      (o.bufferEnd + rest.length + 6 ≤ bufferSize ∧ y = text "\r\n\r\n" ∨
        bufferSize < o.bufferEnd + rest.length + 6 ∧ y = []) := by
  have hcrlf : crlf.length = 2 := rfl
  have hfour : (text "\r\n\r\n").length = 4 := by decide +kernel
  have h1 : Wrote o crlf (o.writeMsg (.raw crlf)) :=
    writeMsg_wrote hb hs (m := .raw crlf) rfl (by show o.bufferEnd + crlf.length ≤ bufferSize; omega)
  have hlast := h1.last
  have hkept : (o.writeMsg (.raw crlf)).buffer.drop p = rest ++ 0 :: t := by
    rw [(writeMsg_below o (.raw crlf)).drop p (by omega), hmem]
  have hmsg : (o.writeMsg (.raw crlf)).writeMsg more = (o.writeMsg (.raw crlf)).writeMsg (.raw rest) := by
    obtain rfl | ⟨rfl, rfl⟩ := hmore
    · show (o.writeMsg (.raw crlf)).reqWrite (cstr ((o.writeMsg (.raw crlf)).buffer.drop p)) = _
      rw [hkept, cstr_append_nul hnul]
      rfl
    · rfl
  have hwrites : o.writes (restMsgs more) = o.writes [.raw crlf, .raw rest, .raw (text "\r\n\r\n")] := by
    show ((o.writeMsg (.raw crlf)).writeMsg more).writeMsg (.raw (text "\r\n\r\n")) = _
    rw [hmsg]
    rfl
  have h2 := h1.trans (writeMsg_wrote h1.toBufOk (by rw [h1.status]; exact hs) (m := .raw rest) rfl
    (by show (o.writeMsg (.raw crlf)).bufferEnd + rest.length ≤ bufferSize; omega))
  have hrest : (crlf ++ (Msg.raw rest).bytes).length = 2 + rest.length := by rw [List.length_append]; rfl
  rw [hwrites]
  show ∃ y, produced (((o.writeMsg (.raw crlf)).writeMsg (.raw rest)).writeMsg
    (.raw (text "\r\n\r\n"))).trace = _ ∧ _
  have hend2 := h2.last
  have hs2 : ¬ .done < ((o.writeMsg (.raw crlf)).writeMsg (.raw rest)).status := by
    rw [h2.status]
    exact hs
  by_cases hfit : o.bufferEnd + rest.length + 6 ≤ bufferSize
  · have h3 := h2.trans (writeMsg_wrote h2.toBufOk hs2 (m := .raw (text "\r\n\r\n")) rfl
      (by show _ + (text "\r\n\r\n").length ≤ bufferSize; omega))
    refine ⟨text "\r\n\r\n", ?_, .inl ⟨hfit, rfl⟩⟩
    rw [h3.out, List.append_assoc crlf]
    rfl
  · have h3 := reqWrite_full hs2 (show text "\r\n\r\n" ≠ [] by decide +kernel) (by omega)
    refine ⟨[], ?_, .inr ⟨by omega, rfl⟩⟩
    rw [List.append_nil]
    exact h3.2.trans h2.out

/-- If the line end behind the URL is written over them, the text they are read from starts with it. -/
lemma restMsgs_covered (hb : o.BufOk) (hs : ¬ .done < o.status) (hroom : o.bufferEnd + 2 ≤ bufferSize) :
    ∃ y, produced (o.writes (restMsgs (.rawAt (o.bufferEnd + 1)))).trace = produced o.trace ++ (crlf ++ y) ∧
      (y = [] ∨ ∃ z, y = lf :: z) := by
  have h1 : Wrote o crlf (o.writeMsg (.raw crlf)) := writeMsg_wrote hb hs (m := .raw crlf) rfl hroom
  have hs1 : ¬ .done < (o.writeMsg (.raw crlf)).status := by
    rw [h1.status]
    exact hs
  have hbuffer : (o.writeMsg (.raw crlf)).buffer = store o.buffer o.bufferEnd crlf := by
    have hraw : o.writeMsg (.raw crlf) = o.append .queued crlf := by
      show o.reqWrite crlf = _
      unfold reqWrite
      rw [if_neg (by simp [hs, crlf]), if_neg (by exact not_lt.mpr hroom)]
    rw [hraw]
    rfl
  have he : o.bufferEnd ≤ o.buffer.length := hb.end_len
  obtain ⟨z, hz⟩ : ∃ z, cstr ((o.writeMsg (.raw crlf)).buffer.drop (o.bufferEnd + 1)) = lf :: z := by
    have hlen : (o.buffer.take o.bufferEnd).length = o.bufferEnd := by simp [he]
    have hdrop : (store o.buffer o.bufferEnd crlf).drop (o.bufferEnd + 1) =
        lf :: o.buffer.drop (o.bufferEnd + 2) := by
      rw [store_of_le _ he, List.append_assoc, List.drop_append, List.drop_eq_nil_of_le (by omega), hlen,
        Nat.add_sub_cancel_left]
      rfl
    rw [hbuffer, hdrop]
    exact ⟨_, rfl⟩
  have hmore : (o.writeMsg (.raw crlf)).writeMsg (.rawAt (o.bufferEnd + 1)) =
      (o.writeMsg (.raw crlf)).reqWrite (lf :: z) := by
    rw [← hz]
    rfl
  show ∃ y, produced (((o.writeMsg (.raw crlf)).writeMsg (.rawAt (o.bufferEnd + 1))).writeMsg
    (.raw (text "\r\n\r\n"))).trace = _ ∧ _
  rw [hmore]
  by_cases hfit : (o.writeMsg (.raw crlf)).bufferEnd + (lf :: z).length ≤ bufferSize
  · have h2 := h1.trans (writeMsg_wrote h1.toBufOk hs1 (m := .raw (lf :: z)) rfl hfit)
    have hreplies : Replies (fun _ => True) (fun _ => True) ((o.writeMsg (.raw crlf)).reqWrite (lf :: z)) _ :=
      writeMsg_replies _ (.raw (text "\r\n\r\n")) (fun _ _ => trivial) (fun _ _ => trivial)
    obtain ⟨y, hy⟩ := produced_replies hreplies
    refine ⟨lf :: z ++ y, ?_, .inr ⟨z ++ y, rfl⟩⟩
    rw [hy]
    have hout : produced ((o.writeMsg (.raw crlf)).reqWrite (lf :: z)).trace =
        produced o.trace ++ (crlf ++ lf :: z) := h2.out
    rw [hout, List.append_assoc, List.append_assoc]
  · have h2 := reqWrite_full hs1 (List.cons_ne_nil lf z) (not_le.mp hfit)
    have hdead : Status.done < ((o.writeMsg (.raw crlf)).reqWrite (lf :: z)).status := by
      rw [h2.1]
      decide
    refine ⟨[], ?_, .inl rfl⟩
    rw [List.append_nil, ← h1.out, ← h2.2]
    have hplain : ∀ m ∈ [Msg.raw (text "\r\n\r\n")], m.unescaped := by simp [Msg.unescaped]
    exact congrArg (fun o : Out => produced o.trace) (writes_dead hdead hplain)

end Redirect

end Out

/-! ### The memory that is read -/

section Layout

variable {mem out t : Bytes} {p : ℕ}

/-- A store into a text. -/
lemma drop_store_overlap (hp : p ≤ mem.length) (hmem : mem.drop p = out ++ t) {i : ℕ} (hi : i < out.length)
    (b : UInt8) : (store mem (p + i) [b]).drop p = out.take i ++ b :: (out.drop (i + 1) ++ t) := by
  have hlen : mem.length = p + (out.length + t.length) := by
    have h := congrArg List.length hmem
    rw [List.length_drop, List.length_append] at h
    omega
  have htake : (mem.take (p + i)).drop p = out.take i := by
    rw [← List.take_drop, hmem, List.take_append_of_le_length hi.le]
  have hdrop : mem.drop (p + i + 1) = out.drop (i + 1) ++ t := by
    rw [Nat.add_assoc, ← List.drop_drop, hmem, List.drop_append_of_le_length (by omega)]
  rw [store_of_le _ (by omega), List.length_singleton, hdrop, List.append_assoc,
    List.drop_append_of_le_length (by rw [List.length_take]; omega), htake]
  rfl

lemma takeWhile_append_nul {s : Bytes} (n : ℕ) (hn : s.length ≤ n) :
    ((s ++ 0 :: t).take n).takeWhile (fun b => b = lf ∨ b = cr) = s.takeWhile (fun b => b = lf ∨ b = cr) := by
  induction s generalizing n with
  | nil => cases n <;> simp [lf, cr]
  | cons b s ih =>
    obtain ⟨n, rfl⟩ : ∃ k, n = k + 1 := ⟨n - 1, by simp only [List.length_cons] at hn; omega⟩
    rw [List.cons_append, List.take_succ_cons, List.takeWhile_cons, List.takeWhile_cons,
      ih n (by simpa using hn)]

end Layout

/-! ### The header section of the answer -/

namespace Request

/-- What `read_from_pipe` hands over: it lies behind the first half of the buffer, which is empty, and
a NUL is behind it. -/
structure CgiCall (c : Request) : Prop where
  size : c.buffer.length = bufferSize + 1
  empty : c.bufferStart = 0 ∧ c.bufferEnd = 0
  alive : ¬ .done < c.status
  first : c.headerLine.off = bufferSize / 2
  last : bufferSize / 2 ≤ c.headerEnd.off ∧ c.headerEnd.off ≤ bufferSize
  closed : c.buffer[c.headerEnd.off]? = some 0
  version : c.httpVersion ≠ .http09

/-- The output of the child, as a string. -/
def childText (c : Request) : Bytes := cstr (c.buffer.drop c.headerLine.off)

/-- The calls by which `send_r_moved_temp` writes the header section. -/
def movedMsgs (env : Env) (c : Request) (http more : Msg) : List Msg :=
  c.serverMsgs env ++ ([.raw (text "Location: "), http] ++ Out.restMsgs more)

/-- The output with the terminator behind the URL. -/
def terminated (c : Request) : Out :=
  { c.toOut with buffer := store c.buffer (c.headerLine.off + locationEnd c.childText) [0] }

@[simp] lemma terminated_bufferStart (c : Request) : c.terminated.bufferStart = c.bufferStart := by
  rw [terminated]

@[simp] lemma terminated_bufferEnd (c : Request) : c.terminated.bufferEnd = c.bufferEnd := by
  rw [terminated]

@[simp] lemma terminated_status (c : Request) : c.terminated.status = c.status := by
  rw [terminated]

@[simp] lemma terminated_trace (c : Request) : c.terminated.trace = c.trace := by
  rw [terminated]

/-- Where the first of the further header lines is read. -/
def nextHeader (c : Request) : ℕ :=
  let e := c.headerLine.off + locationEnd c.childText
  e + 1 + ((slice c.terminated.buffer (e + 1) c.headerEnd.off).takeWhile (fun b => b = lf ∨ b = cr)).length

/-- The call that writes the further header lines of the child. -/
def moreHeader (c : Request) : Msg := if c.nextHeader = c.headerEnd.off then .raw [] else .rawAt c.nextHeader

/-- The text of the header section. -/
def movedHead (env : Env) (c : Request) : Bytes :=
  (produced (c.terminated.writes (c.movedMsgs env (.httpAt (c.headerLine.off + 10)) c.moreHeader)).trace).drop
    (produced c.trace).length

/-- The answer starts with the header section, which has the lines of the server, the Location line with
the URL, and the other header lines of the child. -/
structure RedirectRight (env : Env) (c : Request) : Prop where
  starts : produced c.trace ++ c.movedHead env <+: produced (c.processCgiHeader env).1.trace
  lines : headLines (c.movedHead env) = some (blockLines (c.serverHead env) ++
    (text "Location: " ++ httpText (redirectUrl c.childText) ++ [cr]) :: ((headLines c.childText).getD []).tail)

/-- The escaped URL never runs into what is still to be read. Behind the line comes a header line, which
is not written over, or a blank line and no text, with room for the end of the header. -/
structure Apart (env : Env) (c : Request) : Prop where
  copy : Behind (bufferSize / 2 - (c.serverHead env).length) false (redirectUrl c.childText)
  next : ((∃ b ∈ (behindLine c.childText).head?, b ≠ cr ∧ b ≠ lf) ∧
      (c.serverHead env).length + escapedSize false (redirectUrl c.childText) + 11 ≤
        bufferSize / 2 + lineEnd c.childText) ∨
    (StartsBlank (behindLine c.childText) ∧ (∀ b ∈ behindLine c.childText, b = lf ∨ b = cr) ∧
      (c.serverHead env).length + escapedSize false (redirectUrl c.childText) + 16 ≤ bufferSize)

section Call

variable {env : Env} {c : Request}

/-- What is left of the first line and behind it once the URL has a terminator. -/
def cutText (c : Request) : Bytes := c.childText.drop (locationEnd c.childText + 1)

/-- The output of the child ends in front of the NUL, and the first line inside it. -/
lemma CgiCall.ends (hc : c.CgiCall) (hr : Redirects c.childText) :
    locationEnd c.childText < c.childText.length ∧ bufferSize / 2 + c.childText.length ≤ c.headerEnd.off ∧
      ∃ t, c.buffer.drop c.headerLine.off = c.childText ++ 0 :: t := by
  obtain ⟨hlow, hhigh⟩ := hc.last
  have hat : (c.buffer.drop c.headerLine.off)[c.headerEnd.off - bufferSize / 2]? = some 0 := by
    rw [hc.first, List.getElem?_drop, Nat.add_sub_cancel' hlow, hc.closed]
  have hlen : c.childText.length ≤ c.headerEnd.off - bufferSize / 2 := length_cstr_le hat
  obtain ⟨k, hk⟩ := Option.ne_none_iff_exists'.mp hr.ended
  exact ⟨locationEnd_lt (findBlankLine_spec hk).1 hr.named, by omega,
    exists_cstr_append (List.mem_of_getElem? hat)⟩

/-- The URL, the terminator and what is behind it. -/
lemma CgiCall.layout (hc : c.CgiCall) (hr : Redirects c.childText) :
    ∃ t, c.terminated.buffer.drop (bufferSize / 2 + 10) =
        redirectUrl c.childText ++ 0 :: (c.cutText ++ 0 :: t) ∧
      c.terminated.buffer.drop c.nextHeader = skipEnds c.cutText ++ 0 :: t ∧
      c.nextHeader = bufferSize / 2 + locationEnd c.childText + 1 +
        (c.cutText.takeWhile (fun b => b = lf ∨ b = cr)).length := by
  obtain ⟨hlt, hlen, t, ht⟩ := hc.ends hr
  have hten : 10 ≤ locationEnd c.childText := by
    obtain ⟨name, k, hparts⟩ := hr.parts
    rw [hparts.locationEnd]
    exact Nat.le_add_right _ _
  have hsize := hc.size
  have hdrop : c.terminated.buffer.drop (bufferSize / 2) =
      c.childText.take (locationEnd c.childText) ++ 0 :: (c.cutText ++ 0 :: t) := by
    rw [← hc.first]
    exact drop_store_overlap (by rw [hc.first, hsize]; omega) ht hlt 0
  have htake : (c.childText.take (locationEnd c.childText)).length = locationEnd c.childText := by
    rw [List.length_take]
    omega
  have hrest : c.terminated.buffer.drop (bufferSize / 2 + locationEnd c.childText + 1) = c.cutText ++ 0 :: t := by
    rw [Nat.add_assoc, ← List.drop_drop, hdrop, List.drop_append, List.drop_eq_nil_of_le (by omega), htake,
      Nat.add_sub_cancel_left]
    rfl
  have hnext : c.nextHeader = bufferSize / 2 + locationEnd c.childText + 1 +
      (c.cutText.takeWhile (fun b => b = lf ∨ b = cr)).length := by
    unfold nextHeader slice
    dsimp only
    rw [hc.first, hrest, takeWhile_append_nul]
    simp only [cutText, List.length_drop]
    omega
  refine ⟨t, ?_, ?_, hnext⟩
  · rw [← List.drop_drop, hdrop, List.drop_append_of_le_length (by omega), List.drop_take]
    rfl
  · have hsplit : c.cutText ++ 0 :: t = c.cutText.takeWhile (fun b => b = lf ∨ b = cr) ++
        (skipEnds c.cutText ++ 0 :: t) := by
      rw [skipEnds, ← List.append_assoc, List.takeWhile_append_dropWhile]
    rw [hnext, ← List.drop_drop, hrest, hsplit, List.drop_left]

/-- A redirect is no status line. -/
lemma not_status_of_location {out : Bytes} (h : startsWithCase (text "Location: ") out) :
    ¬ startsWithCase (text "Status: ") out := by
  intro hs
  have h10 := cgiNames.1
  have h8 := cgiNames.2.1
  have h1 := beq_iff_eq.mp h
  have h2 := beq_iff_eq.mp hs
  have htake : (out.take 10).take 8 = out.take 8 := List.take_take
  rw [h10] at h1
  rw [h8, ← htake, List.map_take, h1] at h2
  exact absurd h2 (by decide +kernel)

lemma sendR_trace {code : ℕ} {line : String} {header body : List Msg} (hv : c.httpVersion ≠ .http09) :
    (c.sendR env code line header body).trace =
      ((c.toOut.writes ({ c.squashKa with responseStatus := code }.statusLine line ++
        { c.squashKa with responseStatus := code }.printHttpHeaders env ++ header)).writes
          (if c.method ≠ .head then body else [])).reqFlush.1.trace := by
  have hv' : ¬ { c.squashKa with responseStatus := code }.httpVersion = .http09 := hv
  unfold sendR
  simp only [ne_eq, hv', not_false_eq_true, if_true]
  by_cases hm : c.method = .head
  · have hm' : ({ c.squashKa with responseStatus := code }.writes
        ({ c.squashKa with responseStatus := code }.statusLine line ++
          { c.squashKa with responseStatus := code }.printHttpHeaders env ++ header)).method = .head := hm
    simp only [hm, hm', not_true_eq_false, if_false]
    rfl
  · have hm' : ¬ ({ c.squashKa with responseStatus := code }.writes
        ({ c.squashKa with responseStatus := code }.statusLine line ++
          { c.squashKa with responseStatus := code }.printHttpHeaders env ++ header)).method = .head := hm
    simp only [hm, hm', not_false_eq_true, if_true]
    rfl

/-- Behind the header section comes the body, unless the request is a HEAD. -/
lemma processCgiHeader_redirect (env : Env) (hc : c.CgiCall) (hr : Redirects c.childText) :
    ∃ body : List Msg, (∀ m ∈ body, m.isText) ∧ (c.processCgiHeader env).1.trace =
      ((c.terminated.writes (c.movedMsgs env (.httpAt (c.headerLine.off + 10)) c.moreHeader)).writes
        body).reqFlush.1.trace := by
  obtain ⟨k, hk⟩ := Option.ne_none_iff_exists'.mp hr.ended
  have hk : findBlankLine (cstr (c.buffer.drop c.headerLine.off)) = some k := hk
  have hstatus : ¬ startsWithCase (text "Status: ") (cstr (c.buffer.drop c.headerLine.off)) :=
    not_status_of_location hr.named
  have hnamed : startsWithCase (text "Location: ") (cstr (c.buffer.drop c.headerLine.off)) := hr.named
  have hslash : ¬ (cstr (c.buffer.drop c.headerLine.off)).getD 10 0 = slash := hr.remote
  have hversion : ¬ c.httpVersion = .http09 := hc.version
  refine ⟨if c.method ≠ .head then
    [.raw (text "<HTML><HEAD><TITLE>302 Moved Temporarily</TITLE></HEAD>\n<BODY>\n<H1>302 Moved</H1>The document has moved\n<A HREF=\""),
      .htmlAt (c.headerLine.off + 10), .raw (text "\">here</A>.\n</BODY></HTML>\n")] else [], ?_, ?_⟩
  · split_ifs <;> simp [Msg.isText]
  · have hd : ∃ s, (if c.cgiStatus = .done then c else { c with cgiStatus := .buffer }) = { c with cgiStatus := s } := by
      split_ifs
      · exact ⟨c.cgiStatus, rfl⟩
      · exact ⟨.buffer, rfl⟩
    obtain ⟨s, hd⟩ := hd
    have hmsgs : { c with cgiStatus := s }.moved.statusLine " 302 Moved Temporarily\r\n" ++
        { c with cgiStatus := s }.moved.printHttpHeaders env ++
        (htmlType ++ [.raw (text "Location: "), .httpAt (c.headerLine.off + 10), .raw crlf, c.moreHeader,
          .raw (text "\r\n\r\n")]) = c.movedMsgs env (.httpAt (c.headerLine.off + 10)) c.moreHeader := by
      rw [← List.append_assoc]
      rfl
    unfold processCgiHeader
    rw [hd]
    dsimp only
    rw [hk]
    dsimp only
    rw [if_neg hversion, if_neg hstatus, if_pos hnamed, if_neg hslash]
    show (cgiLocation env { c with cgiStatus := s } _).trace = _
    unfold cgiLocation movedTemp
    dsimp only
    rw [sendR_trace (by exact hversion), ← hmsgs]
    rfl

lemma movedHead_eq (env : Env) (c : Request) :
    produced (c.terminated.writes (c.movedMsgs env (.httpAt (c.headerLine.off + 10)) c.moreHeader)).trace =
      produced c.trace ++ c.movedHead env := by
  have hreplies : Out.Replies (fun _ => True) (fun _ => True) c.terminated _ :=
    Out.writes_replies _ (c.movedMsgs env (.httpAt (c.headerLine.off + 10)) c.moreHeader)
      (fun _ _ => trivial) (fun _ _ => trivial)
  obtain ⟨y, hy⟩ := Out.produced_replies hreplies
  rw [terminated_trace] at hy
  rw [movedHead, hy, List.drop_left]

/-- The answer starts with the header section. -/
lemma movedHead_starts (env : Env) (hc : c.CgiCall) (hr : Redirects c.childText) :
    produced c.trace ++ c.movedHead env <+: produced (c.processCgiHeader env).1.trace := by
  obtain ⟨body, -, htrace⟩ := processCgiHeader_redirect env hc hr
  rw [htrace, ← movedHead_eq]
  generalize c.terminated.writes (c.movedMsgs env (.httpAt (c.headerLine.off + 10)) c.moreHeader) = o
  have hbody : Out.Replies (fun _ => True) (fun _ => True) o (o.writes body).reqFlush.1 :=
    (Out.writes_replies o body (fun _ _ => trivial) (fun _ _ => trivial)).trans (Out.reqFlush_replies _)
  obtain ⟨y, hy⟩ := Out.produced_replies hbody
  exact ⟨y, hy.symm⟩

/-- The text in front of the URL. -/
def beforeUrl (env : Env) (c : Request) : Bytes := c.serverHead env ++ text "Location: "

lemma length_beforeUrl (env : Env) (c : Request) :
    (c.beforeUrl env).length = (c.serverHead env).length + 10 := by
  have h10 := cgiNames.1
  rw [beforeUrl, List.length_append, h10]

/-- It is written below the output of the child. -/
lemma CgiCall.wrote (env : Env) (hc : c.CgiCall) (hr : Redirects c.childText) : ∃ o, Out.Wrote c.terminated (c.beforeUrl env) o ∧
    Out.Below c.terminated o ∧ ∀ http more, c.terminated.writes (c.movedMsgs env http more) =
      (o.writeMsg http).writes (Out.restMsgs more) := by
  have hsize := hc.size
  have hfirst := hc.first
  have hlen := length_serverHead env c
  obtain ⟨hlt, hbelow, -⟩ := hc.ends hr
  obtain ⟨hlow, hhigh⟩ := hc.last
  have h2048 : bufferSize / 2 = 2048 := by decide
  have hbuf : c.terminated.BufOk := by
    refine ⟨?_, ?_, ?_⟩
    · rw [terminated_bufferStart, hc.empty.1]
      exact Nat.zero_le _
    · rw [terminated_bufferEnd, hc.empty.2]
      exact Nat.zero_le _
    · rw [terminated, length_store _ (by omega), hsize, List.length_singleton]
      omega
  have hmsgs : ∀ m ∈ c.serverMsgs env ++ [.raw (text "Location: ")], m.plain := by
    intro m hm
    rcases List.mem_append.mp hm with hm | hm
    · exact serverMsgs_plain env c m hm
    · rw [List.mem_singleton.mp hm]
      rfl
  have htext : msgText (c.serverMsgs env ++ [.raw (text "Location: ")]) = c.beforeUrl env := by
    have hone : msgText [.raw (text "Location: ")] = text "Location: " := List.append_nil _
    rw [msgText_append, hone, beforeUrl, serverHead]
  have hend : c.terminated.bufferEnd = 0 := by rw [terminated_bufferEnd, hc.empty.2]
  have halive : ¬ .done < c.terminated.status := by
    rw [terminated_status]
    exact hc.alive
  have hwrote := Out.writes_wrote hbuf halive hmsgs (by
    rw [htext, length_beforeUrl, hend]
    omega)
  rw [htext] at hwrote
  refine ⟨_, hwrote, Out.writes_below _ _, fun http more => ?_⟩
  have hmoved : c.movedMsgs env http more =
      (c.serverMsgs env ++ [.raw (text "Location: ")]) ++ ([http] ++ Out.restMsgs more) := by
    rw [movedMsgs, List.append_assoc]
    rfl
  rw [hmoved, Out.writes_append, Out.writes_append]
  rfl

/-- The Location line of the answer. -/
def locationLine (c : Request) : Bytes := text "Location: " ++ httpText (redirectUrl c.childText) ++ [cr]

/-- The lines in front of what follows the URL. -/
lemma headLines_moved (env : Env) (hr : Redirects c.childText) (s : Bytes) :
    headLines (c.beforeUrl env ++ (httpText (redirectUrl c.childText) ++ (crlf ++ s))) =
      (headLines s).map (blockLines (c.serverHead env) ++ c.locationLine :: ·) := by
  obtain ⟨name, k, hparts⟩ := hr.parts
  have hname : lf ∉ text "Location: " := by decide +kernel
  have hno : lf ∉ c.locationLine := by
    simp only [locationLine, List.mem_append, List.mem_singleton, not_or]
    exact ⟨⟨hname, lf_not_mem_escapeHttpLoop (Nat.zero_le 2) hparts.urlLf⟩, by decide⟩
  have hblank : ¬ IsBlank c.locationLine := by
    have h10 := cgiNames.1
    rintro (h | h) <;>
    · have := congrArg List.length h
      simp only [locationLine, List.length_append, h10, List.length_nil, List.length_singleton] at this
      omega
  have hsplit : c.beforeUrl env ++ (httpText (redirectUrl c.childText) ++ (crlf ++ s)) =
      c.serverHead env ++ (c.locationLine ++ lf :: s) := by
    simp [beforeUrl, locationLine, crlf]
  rw [hsplit, (serverHead_block env c).headLines, headLines_line hno, if_neg hblank, Option.map_map]
  rfl

/-- There are none if the text ends in the URL. -/
lemma headLines_cut (env : Env) (c : Request) {x : Bytes} (hx : lf ∉ x) :
    headLines (c.beforeUrl env ++ x) = none := by
  have hname : lf ∉ text "Location: " := by decide +kernel
  have hno : lf ∉ text "Location: " ++ x := by
    simp only [List.mem_append, not_or]
    exact ⟨hname, hx⟩
  rw [beforeUrl, List.append_assoc, (serverHead_block env c).headLines, headLines_eq_none hno]
  rfl

/-- How far the text reaches, and where the further header lines of the child start. -/
lemma CgiCall.next (hc : c.CgiCall) (hr : Redirects c.childText) :
    bufferSize / 2 + lineEnd c.childText + 1 + (behindLine c.childText).length ≤ bufferSize ∧
      c.nextHeader + (skipEnds (behindLine c.childText)).length =
        bufferSize / 2 + lineEnd c.childText + 1 + (behindLine c.childText).length ∧
      c.nextHeader + (skipEnds (behindLine c.childText)).length ≤ c.headerEnd.off ∧
      behindLine c.childText ≠ [] := by
  obtain ⟨name, k, hparts⟩ := hr.parts
  obtain ⟨hlt, hbelow, -⟩ := hc.ends hr
  obtain ⟨t, -, -, hnext⟩ := hc.layout hr
  have hlen : c.childText.length = lineEnd c.childText + 1 + (behindLine c.childText).length := by
    rw [hparts.lineEnd]
    nth_rewrite 1 [hparts.eq]
    simp only [List.length_append, List.length_replicate, List.length_cons, hparts.ten]
    omega
  have hcut : (c.cutText.takeWhile (fun b => b = lf ∨ b = cr)).length +
      (skipEnds (behindLine c.childText)).length = c.childText.length - (locationEnd c.childText + 1) := by
    have hsplit := congrArg List.length
      (List.takeWhile_append_dropWhile (p := fun b => decide (b = lf ∨ b = cr)) (l := c.cutText))
    rw [List.length_append] at hsplit
    rw [← hparts.skipEnds, ← List.length_drop]
    exact hsplit
  have hlast := hc.last.2
  refine ⟨by omega, by omega, by omega, fun hnil => ?_⟩
  have hlines := hr.headLines_ne_none
  rw [hparts.headLines, hnil] at hlines
  exact hlines rfl

/-- The URL as it lies behind what is written, and the room for it. -/
structure Opened (c : Request) (o : Out) (t : Bytes) : Prop extends Out.BufOk o where
  alive : ¬ .done < o.status
  url : o.buffer.drop (bufferSize / 2 + 10) = redirectUrl c.childText ++ 0 :: (c.cutText ++ 0 :: t)
  next : o.bufferEnd ≤ c.nextHeader → o.buffer.drop c.nextHeader = skipEnds (behindLine c.childText) ++ 0 :: t
  urlNul : 0 ∉ redirectUrl c.childText
  urlLf : lf ∉ redirectUrl c.childText
  room : bufferSize / 2 + 10 + (redirectUrl c.childText).length + 2 ≤ bufferSize

/-- The output in front of the URL. -/
lemma CgiCall.opened (env : Env) (hc : c.CgiCall) (hr : Redirects c.childText) : ∃ o t, c.Opened o t ∧
    o.bufferEnd = (c.serverHead env).length + 10 ∧
    ∀ y, produced ((o.writeMsg (.httpAt (bufferSize / 2 + 10))).writes (Out.restMsgs c.moreHeader)).trace =
      produced o.trace ++ y → c.movedHead env = c.beforeUrl env ++ y := by
  obtain ⟨name, k, hparts⟩ := hr.parts
  obtain ⟨t, hurl, hrest, -⟩ := hc.layout hr
  obtain ⟨o, hwrote, hsame, hwrites⟩ := hc.wrote env hr
  obtain ⟨hroom, -, -, hne⟩ := hc.next hr
  have hpos := List.length_pos_iff.mpr hne
  have hhead := length_serverHead env c
  have hline := hparts.lineEnd
  have hstart : o.bufferEnd = (c.serverHead env).length + 10 := by
    rw [hwrote.last, terminated_bufferEnd, hc.empty.2, length_beforeUrl, Nat.zero_add]
  refine ⟨o, t, ⟨hwrote.toBufOk, ?_, ?_, ?_, ?_, hparts.urlLf, by omega⟩, hstart, ?_⟩
  · rw [hwrote.status, terminated_status]
    exact hc.alive
  · rw [hsame.drop _ (by omega), hurl]
  · intro hle
    rw [hsame.drop _ hle, hrest, cutText, hparts.skipEnds]
  · intro hm
    have hout : 0 ∈ c.childText := by
      rw [hparts.eq]
      simp [hm]
    exact cstr_nul (c.buffer.drop c.headerLine.off) hout
  · intro y hy
    have hall := movedHead_eq env c
    rw [hwrites, hc.first, hy, hwrote.out, terminated_trace, List.append_assoc] at hall
    exact (List.append_cancel_left hall).symm

/-- The output once the URL is copied. -/
lemma CgiCall.copied (hc : c.CgiCall) (hr : Redirects c.childText)
    (hcopy : Behind (bufferSize / 2 - (c.serverHead env).length) false (redirectUrl c.childText)) :
    ∃ (o : Out) (t : Bytes), o.BufOk ∧ ¬ .done < o.status ∧
      o.bufferEnd = (c.serverHead env).length + 10 + escapedSize false (redirectUrl c.childText) ∧
      (o.bufferEnd ≤ c.nextHeader →
        o.buffer.drop c.nextHeader = skipEnds (behindLine c.childText) ++ 0 :: t) ∧
      ∀ y, produced (o.writes (Out.restMsgs c.moreHeader)).trace = produced o.trace ++ y →
        c.movedHead env = c.beforeUrl env ++ (httpText (redirectUrl c.childText) ++ y) := by
  obtain ⟨o, t, ho, hstart, hwrites⟩ := hc.opened env hr
  have hhead := length_serverHead env c
  have hgap : bufferSize / 2 + 10 - o.bufferEnd = bufferSize / 2 - (c.serverHead env).length := by omega
  have h := Out.writeMsg_httpAt ho.toBufOk ho.url ho.urlNul ho.urlLf (by omega) ho.room (by rw [hgap]; exact hcopy)
  have hbelow := Out.writeMsg_below o (.httpAt (bufferSize / 2 + 10))
  refine ⟨o.writeMsg (.httpAt (bufferSize / 2 + 10)), t, h.toBufOk, ?_, ?_, ?_, ?_⟩
  · rw [h.status]
    exact ho.alive
  · rw [h.last, hstart, length_httpText]
  · intro hle
    rw [hbelow.drop _ hle, ho.next (hbelow.last.trans hle)]
  · intro y hy
    apply hwrites
    rw [hy, h.out, List.append_assoc]

/-- The header section has no end if the copy runs into what it has written. -/
lemma CgiCall.overtaken (hc : c.CgiCall) (hr : Redirects c.childText)
    (hcopy : ¬ Behind (bufferSize / 2 - (c.serverHead env).length) false (redirectUrl c.childText)) :
    headLines (c.movedHead env) = none := by
  obtain ⟨o, t, ho, hstart, hwrites⟩ := hc.opened env hr
  have hhead := length_serverHead env c
  have hgap : bufferSize / 2 + 10 - o.bufferEnd = bufferSize / 2 - (c.serverHead env).length := by omega
  obtain ⟨hdead, x, hx, hout⟩ := Out.writeMsg_httpAt_dead ho.toBufOk ho.url ho.urlNul ho.urlLf (by omega) ho.room
    (by rw [hgap]; exact hcopy)
  have hsame : (o.writeMsg (.httpAt (bufferSize / 2 + 10))).writes (Out.restMsgs c.moreHeader) =
      o.writeMsg (.httpAt (bufferSize / 2 + 10)) := by
    apply Out.writes_dead
    · rw [hdead]
      decide
    · unfold moreHeader Out.restMsgs
      split_ifs <;> simp [Msg.unescaped]
  rw [hwrites x (by rw [hsame, hout])]
  exact headLines_cut env c hx

/-- The lines of the header section are right if those behind the Location line are. -/
lemma lines_right_iff (env : Env) (hr : Redirects c.childText) {y : Bytes}
    (hy : c.movedHead env = c.beforeUrl env ++ (httpText (redirectUrl c.childText) ++ (crlf ++ y))) :
    headLines (c.movedHead env) = some (blockLines (c.serverHead env) ++
        c.locationLine :: ((headLines c.childText).getD []).tail) ↔
      headLines y = headLines (behindLine c.childText) := by
  obtain ⟨name, k, hparts⟩ := hr.parts
  have hsome := hr.headLines_ne_none
  rw [hparts.headLines] at hsome ⊢
  rw [hy, headLines_moved env hr]
  cases hrest : headLines (behindLine c.childText) with
  | none =>
    rw [hrest] at hsome
    exact absurd rfl hsome
  | some ls => cases headLines y <;> simp

/-- A line starts right behind the first one exactly if nothing is skipped there. -/
lemma CgiCall.next_eq_iff (hc : c.CgiCall) (hr : Redirects c.childText) :
    c.nextHeader = bufferSize / 2 + lineEnd c.childText + 1 ↔
      ∃ b ∈ (behindLine c.childText).head?, b ≠ cr ∧ b ≠ lf := by
  obtain ⟨-, hnext, -, hne⟩ := hc.next hr
  rw [← length_skipEnds_iff hne]
  omega

/-- The header lines of the child are taken over where they are still there. -/
lemma CgiCall.right_of_behind (hc : c.CgiCall) (hr : Redirects c.childText)
    (hcopy : Behind (bufferSize / 2 - (c.serverHead env).length) false (redirectUrl c.childText))
    (hover : (c.serverHead env).length + 10 + escapedSize false (redirectUrl c.childText) + 2 ≤ c.nextHeader) :
    headLines (c.movedHead env) = some (blockLines (c.serverHead env) ++
        c.locationLine :: ((headLines c.childText).getD []).tail) ↔
      (∃ b ∈ (behindLine c.childText).head?, b ≠ cr ∧ b ≠ lf) ∨
        (StartsBlank (behindLine c.childText) ∧ (∀ b ∈ behindLine c.childText, b = lf ∨ b = cr) ∧
          (c.serverHead env).length + escapedSize false (redirectUrl c.childText) + 16 ≤ bufferSize) := by
  obtain ⟨name, k, hparts⟩ := hr.parts
  obtain ⟨-, -, hin, hne⟩ := hc.next hr
  obtain ⟨o, t, hb, hs, hend, hmem, hwrites⟩ := hc.copied hr hcopy
  have hlast := hc.last.2
  have hnul : 0 ∉ skipEnds (behindLine c.childText) := by
    intro hm
    have hrest : 0 ∈ c.childText := by
      rw [hparts.eq]
      simp [(List.dropWhile_suffix _).subset hm]
    exact cstr_nul (c.buffer.drop c.headerLine.off) hrest
  have hmore : c.moreHeader = .rawAt c.nextHeader ∨
      c.moreHeader = .raw [] ∧ skipEnds (behindLine c.childText) = [] := by
    unfold moreHeader
    split_ifs
    · exact .inr ⟨rfl, List.eq_nil_of_length_eq_zero (by omega)⟩
    · exact .inl rfl
  obtain ⟨y, hout, hy⟩ := Out.restMsgs_kept hb hs (hmem (by omega)) hnul (by omega) (by omega) hmore
  have hsome : headLines (behindLine c.childText) ≠ none := by
    intro hnone
    apply hr.headLines_ne_none
    rw [hparts.headLines, hnone]
    rfl
  rw [lines_right_iff env hr (hwrites _ hout)]
  by_cases hskip : skipEnds (behindLine c.childText) = []
  · -- no text is left: the lines are right if there was to be none
    have hall := skipEnds_eq_nil_iff.mp hskip
    have hno : ¬ ∃ b ∈ (behindLine c.childText).head?, b ≠ cr ∧ b ≠ lf := by
      rintro ⟨b, hb, hcr, hlf⟩
      exact (hall b (List.mem_of_mem_head? hb)).elim hlf hcr
    rw [hskip, List.length_nil] at hy
    rw [hskip, List.nil_append, or_iff_right hno]
    obtain ⟨hfit, rfl⟩ | ⟨hfull, rfl⟩ := hy
    · have hblank : headLines (text "\r\n\r\n") = some [] := by decide +kernel
      rw [hblank, eq_comm, headLines_eq_nil_iff]
      exact ⟨fun h => ⟨h, hall, by omega⟩, fun h => h.1⟩
    · exact iff_of_false (fun h => hsome h.symm) fun h => absurd h.2.2 (by omega)
  · have hno : ¬ ∀ b ∈ behindLine c.childText, b = lf ∨ b = cr := fun h => hskip (skipEnds_eq_nil_iff.mpr h)
    rw [headLines_skip_iff hsome y hskip]
    exact (or_iff_left fun h => hno h.2.1).symm

/-- They are written over if the output reaches them. -/
lemma CgiCall.wrong_of_covered (hc : c.CgiCall) (hr : Redirects c.childText)
    (hcopy : Behind (bufferSize / 2 - (c.serverHead env).length) false (redirectUrl c.childText))
    (hover : c.nextHeader < (c.serverHead env).length + 10 + escapedSize false (redirectUrl c.childText) + 2) :
    headLines (c.movedHead env) ≠ some (blockLines (c.serverHead env) ++
        c.locationLine :: ((headLines c.childText).getD []).tail) := by
  obtain ⟨name, k, hparts⟩ := hr.parts
  obtain ⟨hroom, hnext, hin, hne⟩ := hc.next hr
  obtain ⟨o, t, hb, hs, hend, -, hwrites⟩ := hc.copied hr hcopy
  have hline := hparts.lineEnd
  have hhead := length_serverHead env c
  have hskip := length_skipEnds_le (behindLine c.childText)
  have hpos := List.length_pos_iff.mpr hne
  have hsize := hcopy _ le_rfl
  rw [List.take_length] at hsize
  have hat : c.nextHeader = o.bufferEnd + 1 := by omega
  obtain ⟨b, hb0, hcr, hlf⟩ := (hc.next_eq_iff hr).mp (by omega)
  have hmore : c.moreHeader = .rawAt (o.bufferEnd + 1) := by
    unfold moreHeader
    rw [if_neg (by omega), hat]
  obtain ⟨y, hout, hy⟩ := Out.restMsgs_covered hb hs (by omega)
  rw [← hmore] at hout
  rw [ne_eq, lines_right_iff env hr (hwrites _ hout)]
  intro h
  obtain rfl | ⟨z, rfl⟩ := hy
  · apply hr.headLines_ne_none
    rw [hparts.headLines, ← h]
    rfl
  · have hblank : headLines (lf :: z) = some [] := headLines_eq_nil_iff.mpr (.inl ⟨z, rfl⟩)
    rw [hblank] at h
    obtain ⟨u, hu⟩ | ⟨u, hu⟩ := headLines_eq_nil_iff.mp h.symm
    · rw [← hu] at hb0
      exact hlf (Option.some.inj hb0).symm
    · rw [← hu] at hb0
      exact hcr (Option.some.inj hb0).symm

/-- The header section of the answer has the right lines, exactly if the output never runs into what
is still to be read, and no blank line of the child is skipped before its text. -/
theorem redirectRight_iff (env : Env) (hc : c.CgiCall) (hr : Redirects c.childText) :
    RedirectRight env c ↔ Apart env c := by
  have hlines : RedirectRight env c ↔ headLines (c.movedHead env) = some (blockLines (c.serverHead env) ++
      c.locationLine :: ((headLines c.childText).getD []).tail) :=
    ⟨fun h => h.lines, fun h => ⟨movedHead_starts env hc hr, h⟩⟩
  rw [hlines]
  by_cases hcopy : Behind (bufferSize / 2 - (c.serverHead env).length) false (redirectUrl c.childText)
  · obtain ⟨-, hnext, -, hne⟩ := hc.next hr
    have hle := length_skipEnds_le (behindLine c.childText)
    have hpos := List.length_pos_iff.mpr hne
    by_cases hover : (c.serverHead env).length + 10 + escapedSize false (redirectUrl c.childText) + 2 ≤ c.nextHeader
    · rw [hc.right_of_behind hr hcopy hover]
      constructor
      · rintro (hhead | hblank)
        · have hat := (hc.next_eq_iff hr).mpr hhead
          exact ⟨hcopy, .inl ⟨hhead, by omega⟩⟩
        · exact ⟨hcopy, .inr hblank⟩
      · rintro ⟨-, hhead | hblank⟩
        · exact .inl hhead.1
        · exact .inr hblank
    · refine iff_of_false (hc.wrong_of_covered hr hcopy (not_le.mp hover)) ?_
      rintro ⟨-, ⟨hhead, hfar⟩ | ⟨-, hall, -⟩⟩
      · have hat := (hc.next_eq_iff hr).mpr hhead
        omega
      · obtain ⟨name, k, hparts⟩ := hr.parts
        have hline := hparts.lineEnd
        have hhead := length_serverHead env c
        have hsize := hcopy _ le_rfl
        rw [List.take_length] at hsize
        rw [skipEnds_eq_nil_iff.mpr hall, List.length_nil] at hnext
        omega
  · refine iff_of_false (fun h => ?_) fun h => hcopy h.copy
    rw [hc.overtaken hr hcopy] at h
    cases h

end Call

end Request

/-- A call on a buffer that holds what a child has written. -/
def childCall (out : String) : Request :=
  { buffer := store (List.replicate (bufferSize + 1) 0) (bufferSize / 2) (text out)
    status := .pipeRead
    httpVersion := .http10
    headerLine := ⟨.buffer, bufferSize / 2⟩
    headerEnd := ⟨.buffer, bufferSize / 2 + (text out).length⟩ }

/-- A child that names another location and sends one more header line. -/
def redirectChild : Request := childCall "Location: http://x/\r\nX: y\r\n\r\nBODY: 1\n"

theorem redirectRight_iff_child :
    Request.RedirectRight tinyEnv redirectChild ↔ Request.Apart tinyEnv redirectChild :=
  Request.redirectRight_iff tinyEnv ⟨by decide +kernel, by decide +kernel, by decide +kernel, by decide +kernel,
    by decide +kernel, by decide +kernel, by decide +kernel⟩ ⟨by decide +kernel, by decide +kernel,
    by decide +kernel⟩

/-- A child whose header block has only the Location line: the blank line is skipped with its line end, and
the body comes out as a header line. -/
def bodyChild : Request := childCall "Location: http://x/\n\nBODY: 1\n"

theorem body_in_header : bodyChild.CgiCall ∧ Redirects bodyChild.childText ∧
    headLines bodyChild.childText = some [text "Location: http://x/"] ∧
    text "BODY: 1" ∈ (headLines (bodyChild.movedHead tinyEnv)).getD [] ∧
    ¬ Request.RedirectRight tinyEnv bodyChild := by
  refine ⟨⟨by decide +kernel, by decide +kernel, by decide +kernel, by decide +kernel, by decide +kernel,
    by decide +kernel, by decide +kernel⟩, ⟨by decide +kernel, by decide +kernel, by decide +kernel⟩,
    by decide +kernel, by decide +kernel, fun h => ?_⟩
  exact absurd h.lines (by decide +kernel)

end Boa
