import Boa.ByteCount
import Boa.HeaderText

/-! The length that the header of a response announces, and what of the body is due after it. -/
namespace Boa
open Memory History

/-- The length that an event announces. -/
def Event.announces : Event → Option ℕ
  | .contentLength n => some n
  | _ => none

/-- The lengths that a response announces. -/
def announced (t : List Event) : List ℕ := t.filterMap Event.announces

/-- Neither announces a length nor is a part of the body. -/
def Event.bare (e : Event) : Prop := e.announces = none ∧ e.bodySize = 0

/-- One length was announced, and `n` bytes of the body are still to come. -/
def Due (n : ℕ) (t : List Event) : Prop := announced t = [bodySize t + n]

variable {env : Env} {c : Request} {t t' : List Event}

lemma announced_append (t t' : List Event) : announced (t ++ t') = announced t ++ announced t' :=
  List.filterMap_append

lemma bodySize_append (t t' : List Event) : bodySize (t ++ t') = bodySize t + bodySize t' := total_append _ t t'

lemma announced_adds (h : Adds Event.bare t t') : announced t' = announced t ∧ bodySize t' = bodySize t := by
  obtain ⟨es, rfl, hes⟩ := h
  have hnone : announced es = [] := List.filterMap_eq_nil_iff.mpr fun e he => (hes e he).1
  have hzero : bodySize es = 0 := total_eq_zero fun e he => (hes e he).2
  rw [announced_append, bodySize_append, hnone, hzero, List.append_nil, Nat.add_zero]
  exact ⟨rfl, rfl⟩

namespace Due

variable {n : ℕ}

lemma adds (h : Due n t) (ha : Adds Event.bare t t') : Due n t' := by
  obtain ⟨h1, h2⟩ := announced_adds ha
  rw [Due, h1, h2]
  exact h

/-- A part of the body. -/
lemma chunk (h : Due n t) (bs : Bytes) (hn : bs.length ≤ n) : Due (n - bs.length) (t ++ [.data bs]) := by
  have hbody : bodySize (t ++ [.data bs]) = bodySize t + bs.length := by
    simp [bodySize, total, Event.bodySize]
  have hnone : announced (t ++ [.data bs]) = announced t := by simp [announced, Event.announces]
  rw [Due, hnone, hbody, h]
  congr 1
  omega

end Due

/-! ### Headers -/

lemma announced_raw (bs : Bytes) : announced (Msg.raw bs).events = [] ∧ bodySize (Msg.raw bs).events = 0 := by
  show announced (if bs = [] then [] else [.queued bs]) = [] ∧ bodySize (if bs = [] then [] else [.queued bs]) = 0
  split_ifs <;> exact ⟨rfl, rfl⟩

lemma announced_len (n : ℕ) : announced (Msg.len n).events = [n] := rfl

/-- The lengths that calls announce are those of their `len` marks. -/
lemma announced_msgEvents (ms : List Msg) :
    announced (msgEvents ms) = ms.flatMap fun m => announced m.events := by
  induction ms with
  | nil => rfl
  | cons m ms ih =>
    rw [List.flatMap_cons, ← ih, ← announced_append]
    rfl

lemma bodySize_msgEvents (ms : List Msg) : bodySize (msgEvents ms) = 0 := by
  induction ms with
  | nil => rfl
  | cons m ms ih =>
    have hm : bodySize m.events = 0 := by
      cases m with
      | raw bs => exact (announced_raw bs).2
      | _ => rfl
    have hcons : msgEvents (m :: ms) = m.events ++ msgEvents ms := rfl
    rw [hcons, bodySize_append, hm, ih]

/-- Calls without a `len` mark. -/
lemma announced_msgEvents_nil {ms : List Msg} (h : ∀ n, .len n ∉ ms) : announced (msgEvents ms) = [] := by
  rw [announced_msgEvents, List.flatMap_eq_nil_iff]
  intro m hm
  cases m with
  | raw bs => exact (announced_raw bs).1
  | len n => exact absurd hm (h n)
  | _ => rfl

/-- Calls that announce one length and fit make it due. -/
lemma Due.writes {o : Out} (hb : o.BufOk) (hs : ¬ .done < o.status)
    (hsilent : announced o.trace = [] ∧ bodySize o.trace = 0) {ms : List Msg} {n : ℕ} (hms : ∀ m ∈ ms, m.plain) (hroom : o.bufferEnd + (msgText ms).length ≤ bufferSize)
    (hn : announced (msgEvents ms) = [n]) : Due n (o.writes ms).trace := by
  rw [Due, Out.writes_events hb hs hms hroom, announced_append, bodySize_append, hn, hsilent.1, hsilent.2,
    bodySize_msgEvents]
  simp

namespace Request

lemma printContentType_no_len (env : Env) (c : Request) (n : ℕ) : .len n ∉ c.printContentType env := by
  intro h
  have htext := printContentType_isText env c _ h
  simp [Msg.isText] at htext

/-- The header of a file. -/
def okHead (env : Env) (c : Request) : List Msg :=
  c.statusLine " 200 OK\r\n" ++ c.printHttpHeaders env ++
    (c.printContentLength ++ c.printLastModified env ++ c.printContentType env ++ [.raw crlf])

/-- The header of a part of a file, or of several parts. -/
def partialHead (env : Env) (c : Request) (r : Range) : List Msg :=
  c.statusLine " 206 Partial Content\r\n" ++ c.printHttpHeaders env ++ c.printLastModified env ++
    (if 1 < c.numranges then
      [.raw (text "Content-Type: multipart/byteranges; boundary=THIS_STRING_SEPARATES\r\n"), .raw crlf]
    else
      [.raw (text "Content-Length: "), .raw (simpleItoa r.bytes), .raw crlf, .len r.bytes]) ++
    c.printPartialContentContinue env r ++ [.raw crlf]

lemma plain_statusLine (c : Request) (line : String) : ∀ m ∈ c.statusLine line, m.plain := by
  intro m hm
  simp only [statusLine, List.mem_cons, List.not_mem_nil, or_false] at hm
  obtain rfl | rfl := hm <;> rfl

lemma okHead_plain (env : Env) (c : Request) : ∀ m ∈ c.okHead env, m.plain := by
  intro m hm
  simp only [okHead, List.mem_append] at hm
  obtain (hm | hm) | ((hm | hm) | hm) | hm := hm
  · exact plain_statusLine c _ m hm
  · exact printHttpHeaders_plain env c m hm
  · simp only [printContentLength, List.mem_cons, List.not_mem_nil, or_false] at hm
    obtain rfl | rfl | rfl | rfl := hm <;> rfl
  · rw [List.mem_singleton.mp hm]
    rfl
  · exact printContentType_plain env c m hm
  · rw [List.mem_singleton.mp hm]
    rfl

lemma partialHead_plain (env : Env) (c : Request) (r : Range) : ∀ m ∈ c.partialHead env r, m.plain := by
  intro m hm
  simp only [partialHead, List.mem_append] at hm
  obtain ((((hm | hm) | hm) | hm) | hm) | hm := hm
  · exact plain_statusLine c _ m hm
  · exact printHttpHeaders_plain env c m hm
  · rw [List.mem_singleton.mp hm]
    rfl
  · split_ifs at hm
    · simp only [List.mem_cons, List.not_mem_nil, or_false] at hm
      obtain rfl | rfl := hm <;> rfl
    · simp only [List.mem_cons, List.not_mem_nil, or_false] at hm
      obtain rfl | rfl | rfl | rfl := hm <;> rfl
  · exact partHead_plain env c r m (List.mem_append_left _ hm)
  · rw [List.mem_singleton.mp hm]
    rfl

lemma length_okHead (env : Env) (c : Request) : (msgText (c.okHead env)).length ≤ 3600 := by
  have hline := @length_statusLine c " 200 OK\r\n" 9 (length_text _).le
  have hhead := length_printHttpHeaders env c
  have hlength := length_printContentLength c
  have hmodified := length_printLastModified env c
  have htype := length_printContentType env c
  have hlast : (msgText [.raw crlf]).length = 2 := rfl
  unfold okHead
  simp only [msgText_append, List.length_append]
  omega

lemma length_partialHead (env : Env) (c : Request) (r : Range) : (msgText (c.partialHead env r)).length ≤ 3800 := by
  have hline := @length_statusLine c " 206 Partial Content\r\n" 22 (length_text _).le
  have hhead := length_printHttpHeaders env c
  have hmodified := length_printLastModified env c
  have hpart := length_partHead env c r
  have hlast : (msgText [.raw crlf]).length = 2 := rfl
  have hconst : (text "Content-Type: multipart/byteranges; boundary=THIS_STRING_SEPARATES\r\n").length ≤ 80 ∧
      (text "Content-Length: ").length = 16 := by
    simp only [length_text]
    decide
  have hdigits := (simpleItoa_digits r.bytes).2
  have hlength : (msgText (if 1 < c.numranges then
      [.raw (text "Content-Type: multipart/byteranges; boundary=THIS_STRING_SEPARATES\r\n"), .raw crlf]
    else
      [.raw (text "Content-Length: "), .raw (simpleItoa r.bytes), .raw crlf, .len r.bytes])).length ≤ 82 := by
    split_ifs
    · simp only [msgText, Msg.bytes, List.flatMap_cons, List.flatMap_nil, List.append_nil, List.length_append,
        length_crlf]
      omega
    · simp only [msgText, Msg.bytes, List.flatMap_cons, List.flatMap_nil, List.append_nil, List.length_append,
        length_crlf]
      omega
  unfold partialHead
  simp only [msgText_append, List.length_append]
  omega

lemma sendRRequestOk_okHead (env : Env) (hv : c.httpVersion ≠ .http09) (hcgi : c.cgiType = .none) :
    c.sendRRequestOk env = { c with responseStatus := 200 }.writes (okHead env { c with responseStatus := 200 }) := by
  unfold sendRRequestOk okHead
  dsimp only
  rw [if_neg hv, if_pos hcgi]

/-- An empty buffer has room for either header. -/
lemma head_room (env : Env) (d : Request) (r : Range) (h0 : c.bufferEnd = 0) :
    c.bufferEnd + (msgText (d.okHead env)).length ≤ bufferSize ∧
      c.bufferEnd + (msgText (d.partialHead env r)).length ≤ bufferSize := by
  have hok := length_okHead env d
  have hpartial := length_partialHead env d r
  have hsize : bufferSize = 4096 := rfl
  omega

lemma announced_okHead (env : Env) (c : Request) : announced (msgEvents (c.okHead env)) = [c.filesize] := by
  have hline : announced (msgEvents (c.statusLine " 200 OK\r\n")) = [] :=
    announced_msgEvents_nil (by simp [statusLine])
  have hhead := announced_msgEvents_nil (printHttpHeaders_no_len env c)
  have htype := announced_msgEvents_nil (printContentType_no_len env c)
  have hmodified : announced (msgEvents (c.printLastModified env)) = [] :=
    announced_msgEvents_nil (by simp [printLastModified])
  have hlast : announced (msgEvents [.raw crlf]) = [] := rfl
  have hlength : announced (msgEvents c.printContentLength) = [c.filesize] := by
    rw [announced_msgEvents]
    simp [printContentLength, announced_raw, announced_len]
  unfold okHead
  simp only [msgEvents_append, announced_append, hline, hhead, htype, hmodified, hlast, hlength, List.nil_append,
    List.append_nil]

lemma announced_partialHead (env : Env) (hone : c.numranges ≤ 1) (r : Range) :
    announced (msgEvents (c.partialHead env r)) = [r.bytes] := by
  have hline : announced (msgEvents (c.statusLine " 206 Partial Content\r\n")) = [] :=
    announced_msgEvents_nil (by simp [statusLine])
  have hhead := announced_msgEvents_nil (printHttpHeaders_no_len env c)
  have hmodified : announced (msgEvents (c.printLastModified env)) = [] :=
    announced_msgEvents_nil (by simp [printLastModified])
  have hpart : announced (msgEvents (c.printPartialContentContinue env r)) = [] := by
    refine announced_msgEvents_nil fun n hn => ?_
    simp only [printPartialContentContinue, not_lt.mpr hone, if_false, List.nil_append, List.mem_append] at hn
    obtain hn | hn := hn
    · exact printContentType_no_len env c n hn
    · simp [printContentRange] at hn
  have hlast : announced (msgEvents [.raw crlf]) = [] := rfl
  have hlength : announced (msgEvents [.raw (text "Content-Length: "), .raw (simpleItoa r.bytes), .raw crlf,
      .len r.bytes]) = [r.bytes] := by
    rw [announced_msgEvents]
    simp [announced_raw, announced_len]
  unfold partialHead
  rw [if_neg (not_lt.mpr hone)]
  simp only [msgEvents_append, announced_append, hline, hhead, hpart, hmodified, hlast, hlength, List.nil_append,
    List.append_nil]

end Request

end Boa
