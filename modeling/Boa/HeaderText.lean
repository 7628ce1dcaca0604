import Boa.CgiRedirect

/-! The headers of the responses to requests for files: how long they get, and which events
their calls leave when they fit into the buffer. -/
namespace Boa
open Memory History

/-- The events of a call that writes all of its text. -/
def Msg.events : Msg → List Event
  | .raw bs => if bs = [] then [] else [.queued bs]
  | .ka alive => [.kaPhrase alive]
  | .len n => [.contentLength n]
  | _ => []

/-- What a sequence of such calls adds to the trace. -/
def msgEvents (ms : List Msg) : List Event := ms.flatMap Msg.events

lemma msgEvents_append (ms ms' : List Msg) : msgEvents (ms ++ ms') = msgEvents ms ++ msgEvents ms' :=
  List.flatMap_append

namespace Out

variable {o : Out}

lemma writeMsg_events (hs : ¬ .done < o.status) {m : Msg} (hm : m.plain)
    (hroom : o.bufferEnd + m.bytes.length ≤ bufferSize) : (o.writeMsg m).trace = o.trace ++ m.events := by
  cases m with
  | raw bs =>
    show (o.reqWrite bs).trace = _
    by_cases hnil : bs = []
    · simp [reqWrite, Msg.events, hnil]
    · unfold reqWrite
      rw [if_neg (by simp [hnil, hs]), if_neg (by exact not_lt.mpr hroom)]
      simp [append, Msg.events, hnil]
  | ka b =>
    show (if _ then o else o.log (.kaPhrase b)).trace = _
    rw [if_neg hs]
    rfl
  | len n =>
    show (if _ then o else o.log (.contentLength n)).trace = _
    rw [if_neg hs]
    rfl
  | _ => simp [Msg.plain] at hm

/-- Text for which there is room leaves its own events. -/
lemma writes_events (hb : o.BufOk) (hs : ¬ .done < o.status) {ms : List Msg} (hms : ∀ m ∈ ms, m.plain)
    (hroom : o.bufferEnd + (msgText ms).length ≤ bufferSize) : (o.writes ms).trace = o.trace ++ msgEvents ms := by
  induction ms generalizing o with
  | nil => exact (List.append_nil _).symm
  | cons m ms ih =>
    have htext : msgText (m :: ms) = m.bytes ++ msgText ms := rfl
    have hevents : msgEvents (m :: ms) = m.events ++ msgEvents ms := rfl
    rw [htext, List.length_append] at hroom
    have hm : m.plain := hms m (by simp)
    have hfirst := writeMsg_wrote hb hs hm (by omega)
    have hrest := ih hfirst.toBufOk (by rw [hfirst.status]; exact hs) (fun m' hm' => hms m' (by simp [hm']))
      (by rw [hfirst.last]; omega)
    rw [hevents, ← List.append_assoc, ← writeMsg_events hs hm (by omega)]
    exact hrest

end Out

/-! ### Lengths -/

lemma length_text (s : String) : (text s).length = s.utf8ByteSize := by
  unfold text
  simp

lemma length_httpVerString (v : Version) : (httpVerString v).length = 8 := by
  cases v <;> exact (length_text _).trans rfl

lemma length_getMimeType (cfg : Config) (name : Bytes) : (getMimeType cfg name).length < 1024 := by
  unfold getMimeType
  split
  · exact cfg.defaultType.short
  · exact cfg.defaultType.short
  · split
    · next p _ => exact p.2.short
    · exact cfg.defaultType.short

lemma length_crlf : crlf.length = 2 := rfl

namespace Request

variable {env : Env} {c : Request}

lemma length_statusLine (c : Request) {line : String} {n : ℕ} (h : (text line).length ≤ n) :
    (msgText (c.statusLine line)).length ≤ 8 + n := by
  have hver := length_httpVerString c.httpVersion
  simp only [statusLine, msgText, Msg.bytes, List.flatMap_cons, List.flatMap_nil, List.append_nil,
    List.length_append]
  omega

lemma length_printKaPhrase (env : Env) (c : Request) : (msgText (c.printKaPhrase env)).length ≤ 100 := by
  have hconst : (text "Connection: Keep-Alive\r\nKeep-Alive: timeout=").length = 44 ∧
      (text ", max=").length = 6 ∧ (text "Connection: close\r\n").length = 19 := by
    simp only [length_text]
    decide
  obtain ⟨h1, h2, h3⟩ := hconst
  have htimeout := (simpleItoa_digits env.cfg.kaTimeout).2
  have hmax := (simpleItoa_digits c.kacount).2
  unfold printKaPhrase
  split_ifs
  · simp only [msgText, Msg.bytes, List.flatMap_cons, List.flatMap_nil, List.append_nil, List.nil_append,
      List.length_append, length_crlf]
    omega
  · simp only [msgText, Msg.bytes, List.flatMap_cons, List.flatMap_nil, List.append_nil]
    omega

lemma length_printHttpHeaders (env : Env) (c : Request) : (msgText (c.printHttpHeaders env)).length ≤ 1300 := by
  have hconst : (text "Date: ").length = 6 ∧ (text "Server: Boa/0.94.101wk\r\n").length = 24 ∧
      (text "Strict-Transport-Security: ").length = 27 ∧ (text "Accept-Ranges: bytes\r\n").length = 22 := by
    simp only [length_text]
    decide
  obtain ⟨h1, h2, h3, h4⟩ := hconst
  have hdate := (rfc822TimeBuf_line env 0).2
  have hka := length_printKaPhrase env c
  have hserver : (msgText (if env.cfg.concealServerIdentity then []
      else [.raw (text "Server: Boa/0.94.101wk\r\n")])).length ≤ 24 := by
    split_ifs <;> simp [msgText, Msg.bytes, h2]
  have hhsts (h : ConfText) :
      (msgText [.raw (text "Strict-Transport-Security: "), .raw h, .raw crlf]).length ≤ 1053 := by
    have hshort := h.short
    simp only [msgText, Msg.bytes, List.flatMap_cons, List.flatMap_nil, List.append_nil, List.length_append,
      length_crlf]
    omega
  have hfirst : (msgText [.raw (text "Date: " ++ rfc822TimeBuf env 0 ++ crlf)]).length ≤ 68 := by
    simp only [msgText, Msg.bytes, List.flatMap_cons, List.flatMap_nil, List.append_nil, List.length_append,
      length_crlf]
    omega
  have hranges : (msgText [.raw (text "Accept-Ranges: bytes\r\n")]).length = 22 := by
    simp only [msgText, Msg.bytes, List.flatMap_cons, List.flatMap_nil, List.append_nil, h4]
  unfold printHttpHeaders
  rw [msgText_append, msgText_append, msgText_append, msgText_append]
  simp only [List.length_append]
  cases env.cfg.hstsHeader with
  | none =>
    have hnone : (msgText []).length = 0 := rfl
    dsimp only
    omega
  | some h =>
    have hsome := hhsts h
    dsimp only
    omega

lemma length_printContentType (env : Env) (c : Request) : (msgText (c.printContentType env)).length ≤ 2074 := by
  have hconst : (text "Content-Type: ").length = 14 ∧ (text "; charset=").length = 10 := by
    simp only [length_text]
    decide
  obtain ⟨h1, h2⟩ := hconst
  have hmime := length_getMimeType env.cfg c.requestUri
  unfold printContentType
  dsimp only
  have hcharset (cs : ConfText) : (msgText (if startsWithCase (text "text") (getMimeType env.cfg c.requestUri)
      then [.raw (text "; charset="), .raw cs] else [])).length ≤ 1033 := by
    have hshort := cs.short
    split_ifs
    · simp only [msgText, Msg.bytes, List.flatMap_cons, List.flatMap_nil, List.append_nil, List.length_append]
      omega
    · simp [msgText]
  have hfirst : (msgText [.raw (text "Content-Type: "), .raw (getMimeType env.cfg c.requestUri)]).length ≤ 1037 := by
    simp only [msgText, Msg.bytes, List.flatMap_cons, List.flatMap_nil, List.append_nil, List.length_append]
    omega
  have hlast : (msgText [.raw crlf]).length = 2 := rfl
  rw [msgText_append, msgText_append]
  simp only [List.length_append]
  cases env.cfg.defaultCharset with
  | none =>
    have hnone : (msgText []).length = 0 := rfl
    dsimp only
    omega
  | some cs =>
    have hsome := hcharset cs
    dsimp only
    omega

lemma length_printLastModified (env : Env) (c : Request) : (msgText (c.printLastModified env)).length ≤ 77 := by
  have hconst : (text "Last-Modified: ").length = 15 := length_text _
  have hdate := (rfc822TimeBuf_line env c.lastModified).2
  simp only [printLastModified, msgText, Msg.bytes, List.flatMap_cons, List.flatMap_nil, List.append_nil,
    List.length_append, length_crlf]
  omega

lemma length_printContentLength (c : Request) : (msgText c.printContentLength).length ≤ 39 := by
  have hconst : (text "Content-Length: ").length = 16 := length_text _
  have hdigits := (simpleItoa_digits c.filesize).2
  simp only [printContentLength, msgText, Msg.bytes, List.flatMap_cons, List.flatMap_nil, List.append_nil,
    List.length_append, length_crlf]
  omega

lemma length_partHead (env : Env) (c : Request) (r : Range) :
    (msgText (c.printPartialContentContinue env r)).length ≤ 2200 := by
  have hconst : (text "\r\n--THIS_STRING_SEPARATES\r\n").length = 27 ∧
      (text "Content-Range: bytes ").length = 21 ∧ (text "-").length = 1 ∧ (text "/").length = 1 := by
    simp only [length_text]
    decide
  obtain ⟨h1, h2, h3, h4⟩ := hconst
  have hstart := (simpleItoa_digits r.start).2
  have hstop := (simpleItoa_digits r.stop).2
  have hsize := (simpleItoa_digits c.filesize).2
  have htype := length_printContentType env c
  have hsep : (msgText (if 1 < c.numranges then [.raw (text "\r\n--THIS_STRING_SEPARATES\r\n")] else [])).length
      ≤ 27 := by
    split_ifs <;> simp [msgText, Msg.bytes, h1]
  have hrange : (msgText (c.printContentRange r)).length ≤ 90 := by
    simp only [printContentRange, msgText, Msg.bytes, List.flatMap_cons, List.flatMap_nil, List.append_nil,
      List.length_append, length_crlf]
    omega
  unfold printPartialContentContinue
  rw [msgText_append, msgText_append]
  simp only [List.length_append]
  omega

end Request
end Boa
