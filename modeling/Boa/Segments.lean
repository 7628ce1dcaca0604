import Boa.Blocks
import Boa.CleanLines
import Boa.Promise

/-! The calls that `read_header` makes, against a reader that is given all bytes of the connection at
once: they do not depend on how the bytes were cut into reads. -/
namespace Boa
open Memory History

/-- A header that is being read: the line so far, how much of it stands before its end, and the lines
before it. -/
structure HeaderScan where
  status : Status := .readHeader
  line : Bytes := []
  mark : ℕ := 0
  lines : List Bytes := []

def HeaderScan.step (s : HeaderScan) (uc : UInt8) : HeaderScan :=
  let mark := if marksEnd s.status uc then s.line.length else s.mark
  if nextStatus s.status uc = .oneLf then
    { status := .oneLf, mark := mark, lines := s.lines ++ [cstr (s.line.take mark)] }
  else { status := nextStatus s.status uc, line := s.line ++ [uc], mark := mark, lines := s.lines }

/-- The headers of a stream of bytes, each with its lines. -/
def headerReader : BlockReader UInt8 HeaderScan (List Bytes) where
  start := {}
  step := HeaderScan.step
  emit s := if s.status = .bodyRead then some s.lines else none

/-- A call of `process_logline`, `process_option_line` or `process_header_end`, or a rejection. -/
def Event.isCall : Event → Bool
  | .logline _ | .optionLine _ | .headerEnd | .reject _ => true
  | _ => false

def calls (t : List Event) : List Event := t.filter Event.isCall

/-- The calls for the lines of a header. -/
def lineCalls : List Bytes → List Event
  | [] => []
  | l :: ls => .logline l :: ls.map .optionLine

def Event.receivedBytes : Event → Bytes
  | .received bs => bs
  | _ => []

def receivedBytes (t : List Event) : Bytes := t.flatMap Event.receivedBytes

/-- All that was received on the connection. -/
def Request.received (c : Request) : Bytes := c.traces.flatMap receivedBytes

/-- What was received and not parsed yet. -/
def Request.unparsed (c : Request) : Bytes := c.clientStream.drop c.parsePos

variable {env : Env} {c d : Request} {uc : UInt8} {bs rest : Bytes} {s : HeaderScan} {r : Option Ret}

/-! ### Events -/

/-- An event that neither calls nor receives. -/
def Event.idle (e : Event) : Prop := e.isCall = false ∧ e.receivedBytes = []

lemma Event.idle_of_later {e : Event} (h : e.later) : e.idle := by
  cases e <;> first | exact ⟨rfl, rfl⟩ | exact h.elim

lemma Event.idle_of_overwrites {e : Event} (h : e.overwrites c) : e.idle := by
  cases e <;> first | exact ⟨rfl, rfl⟩ | exact h.elim

lemma calls_snoc (t : List Event) {e : Event} (he : e.isCall) : calls (t ++ [e]) = calls t ++ [e] := by
  simp [calls, he]

lemma calls_skip (t : List Event) {e : Event} (he : e.isCall = false) : calls (t ++ [e]) = calls t := by
  simp [calls, he]

lemma calls_adds {t t' : List Event} (h : Adds Event.idle t t') : calls t' = calls t := by
  obtain ⟨es, rfl, hes⟩ := h
  have hnil : es.filter Event.isCall = [] := List.filter_eq_nil_iff.mpr fun e he => by simp [(hes e he).1]
  rw [calls, List.filter_append, hnil, List.append_nil]
  rfl

lemma receivedBytes_adds {t t' : List Event} (h : Adds (fun e => e.receivedBytes = []) t t') :
    receivedBytes t' = receivedBytes t := by
  obtain ⟨es, rfl, hes⟩ := h
  have hnil : es.flatMap Event.receivedBytes = [] := List.flatMap_eq_nil_iff.mpr hes
  rw [receivedBytes, List.flatMap_append, hnil, List.append_nil]
  rfl

lemma lineCalls_snoc (ls : List Bytes) (l : Bytes) :
    lineCalls (ls ++ [l]) = lineCalls ls ++ [if ls = [] then .logline l else .optionLine l] := by
  cases ls with
  | nil => rfl
  | cons a ls => simp [lineCalls]

/-! ### One byte -/

/-- The request against the part `bs` of its header. -/
structure ReadTo (bs : Bytes) (s : HeaderScan) (c : Request) : Prop where
  opens : headerReader.Opens bs s
  status : c.status = s.status
  calls : calls c.trace = lineCalls s.lines
  logline : c.logline = true ↔ s.lines ≠ []
  pos : c.headerLine.off + s.line.length = c.parsePos
  size : c.parsePos ≤ c.clientStream.length
  text : slice c.clientStream c.headerLine.off c.parsePos = s.line
  mark : s.status = .oneCr → c.headerEnd.off = c.headerLine.off + s.mark ∧ s.mark ≤ s.line.length

namespace ReadTo

/-- One more byte of the line. -/
lemma grow (h : ReadTo bs s c) (hdrop : c.unparsed = uc :: rest) :
    slice c.clientStream c.headerLine.off (c.parsePos + 1) = s.line ++ [uc] := by
  have hpos := h.pos
  rw [slice_snoc hdrop (by omega), h.text]

/-- Where the line ends. -/
lemma marked (h : ReadTo bs s c) (huc : uc = cr ∨ uc = lf)
    (hs : c.status = .readHeader ∨ c.status = .oneCr) :
    (c.advance uc).headerEnd.off = c.headerLine.off + (s.step uc).mark ∧ (s.step uc).mark ≤ s.line.length := by
  have hstatus := h.status
  have hpos := h.pos
  have hstep : (s.step uc).mark = if marksEnd s.status uc then s.line.length else s.mark := by
    unfold HeaderScan.step
    dsimp only
    split_ifs <;> rfl
  rw [hstep]
  obtain hs | hs := hs
  · have hmarks : marksEnd c.status uc = true := by
      obtain rfl | rfl := huc <;> simp [marksEnd, hs]
    have hend : (c.advance uc).headerEnd = ⟨.clientStream, c.parsePos⟩ := by
      unfold Request.advance
      rw [hmarks]
      rfl
    rw [hend, if_pos (hstatus ▸ hmarks)]
    exact ⟨hpos.symm, le_rfl⟩
  · have hmarks : marksEnd c.status uc = false := by simp [marksEnd, hs]
    have hend : (c.advance uc).headerEnd = c.headerEnd := by
      unfold Request.advance
      rw [hmarks]
      rfl
    rw [hend, if_neg (by rw [← hstatus, hmarks]; decide)]
    exact h.mark (hstatus ▸ hs)

/-- A byte within a line. -/
lemma skip (h : ReadTo bs s c) (hdrop : c.unparsed = uc :: rest) (hin : c.status.inHeader)
    (h1 : (c.advance uc).status ≠ .oneLf) (h2 : (c.advance uc).status ≠ .bodyRead) :
    ReadTo (bs ++ [uc]) (s.step uc) (c.advance uc) := by
  have hpos := h.pos
  have hne1 : nextStatus s.status uc ≠ .oneLf := h.status ▸ h1
  have hne2 : nextStatus s.status uc ≠ .bodyRead := h.status ▸ h2
  have hstep : s.step uc = {
      status := nextStatus s.status uc
      line := s.line ++ [uc]
      mark := if marksEnd s.status uc then s.line.length else s.mark
      lines := s.lines } := by
    unfold HeaderScan.step
    dsimp only
    rw [if_neg hne1]
  have hopens : headerReader.Opens (bs ++ [uc]) (s.step uc) := by
    refine h.opens.step uc ?_
    show (if (s.step uc).status = .bodyRead then some (s.step uc).lines else none) = none
    rw [hstep]
    exact if_neg hne2
  refine ⟨hopens, ?_, ?_, ?_, ?_, lt_length_of_drop hdrop, ?_, fun hcr => ?_⟩
  · rw [hstep]
    exact congrArg (nextStatus · uc) h.status
  · rw [hstep]
    exact h.calls
  · rw [hstep]
    exact h.logline
  · rw [hstep]
    show c.headerLine.off + (s.line ++ [uc]).length = c.parsePos + 1
    rw [List.length_append, List.length_singleton]
    omega
  · rw [hstep]
    exact h.grow hdrop
  · have hcr' : nextStatus c.status uc = .oneCr := by
      rw [hstep] at hcr
      rw [h.status]
      exact hcr
    obtain ⟨hfrom, huc⟩ := nextStatus_oneCr hin hcr'
    obtain ⟨hend, hle⟩ := h.marked (.inl huc) hfrom
    refine ⟨hend, hle.trans ?_⟩
    rw [hstep]
    show s.line.length ≤ (s.line ++ [uc]).length
    rw [List.length_append]
    exact Nat.le_add_right _ _

/-- The line that a byte ends. -/
lemma lineAt (h : ReadTo bs s c) (hdrop : c.unparsed = uc :: rest) (hin : c.status.inHeader)
    (hs : (c.advance uc).status = .oneLf) :
    s.step uc = {
      status := .oneLf
      mark := (s.step uc).mark
      lines := s.lines ++ [(c.advance uc).terminateLine.lineAt] } := by
  have hpos := h.pos
  have hlt : c.parsePos < c.clientStream.length := lt_length_of_drop hdrop
  obtain ⟨hfrom, huc⟩ := nextStatus_oneLf hin hs
  obtain ⟨hend, hle⟩ := h.marked (.inr huc) hfrom
  have hline : (c.advance uc).terminateLine.lineAt = cstr (s.line.take (s.step uc).mark) := by
    have hoff : (c.advance uc).headerLine.off = c.headerLine.off := rfl
    rw [lineAt_terminateLine (by omega) (show (c.advance uc).headerEnd.off < c.clientStream.length by omega)]
    show cstr (slice c.clientStream c.headerLine.off (c.advance uc).headerEnd.off) = _
    rw [hend, ← h.text]
    unfold slice
    rw [List.take_take]
    congr 2
    omega
  have hnext : nextStatus s.status uc = .oneLf := h.status ▸ hs
  rw [hline]
  unfold HeaderScan.step
  dsimp only
  rw [if_pos hnext]

/-- A line that was handed on. -/
lemma ended (h : ReadTo bs s c) (hdrop : c.unparsed = uc :: rest) (hin : c.status.inHeader)
    (hs : (c.advance uc).status = .oneLf) (hd : d.toOut.status = .oneLf)
    (hcalls : Boa.calls d.trace = Boa.calls c.trace ++
      [if c.logline then .optionLine (c.advance uc).terminateLine.lineAt
        else .logline (c.advance uc).terminateLine.lineAt])
    (hlog : d.logline = true) (hpos : d.parsePos = c.parsePos + 1)
    (hlen : d.clientStream.length = c.clientStream.length) (hline : d.headerLine.off = d.parsePos) :
    ReadTo (bs ++ [uc]) (s.step uc) d := by
  have hstep := h.lineAt hdrop hin hs
  have hlt : c.parsePos < c.clientStream.length := lt_length_of_drop hdrop
  have hopens : headerReader.Opens (bs ++ [uc]) (s.step uc) := by
    refine h.opens.step uc ?_
    show (if (s.step uc).status = .bodyRead then some (s.step uc).lines else none) = none
    rw [hstep]
    rfl
  refine ⟨hopens, ?_, ?_, ?_, ?_, ?_, ?_, fun hcr => ?_⟩
  · rw [hstep]
    exact hd
  · rw [hstep, hcalls, h.calls, lineCalls_snoc]
    by_cases hl : c.logline = true
    · rw [if_pos hl, if_neg (h.logline.mp hl)]
    · rw [if_neg hl, if_pos (not_not.mp fun hne => hl (h.logline.mpr hne))]
  · rw [hstep]
    simp [hlog]
  · rw [hstep]
    exact hline
  · rw [hpos, hlen]
    exact hlt
  · rw [hstep, hline, slice_self]
  · rw [hstep] at hcr
    cases hcr

end ReadTo

/-- What a byte makes the request do, but for receiving. -/
lemma ByteStep.deaf (h : ByteStep env c uc d r) (h0 : c.bufferStart = 0) :
    Adds (fun e => e.receivedBytes = []) c.trace d.trace := by
  have hrefused {e d : Request} (hd : Refused e d) : Adds (fun e => e.receivedBytes = []) e.trace d.trace := by
    obtain ⟨o, code, rfl, -, hr⟩ := hd
    exact hr.adds.mono fun e he => (Event.idle_of_later (Event.later_of_answers (Event.answers_of_reply he))).2
  have hend (e : Request) (he : e.bufferStart = 0) :
      Adds (fun e => e.receivedBytes = []) e.trace (e.processHeaderEnd env).1.trace := by
    have hlog : Adds (fun e => e.receivedBytes = []) e.trace (e.log .headerEnd).trace := .snoc rfl
    refine hlog.trans ((Request.processHeaderEnd_concluded (S := False) env e he).adds.mono fun e he => ?_)
    exact he.elim (fun h => (Event.idle_of_later (Event.later_of_answers h)).2) fun h => (Event.idle_of_overwrites h).2
  have hlogline {e d : Request} (hd : LoglineOf e d) : Adds (fun e => e.receivedBytes = []) e.trace d.trace := by
    obtain ⟨_, _, _, _, _, _, rfl, -⟩ := hd
    exact .snoc rfl
  cases h with
  | illegal hi hd => exact Adds.trans (.snoc rfl) (hrefused hd)
  | skip hi h1 h2 => exact .refl _
  | tooLong hi hs hl hd => exact Adds.trans (.snoc rfl) (hrefused hd)
  | option hi hs hl hd hc =>
    obtain ⟨_, _, _, _, _, _, _, _, _, _, _, _, rfl⟩ := hd
    exact .snoc rfl
  | optionStop hi hs hl hd =>
    obtain ⟨e, ⟨_, _, _, _, _, _, _, _, _, _, _, _, rfl⟩, ⟨rfl, -⟩ | ⟨-, hr⟩⟩ := hd
    · exact .snoc rfl
    · exact Adds.trans (.snoc rfl) (hrefused hr)
  | logline hi hs hl hd hv =>
    have hadds := hlogline hd
    exact hadds
  | loglineStop hi hs hl hd he => exact (hlogline hd).trans (hrefused he)
  | @short e hi hs hl hd hv =>
    have hstart : e.bufferStart = 0 := by
      obtain ⟨_, _, _, _, _, _, rfl, -⟩ := hd
      exact h0
    exact (hlogline hd).trans (hend e hstart)
  | finish hi hs =>
    refine (hend (c.advance uc) h0).trans ((endHeader_adds env (c.advance uc)).mono fun e he => ?_)
    exact (Event.idle_of_later (Event.later_of_answers he)).2

/-! ### A connection -/

/-- The calls for a header that was read to its end. -/
def headerCalls (ls : List Bytes) : List Event := lineCalls ls ++ [.headerEnd]

/-- The bytes of the connection: the headers `heads` of the requests that were answered, whose lines are
`out`, then `bs`, then what was not parsed yet. -/
structure Consumed (heads : List Bytes) (out : List (List Bytes)) (bs : Bytes) (c : Request) : Prop where
  complete : List.Forall₂ headerReader.Completes heads out
  past : c.past.map calls = out.map headerCalls
  received : c.received = heads.flatten ++ bs ++ c.unparsed

/-- The request line was read, and has no version. Only the header of a POST is read on then. -/
def Request.Versionless (c : Request) : Prop := c.logline = true ∧ c.httpVersion = .http09

/-- A request in its header: as far as it was read. -/
def Request.Tracked (c : Request) : Prop :=
  c.Versionless ∨ ∃ heads out bs s, Consumed heads out bs c ∧ ReadTo bs s c

/-- The header was read to its end, if the connection can still be kept. -/
def Request.HeaderRead (c : Request) : Prop :=
  c.keepalive = .active → c.httpVersion ≠ .http09 →
    ∃ heads out bs ls, Consumed heads out bs c ∧ headerReader.Completes bs ls ∧ calls c.trace = headerCalls ls

/-- A connection between two rounds. -/
structure Request.Follows (c : Request) : Prop where
  header : c.status.inHeader → c.Tracked
  ended : ¬ c.status.inHeader → c.status < .timedOut → c.HeaderRead

/-- A request that is over. An option line that is refused without a response leaves nothing to be sent. -/
def Request.HeaderOver (c : Request) : Prop :=
  c.status < .timedOut → c.responseStatus ≠ 0 ∨ c.bufferEnd ≠ 0 → c.HeaderRead

/-- What a round leaves. -/
def Tracks (p : Request × Ret) : Prop := (p.2 = .done → p.1.HeaderOver) ∧ (p.2 ≠ .done → p.1.Follows)

namespace Request

lemma received_eq (hp : d.past = c.past) (ht : receivedBytes d.trace = receivedBytes c.trace) :
    d.received = c.received := by
  simp [received, traces, hp, ht]

lemma HeaderRead.of_stopped (h : c.keepalive = .stopped) : c.HeaderRead := by
  intro hk
  rw [h] at hk
  cases hk

lemma Follows.of_versionless (h : c.Versionless) : c.Follows := ⟨fun _ => .inl h, fun _ _ _ hne => absurd h.2 hne⟩

end Request

lemma Tracks.of_versionless {p : Request × Ret} (h : p.1.Versionless) : Tracks p :=
  ⟨fun _ _ _ _ hne => absurd h.2 hne, fun _ => .of_versionless h⟩

lemma Tracks.refused (h : Refused c d) : Tracks (d, .done) := by
  obtain ⟨o, code, rfl, -⟩ := h
  exact ⟨fun _ _ _ => .of_stopped rfl, fun hr => absurd rfl hr⟩

/-- A byte was taken. -/
lemma Consumed.take {heads : List Bytes} {out : List (List Bytes)} (h : Consumed heads out bs c) (hp : d.past = c.past)
    (ht : receivedBytes d.trace = receivedBytes c.trace) (hun : c.unparsed = uc :: d.unparsed) :
    Consumed heads out (bs ++ [uc]) d := by
  refine ⟨h.complete, hp ▸ h.past, ?_⟩
  rw [Request.received_eq hp ht, h.received, hun]
  simp

namespace ReadTo

/-- What lies ahead of the parser is not touched. -/
lemma ahead (h : ReadTo bs s c) (hdrop : c.unparsed = uc :: rest) (hin : c.status.inHeader)
    (hs : (c.advance uc).status = .oneLf) : (c.advance uc).terminateLine.unparsed = rest := by
  have hpos := h.pos
  obtain ⟨hfrom, huc⟩ := nextStatus_oneLf hin hs
  obtain ⟨hend, hle⟩ := h.marked (.inr huc) hfrom
  show (c.clientStream.set (c.advance uc).headerEnd.off 0).drop (c.parsePos + 1) = rest
  rw [List.drop_set_of_lt (by omega)]
  exact drop_succ hdrop

/-- The blank line behind the header. -/
lemma finish (h : ReadTo bs s c) (hs : (c.advance uc).status = .bodyRead) :
    headerReader.Completes (bs ++ [uc]) s.lines := by
  have hnext : nextStatus s.status uc = .bodyRead := h.status ▸ hs
  have hstep : (s.step uc).status = .bodyRead ∧ (s.step uc).lines = s.lines := by
    unfold HeaderScan.step
    dsimp only
    rw [if_neg (by rw [hnext]; decide)]
    exact ⟨hnext, rfl⟩
  refine .step h.opens ?_
  show (if (s.step uc).status = .bodyRead then some (s.step uc).lines else none) = some s.lines
  rw [if_pos hstep.1, hstep.2]

end ReadTo

open Request in
/-- The end of the header leaves the stream as it is. -/
lemma endHeader_reads (env : Env) (h0 : c.bufferStart = 0) :
    (c.endHeader env).1.past = c.past ∧ (c.endHeader env).1.unparsed = c.unparsed ∧
      (c.endHeader env).1.httpVersion = c.httpVersion ∧ (c.endHeader env).1.logline = c.logline ∧
      calls (c.endHeader env).1.trace = calls c.trace ++ [.headerEnd] := by
  have hconc := processHeaderEnd_concluded (S := False) env c h0
  obtain ⟨-, hstream, hpast, -, hversion, -, hlog, hpos⟩ := of_kept (of_fixed hconc.fixed).1
  have hcalls : calls (c.endHeader env).1.trace = calls c.trace ++ [.headerEnd] := by
    have hidle : Adds Event.idle (c.log .headerEnd).trace (c.endHeader env).1.trace := by
      refine (hconc.adds.mono fun e he => ?_).trans ((endHeader_adds env c).mono fun e he => ?_)
      · exact he.elim (fun h => Event.idle_of_later (Event.later_of_answers h)) Event.idle_of_overwrites
      · exact Event.idle_of_later (Event.later_of_answers he)
    rw [calls_adds hidle]
    exact calls_snoc c.trace rfl
  have hun : (c.processHeaderEnd env).1.unparsed = c.unparsed := by
    unfold unparsed
    rw [hstream, hpos]
    rfl
  obtain ⟨-, he⟩ | ⟨-, he⟩ | ⟨-, -, he⟩ := endHeader_cases env c
  · rw [he] at hcalls ⊢
    exact ⟨hpast, hun, hversion, hlog, hcalls⟩
  · rw [he] at hcalls ⊢
    exact ⟨hpast, hun, hversion, hlog, hcalls⟩
  · refine ⟨?_, ?_, ?_, ?_, hcalls⟩ <;> rw [he] <;>
      obtain ⟨_, _, _, _, hb | ⟨e, hb, ⟨_, _, rfl, -⟩⟩⟩ := startBody_cases env (c.processHeaderEnd env).1 <;> rw [hb]
    · exact hpast
    · exact hpast
    · exact hun
    · exact hun
    · exact hversion
    · exact hversion
    · exact hlog
    · exact hlog

open Request in
/-- A byte of the header that the parser goes on from. -/
lemma ByteStep.goes_on (h : ByteStep env c uc d none) (hp : Parsing False c) (ht : c.Tracked)
    (hdrop : c.Versionless ∨ c.unparsed = uc :: rest) :
    d.Tracked ∧ (d.Versionless ∨ d.unparsed = rest) ∧ d.responseStatus = c.responseStatus := by
  have hdeaf := receivedBytes_adds (h.deaf hp.start)
  have hless (hv : c.Versionless) :
      d.Tracked ∧ (d.Versionless ∨ d.unparsed = rest) ∧ d.responseStatus = c.responseStatus := by
    cases h with
    | skip hi h1 h2 => exact ⟨.inl hv, .inl hv, rfl⟩
    | option hi hs hlog hd hc =>
      obtain ⟨_, _, _, _, _, _, _, _, _, _, _, _, rfl⟩ := hd
      exact ⟨.inl hv, .inl hv, rfl⟩
    | logline hi hs hlog hd hversion => exact absurd (hv.1.symm.trans hlog) (by decide)
  obtain hv | hdrop := hdrop
  · exact hless hv
  obtain hv | ⟨heads, out, bs, s, hc, hs⟩ := ht
  · exact hless hv
  have hset : (c.advance uc).terminateLine.clientStream.length = c.clientStream.length := List.length_set
  cases h with
  | skip hi h1 h2 =>
    have hun : (c.advance uc).unparsed = rest := drop_succ hdrop
    refine ⟨.inr ⟨heads, out, bs ++ [uc], s.step uc, hc.take rfl hdeaf ?_, hs.skip hdrop hp.header h1 h2⟩,
      .inr hun, rfl⟩
    rw [hun]
    exact hdrop
  | option hi hst hlog hd hcount =>
    have hahead := hs.ahead hdrop hp.header hst
    obtain ⟨_, _, _, _, _, _, _, _, _, _, _, _, rfl⟩ := hd
    refine ⟨.inr ⟨heads, out, bs ++ [uc], s.step uc,
      hc.take rfl hdeaf (hdrop.trans (congrArg (uc :: ·) hahead.symm)), ?_⟩, .inr hahead, rfl⟩
    refine hs.ended hdrop hp.header hst hst ?_ hlog rfl hset rfl
    rw [if_pos hlog]
    exact calls_snoc c.trace rfl
  | logline hi hst hlog hd hv =>
    have hahead := hs.ahead hdrop hp.header hst
    obtain ⟨_, _, _, _, _, _, rfl, -⟩ := hd
    refine ⟨.inr ⟨heads, out, bs ++ [uc], s.step uc,
      hc.take rfl hdeaf (hdrop.trans (congrArg (uc :: ·) hahead.symm)), ?_⟩, .inr hahead, rfl⟩
    refine hs.ended hdrop hp.header hst hst ?_ rfl rfl hset rfl
    rw [hlog]
    exact calls_snoc c.trace rfl

open Request in
/-- A byte that the parser stops at. -/
lemma ByteStep.stops {ret : Ret} (h : ByteStep env c uc d (some ret)) (hp : Parsing False c) (ht : c.Tracked)
    (h0 : c.responseStatus = 0) (hdrop : c.Versionless ∨ c.unparsed = uc :: rest) : Tracks (d, ret) := by
  have hdeaf := receivedBytes_adds (h.deaf hp.start)
  cases h with
  | illegal hi hd => exact .refused hd
  | tooLong hi hs hl hd => exact .refused hd
  | loglineStop hi hs hl hd he => exact .refused he
  | optionStop hi hst hl hd =>
    obtain ⟨e, ⟨_, _, _, _, _, _, _, _, _, _, _, _, rfl⟩, ⟨rfl, -⟩ | ⟨-, hr⟩⟩ := hd
    · refine ⟨fun _ _ hne => ?_, fun hr => absurd rfl hr⟩
      obtain hne | hne := hne
      · exact absurd h0 hne
      · exact absurd hp.empty hne
    · exact .refused hr
  | @short e hi hst hl hd hv =>
    have hlog : e.logline = true ∧ e.bufferStart = 0 := by
      obtain ⟨_, _, _, _, _, _, rfl, -⟩ := hd
      exact ⟨rfl, hp.start⟩
    obtain ⟨-, -, -, -, hversion, -, hl, -⟩ :=
      of_kept (of_fixed (processHeaderEnd_concluded (S := False) env e hlog.2).fixed).1
    exact .of_versionless ⟨Eq.trans hl hlog.1, Eq.trans hversion hv⟩
  | finish hi hst =>
    obtain ⟨hpast, hun, hversion, hlog, hcalls⟩ := endHeader_reads (c := c.advance uc) env hp.start
    obtain hv | hdrop := hdrop
    · exact .of_versionless ⟨hlog.trans hv.1, hversion.trans hv.2⟩
    obtain hv | ⟨heads, out, bs, s, hc, hs⟩ := ht
    · exact .of_versionless ⟨hlog.trans hv.1, hversion.trans hv.2⟩
    · have hread : ((c.advance uc).endHeader env).1.HeaderRead := by
        intro _ _
        refine ⟨heads, out, bs ++ [uc], s.lines, hc.take hpast hdeaf ?_, hs.finish hst, ?_⟩
        · rw [hun]
          exact hdrop.trans (congrArg (uc :: ·) (drop_succ hdrop).symm)
        · rw [hcalls]
          exact congrArg (· ++ [Event.headerEnd]) hs.calls
      refine ⟨fun _ _ _ => hread, fun hr => ⟨fun hin => ?_, fun _ _ => hread⟩⟩
      exact absurd hin (endHeader_behind hp.start hr)

namespace Request

/-- The loop of `read_header`. -/
lemma scanHeader_tracks (env : Env) (rest : Bytes) {c : Request} (hp : Parsing False c) (ht : c.Tracked)
    (h0 : c.responseStatus = 0) (hdrop : c.Versionless ∨ c.unparsed = rest) :
    ((scanHeader env c rest).2 = none → (scanHeader env c rest).1.Tracked ∧
      ((scanHeader env c rest).1.Versionless ∨ (scanHeader env c rest).1.unparsed = [])) ∧
    (∀ ret, (scanHeader env c rest).2 = some ret → Tracks ((scanHeader env c rest).1, ret)) ∧
      receivedBytes (scanHeader env c rest).1.trace = receivedBytes c.trace := by
  induction rest generalizing c with
  | nil => exact ⟨fun _ => ⟨ht, hdrop⟩, fun ret hr => by simp [scanHeader] at hr, rfl⟩
  | cons uc rest ih =>
    have hstep := headerByte_step env c uc
    have hended := hstep.ended hp
    have hdeaf := receivedBytes_adds (hstep.deaf hp.start)
    unfold scanHeader
    generalize c.headerByte env uc = r at hstep hended hdeaf
    obtain ⟨d, _ | ret⟩ := r
    · obtain ⟨hd, hnext, hcode⟩ := hstep.goes_on hp ht hdrop
      obtain ⟨hgo, hstop, hrest⟩ := ih (hended.1 rfl) hd (hcode.trans h0) hnext
      exact ⟨hgo, hstop, hrest.trans hdeaf⟩
    · refine ⟨fun hn => by simp at hn, fun ret' hret => ?_, hdeaf⟩
      obtain rfl : ret = ret' := Option.some.inj hret
      exact hstep.stops hp ht h0 hdrop

/-- What is received lies behind the line. -/
lemma Tracked.receive (h : c.Tracked) (bs : Bytes) :
    Tracked { c.popClient.log (.received bs) with clientStream := c.clientStream ++ bs } := by
  obtain hv | ⟨heads, out, as, s, hc, hs⟩ := h
  · exact .inl hv
  · have hpos := hs.pos
    have hslice : slice (c.clientStream ++ bs) c.headerLine.off c.parsePos =
        slice c.clientStream c.headerLine.off c.parsePos := by
      rw [slice, slice, ← List.drop_take, ← List.drop_take, List.take_append_of_le_length hs.size]
    refine .inr ⟨heads, out, as, s, ⟨hc.complete, hc.past, ?_⟩,
      ⟨hs.opens, hs.status, ?_, hs.logline, hpos, ?_, ?_, hs.mark⟩⟩
    · have hreceived := hc.received
      have hun : (c.clientStream ++ bs).drop c.parsePos = c.unparsed ++ bs := List.drop_append_of_le_length hs.size
      show (c.past ++ [c.trace ++ [Event.received bs]]).flatMap receivedBytes =
        _ ++ (c.clientStream ++ bs).drop c.parsePos
      rw [hun, ← List.append_assoc, ← hreceived]
      simp [received, traces, receivedBytes, Event.receivedBytes]
    · exact (calls_skip c.trace rfl).trans hs.calls
    · show c.parsePos ≤ (c.clientStream ++ bs).length
      rw [List.length_append]
      exact hs.size.trans (Nat.le_add_right _ _)
    · exact hslice.trans hs.text

/-- `read` is asked for more of the header. -/
lemma readMore_tracks (hp : Parsing False c) (ht : c.Tracked) (hno : ∀ r ∈ c.client, ¬ r.ends) : Tracks c.readMore := by
  have hpop : c.popClient.Tracked := by
    obtain hv | ⟨heads, out, bs, s, hc, hs⟩ := ht
    · exact .inl hv
    · exact .inr ⟨heads, out, bs, s, ⟨hc.complete, hc.past, hc.received⟩,
        ⟨hs.opens, hs.status, hs.calls, hs.logline, hs.pos, hs.size, hs.text, hs.mark⟩⟩
  have hin : c.status.inHeader := hp.header
  unfold readMore
  dsimp only
  split_ifs with hroom
  · exact ⟨fun _ hl => absurd hl not_live_dead, fun hr => absurd rfl hr⟩
  · have hends := nextClient_ends (c := c) (show 0 < clientStreamSize - c.clientStreamPos by omega)
    split
    · exact ⟨fun hr => by simp at hr, fun _ => ⟨fun _ => hpop, fun hout => absurd hin hout⟩⟩
    · exact ⟨fun hr => by simp at hr, fun _ => ⟨fun _ => hpop, fun hout => absurd hin hout⟩⟩
    · next h =>
      obtain ⟨r, hr, he⟩ := hends (.inr h)
      exact absurd he (hno r hr)
    · next h =>
      obtain ⟨r, hr, he⟩ := hends (.inl h)
      exact absurd he (hno r hr)
    · exact ⟨fun hr => by simp at hr, fun _ => ⟨fun _ => ht.receive _, fun hout => absurd hin hout⟩⟩

lemma readMore_receives (c : Request) : receivedBytes c.trace <+: receivedBytes c.readMore.1.trace := by
  have hsnoc (e : Event) : receivedBytes c.trace <+: receivedBytes (c.trace ++ [e]) := by
    rw [receivedBytes, receivedBytes, List.flatMap_append]
    exact List.prefix_append _ _
  unfold readMore
  dsimp only
  split_ifs
  · exact hsnoc _
  · split
    · exact List.prefix_rfl
    · exact List.prefix_rfl
    · exact List.prefix_rfl
    · exact hsnoc _
    · exact hsnoc _

/-- A round in the header. -/
lemma readHeader_tracks (env : Env) (hp : Parsing False c) (hclear : Clear c) (hc : c.Poised) (ht : c.Tracked)
    (hno : ∀ r ∈ c.client, ¬ r.ends) :
    Tracks (c.readHeader env) ∧ receivedBytes c.trace <+: receivedBytes (c.readHeader env).1.trace := by
  obtain ⟨hgo, hstop, hsame⟩ := scanHeader_tracks env (c.clientStream.drop c.parsePos) hp ht hc.unset (.inr rfl)
  have hparsed := scanHeader_parsed env (c.clientStream.drop c.parsePos) hp hclear hc
  have hended := scanHeader_ended env hp (c.clientStream.drop c.parsePos)
  unfold readHeader
  generalize scanHeader env c (c.clientStream.drop c.parsePos) = r at hgo hstop hsame hparsed hended
  obtain ⟨d, _ | ret⟩ := r
  · have hparsing := hended.1 rfl
    have hclient : ∀ r ∈ d.client, ¬ r.ends := by
      rw [(hparsed.goes rfl).2]
      exact hno
    dsimp only
    rw [if_pos (show d.status < .bodyRead from hparsing.header), ← hsame]
    exact ⟨readMore_tracks hparsing (hgo rfl).1 hclient, readMore_receives d⟩
  · exact ⟨hstop ret rfl, hsame ▸ List.prefix_rfl⟩

/-! ### Runs -/

/-- The requests that were answered are the first headers of the stream. -/
def InOrder (c : Request) : Prop := c.past.map calls <+: (headerReader.blocks c.received).map headerCalls

lemma InOrder.mono (h : c.InOrder) (hp : d.past = c.past) (hr : c.received <+: d.received) : d.InOrder := by
  obtain ⟨bs, hbs⟩ := hr
  have hblocks : headerReader.blocks c.received <+: headerReader.blocks d.received := by
    rw [← hbs]
    exact BlockReader.blocksFrom_prefix _ _ _
  unfold InOrder
  rw [hp]
  exact h.trans (hblocks.map headerCalls)

lemma received_adds (hp : d.past = c.past) (ht : Adds Event.idle c.trace d.trace) : d.received = c.received :=
  received_eq hp (receivedBytes_adds (ht.mono fun _ he => he.2))

/-- Steps that leave the header alone. -/
lemma HeaderRead.carry (h : c.HeaderRead) (hk : d.kept = c.kept) (ht : Adds Event.idle c.trace d.trace)
    (hka : d.keepalive = c.keepalive ∨ d.keepalive = .stopped) : d.HeaderRead := by
  obtain ⟨-, hstream, hpast, -, hversion, -, -, hpos⟩ := of_kept hk
  obtain hka | hka := hka
  · intro hactive hv
    obtain ⟨heads, out, bs, ls, hc, hdone, hcalls⟩ := h (hka ▸ hactive) (hversion ▸ hv)
    refine ⟨heads, out, bs, ls, ⟨hc.complete, hpast ▸ hc.past, ?_⟩, hdone, (calls_adds ht).trans hcalls⟩
    rw [received_adds hpast ht, hc.received, unparsed, unparsed, hstream, hpos]
  · exact .of_stopped hka

lemma Tracked.of_eq (h : c.Tracked) (hk : d.kept = c.kept) (ht : d.trace = c.trace)
    (he : (d.status, d.headerLine, d.headerEnd) = (c.status, c.headerLine, c.headerEnd)) : d.Tracked := by
  obtain ⟨-, hstream, hpast, -, hversion, -, hlog, hpos⟩ := of_kept hk
  simp only [Prod.mk.injEq] at he
  obtain ⟨hs, hline, hend⟩ := he
  obtain ⟨hl, hv⟩ | ⟨heads, out, bs, s, hc, hr⟩ := h
  · exact .inl ⟨hlog.trans hl, hversion.trans hv⟩
  · refine .inr ⟨heads, out, bs, s, ⟨hc.complete, hpast ▸ hc.past, ?_⟩,
      ⟨hr.opens, hs.trans hr.status, ?_, ?_, ?_, ?_, ?_, ?_⟩⟩
    · rw [received_eq hpast (congrArg receivedBytes ht), hc.received, unparsed, unparsed, hstream, hpos]
    · rw [ht]
      exact hr.calls
    · rw [hlog]
      exact hr.logline
    · rw [hline, hpos]
      exact hr.pos
    · rw [hstream, hpos]
      exact hr.size
    · rw [hstream, hline, hpos]
      exact hr.text
    · rw [hline, hend]
      exact hr.mark

/-- One round. -/
lemma serveOnce_tracks (hw : Whole False c) (hprom : c.Promising) (h : c.Follows)
    (hno : c.status.inHeader → ∀ r ∈ env.client, ¬ r.ends) :
    Tracks (c.serveOnce env) ∧ c.received <+: (c.serveOnce env).1.received := by
  have hpast := serveOnce_past env hw
  obtain ⟨hhead, hp, he⟩ | ⟨hout, hlater⟩ := serveOnce_cases env hw
  · have hlow : c.status.rank < 6 := by
      have := Status.inHeader_iff.mp hhead
      omega
    have hclear : Clear (c.arm env) := (hprom.clear hlow).books (.of_eq rfl rfl id) rfl
    have hpoised : (c.arm env).Poised := (hprom.header hhead).of_eq (.refl _) id rfl fun _ => rfl
    have htracked : (c.arm env).Tracked := (h.header hhead).of_eq rfl rfl rfl
    obtain ⟨htracks, hgrows⟩ := readHeader_tracks env hp hclear hpoised htracked (hno hhead)
    rw [he] at hpast ⊢
    refine ⟨htracks, ?_⟩
    have hgrows : receivedBytes c.trace <+: receivedBytes ((c.arm env).readHeader env).1.trace := hgrows
    simpa [received, traces, hpast] using hgrows
  · have hidle : Adds Event.idle c.trace (c.serveOnce env).1.trace := hlater.adds.mono fun _ => Event.idle_of_later
    have hbehind := serveOnce_behind env hw hout
    rw [received_adds hpast hidle]
    refine ⟨?_, List.prefix_rfl⟩
    by_cases hlive : c.status < .timedOut
    · have hread := (h.ended hout hlive).carry hlater.kept hidle hlater.idle
      exact ⟨fun _ _ _ => hread, fun hr => ⟨fun hin => absurd hin (hbehind hr), fun _ _ => hread⟩⟩
    · rw [serveOnce_dead hlive]
      exact ⟨fun _ hl => absurd hl hlive, fun hr => absurd rfl hr⟩

/-- A request that is over is recycled behind its whole header. -/
lemma endRequest_follows (env : Env) (h : c.HeaderOver) (htold : c.status < .timedOut → c.Told) (hc : c.InOrder) :
    (c.endRequest env).1.InOrder ∧ ((c.endRequest env).2 ≠ .free → (c.endRequest env).1.Follows) := by
  obtain ⟨es, code, hes, hcases⟩ := endRequest_cases env c
  have hidle : Adds Event.idle c.trace (c.trace ++ es) :=
    ⟨es, rfl, fun e he => Event.idle_of_later (Event.later_of_answers (Event.answers_of_isNote (hes e he)))⟩
  obtain ⟨hr, he⟩ | ⟨-, he⟩ := hcases
  · obtain ⟨hl, hactive, hcode, hne, hcount⟩ := decide_eq_true_eq.mp hr
    obtain ⟨heads, out, bs, ls, hcon, hdone, hcalls⟩ :=
      h hl (.inl hne) hactive (htold hl hactive hcount hcode hne).2
    have hparsed : Consumed (heads ++ [bs]) (out ++ [ls]) [] (c.recycled (c.trace ++ es)) := by
      refine ⟨List.rel_append hcon.complete (.cons hdone .nil), ?_, ?_⟩
      · show (c.past ++ [c.trace ++ es]).map calls = (out ++ [ls]).map headerCalls
        rw [List.map_append, List.map_append, hcon.past, List.map_singleton, calls_adds hidle, hcalls]
        rfl
      · have hreceived : (c.recycled (c.trace ++ es)).received = c.received := by
          have hbytes := receivedBytes_adds (hidle.mono fun _ he => he.2)
          show (c.past ++ [c.trace ++ es] ++ [[]]).flatMap receivedBytes = (c.past ++ [c.trace]).flatMap receivedBytes
          rw [List.flatMap_append, List.flatMap_append, List.flatMap_append, List.flatMap_singleton, hbytes]
          simp [receivedBytes]
        rw [hreceived, hcon.received]
        simp [unparsed, recycled]
    rw [he]
    refine ⟨?_, fun _ => ⟨fun _ => .inr ⟨_, _, [], {}, hparsed, ?_⟩, fun hout => ?_⟩⟩
    · unfold InOrder
      rw [hparsed.past, hparsed.received, List.append_nil, BlockReader.blocks_flatten hparsed.complete]
      exact (List.prefix_append _ _).map headerCalls
    · exact ⟨.start, rfl, rfl, by simp [recycled], rfl, Nat.zero_le _, rfl, fun hcr => by simp at hcr⟩
    · exact absurd (show Status.readHeader.inHeader by decide) hout
  · have hsame : ({ c with trace := c.trace ++ es, responseStatus := code } : Request).received = c.received :=
      received_adds (c := c) rfl hidle
    rw [he]
    exact ⟨hc.mono rfl (hsame ▸ List.prefix_rfl), fun hp => absurd rfl hp⟩

/-- `free_request`, while a response is flushed and behind it. -/
lemma freeRequest_follows (env : Env) (ho : Over False c) (h : c.HeaderOver) (htold : c.status < .timedOut → c.Told)
    (hc : c.InOrder) :
    (c.freeRequest env).1.InOrder ∧ ((c.freeRequest env).2 ≠ .free → (c.freeRequest env).1.Follows) := by
  let e : Request := { c with toOut := { c.toOut with status := .done }.reqFlush.1 }
  have hcarries : Carries c e :=
    (Carries.setStatus c not_piped_done).trans (reqFlush_carries { c with toOut := { c.toOut with status := .done } })
  have hidle : Adds Event.idle c.trace e.trace := hcarries.adds.mono fun e he => by
    cases e <;> first | exact ⟨rfl, rfl⟩ | simp [Event.carries] at he
  have hsame : e.received = c.received := received_adds (c := c) rfl hidle
  have hflushed : e.InOrder := hc.mono rfl (hsame ▸ List.prefix_rfl)
  obtain ⟨hb, hl, n, hn, he⟩ | ⟨-, -, -, he⟩ | ⟨hb, hl, -, he⟩ | ⟨-, he⟩ := freeRequest_cases env c
  · have hok : Out.BufOk { c.toOut with status := .done } :=
      ⟨(ho.ok hl).start_le, (ho.ok hl).end_le, (ho.ok hl).size⟩
    have hs : e.status = .done := (Out.reqFlush_left hok hn).2.1
    have hread : e.HeaderRead := (h hl (.inr hb)).carry rfl hidle (.inl rfl)
    rw [he]
    refine ⟨hflushed, fun _ => ⟨fun hin => ?_, fun _ _ => hread⟩⟩
    have hin : e.status.inHeader := hin
    rw [hs] at hin
    exact absurd hin (by decide)
  · let dead : Request := { e with status := .dead }
    have hdead : dead.InOrder := hflushed
    rw [he]
    exact endRequest_follows (c := dead) env (fun hl => absurd hl not_live_dead)
      (fun hl => absurd hl not_live_dead) hdead
  · rw [he]
    refine endRequest_follows (c := e) env (fun _ _ => ?_) (fun _ => hcarries.told (htold hl)) hflushed
    exact (h hl (.inr hb)).carry rfl hidle (.inl rfl)
  · rw [he]
    exact endRequest_follows env h htold hc

lemma Follows.heedSigterm (h : c.Follows) (env : Env) : (c.heedSigterm env).Follows := by
  unfold Request.heedSigterm
  split_ifs
  · exact ⟨fun hin => (h.header hin).of_eq rfl rfl rfl, fun _ _ => .of_stopped rfl⟩
  · exact h

lemma getRequest_follows (env : Env) (peer : Peer) (old : Request) :
    (old.getRequest env peer).InOrder ∧ (old.getRequest env peer).Follows := by
  have hfirst (c : Request) (hpast : c.past = []) : c.InOrder := by
    unfold InOrder
    rw [hpast]
    exact List.nil_prefix
  unfold getRequest
  dsimp only
  split_ifs
  · obtain ⟨o, code, he, -⟩ := sendRServiceUnavailable_refused env { (old.sanitizeNew env).arm env with
      localIpAddr := peer.localIpAddr, remoteIpAddr := peer.remoteIpAddr,
      remotePort := peer.remotePort, httpVersion := .http10, method := .get }
    rw [he]
    refine ⟨hfirst _ rfl, fun hin => ?_, fun _ _ => .of_stopped rfl⟩
    exact absurd hin (show ¬ Status.done.inHeader by decide)
  · refine ⟨hfirst _ rfl, fun _ => .inr ⟨[], [], [], {}, ⟨.nil, rfl, rfl⟩, ?_⟩, fun hout => ?_⟩
    · exact ⟨.start, rfl, rfl, by simp [sanitizeNew, arm], rfl, Nat.zero_le _, rfl, fun hcr => by simp at hcr⟩
    · exact absurd (show Status.readHeader.inHeader by decide) hout

end Request

open Request in
/-- Between all rounds the requests were read in the order of the stream. -/
lemma reach_follows {p : Place} (h : Reach Attentive c p) : c.InOrder ∧ (p ≠ .free → c.Follows) := by
  induction h with
  | accept env peer old hP => exact (getRequest_follows env peer old).imp_right fun hf _ => hf
  | @pass c env hr hP ih =>
    obtain ⟨hin, hfollows⟩ := ih
    have hw := (reach_whole (S := False) False.elim hr).1 (by simp)
    have hprom := promising_rule.reach hr (by simp)
    obtain ⟨⟨hdone, hmore⟩, hgrows⟩ := serveOnce_tracks hw hprom (hfollows (by simp)) hP
    obtain ⟨htold, -⟩ := serveOnce_tells hw hprom hP
    obtain ⟨-, hover⟩ := @serveOnce_ended _ env _ hw (fun hS => hS.elim) (fun hS => hS.elim)
    have hround := hin.mono (serveOnce_past env hw) hgrows
    unfold processRequest
    dsimp only
    generalize c.serveOnce env = r at hdone hmore htold hover hround
    obtain ⟨d, ret⟩ := r
    have hheed : (d.heedSigterm env).InOrder := by
      obtain ⟨k, hk⟩ := heedSigterm_eq env d
      rw [hk]
      exact hround
    cases ret with
    | blocked => exact ⟨hheed, fun _ => (hmore (by simp)).heedSigterm env⟩
    | more => exact ⟨hheed, fun _ => (hmore (by simp)).heedSigterm env⟩
    | done =>
      refine freeRequest_follows env ((hover rfl).heedSigterm env) ?_ (promising_rule.heedDone env (htold rfl)) hheed
      have hd : d.HeaderOver := hdone rfl
      unfold heedSigterm
      split_ifs
      · exact fun _ _ => .of_stopped rfl
      · exact hd
  | @wake c w hr hP ih =>
    obtain ⟨hin, hfollows⟩ := ih
    cases w with
    | ready => exact ⟨hin, fun _ => hfollows (by simp)⟩
    | timedOut =>
      refine ⟨hin, fun _ => ⟨fun hh => ?_, fun _ hl => ?_⟩⟩
      · exact absurd hh (show ¬ Status.timedOut.inHeader by decide)
      · exact absurd hl (show ¬ Status.timedOut < .timedOut by decide)
    | dead =>
      refine ⟨hin, fun _ => ⟨fun hh => ?_, fun _ hl => ?_⟩⟩
      · exact absurd hh (show ¬ Status.dead.inHeader by decide)
      · exact absurd hl not_live_dead

/-- However the bytes of a connection are cut into reads: the requests that were answered are the first
headers of the stream, line by line, and the header that is being read was followed as far as its bytes
were parsed. The second part leaves out a POST without a version. `read_header` calls `process_header_end`
right behind its request line and returns before it moves `header_line`, so the next line end hands the
request line to `process_option_line`. -/
theorem requests_read {p : Place} (h : Reach Attentive c p) :
    c.past.map calls <+: (headerReader.blocks c.received).map headerCalls ∧
      (p ≠ .free → c.status.inHeader → c.httpVersion ≠ .http09 → ∃ bs, c.received = bs ++ c.unparsed ∧
        c.past.map calls = (headerReader.blocks bs).map headerCalls ∧
        calls c.trace = lineCalls (headerReader.behind bs).lines) := by
  obtain ⟨hin, hfollows⟩ := reach_follows h
  refine ⟨hin, fun hp hhead hv => ?_⟩
  obtain hless | ⟨heads, out, bs, s, hc, hs⟩ := (hfollows hp).header hhead
  · exact absurd hless.2 hv
  · have hblocks : headerReader.blocks bs = [] := by
      have hopen := hs.opens.blocks []
      rwa [List.append_nil] at hopen
    have hbehind : headerReader.behind bs = s := by
      have hopen := hs.opens.behind []
      rwa [List.append_nil] at hopen
    refine ⟨heads.flatten ++ bs, hc.received, ?_, ?_⟩
    · rw [hc.past, BlockReader.blocks_flatten hc.complete, hblocks, List.append_nil]
    · rw [hs.calls, BlockReader.behind_flatten hc.complete, hbehind]

/-- A request whose line is cut, and the beginning of the next one behind it. -/
def cutClient : Env := tinyClient "GET /f HT"
def restClient : Env := tinyClient "TP/1.1\r\n\r\nGET"

theorem requests_read_cut : (((receivedBy cutClient).processRequest restClient).1.processRequest roomyEnv).1.past.map calls =
      [[.logline (text "GET /f HTTP/1.1"), .headerEnd]] ∧
    (((receivedBy cutClient).processRequest restClient).1.processRequest roomyEnv).1.past.map calls <+:
      (headerReader.blocks (((receivedBy cutClient).processRequest restClient).1.processRequest roomyEnv).1.received).map
        headerCalls := by
  have hstart : Reach Attentive (Request.getRequest tinyEnv tinyPeer {}) .ready := .accept tinyEnv tinyPeer {} trivial
  have hstays (request : String) (hne : (text request).isEmpty = false) :
      ∀ r ∈ (tinyClient request).client, ¬ r.ends := by
    intro r hr
    rw [List.mem_singleton.mp hr]
    exact Bool.not_eq_true _ ▸ hne
  have hready : ((Request.getRequest tinyEnv tinyPeer {}).processRequest cutClient).2 = .ready ∧
      ((receivedBy cutClient).processRequest restClient).2 = .ready := by
    decide +kernel
  have hcut := Reach.pass cutClient hstart fun _ => hstays "GET /f HT" (by decide +kernel)
  rw [hready.1] at hcut
  have hrest := Reach.pass restClient hcut fun _ => hstays "TP/1.1\r\n\r\nGET" (by decide +kernel)
  rw [show (((Request.getRequest tinyEnv tinyPeer {}).processRequest cutClient).1.processRequest restClient).2 = .ready from
    hready.2] at hrest
  have hpass := Reach.pass roomyEnv hrest fun _ r hr => absurd hr List.not_mem_nil
  exact ⟨by decide +kernel, (requests_read hpass).1⟩

/-- A POST without a version: its request line is taken for the first option line too. -/
example : ((Request.getRequest aliasEnv tinyPeer {}).rounds [aliasClient "POST /a\nX: y\n", aliasEnv]).map
    (fun c => calls (c.processRequest aliasEnv).1.trace) =
      some [.logline (text "POST /a"), .headerEnd, .optionLine (text "POST /a")] := by
  decide +kernel

/-- Two connections on which the same bytes arrive, in different pieces, answer the same requests. -/
theorem segmentation {p q : Place} (h : Reach Attentive c p) (h' : Reach Attentive d q)
    (hbytes : c.received <+: d.received) (hlen : c.past.length ≤ d.past.length) :
    c.past.map calls <+: d.past.map calls := by
  obtain ⟨hc, -⟩ := reach_follows h
  obtain ⟨hd, -⟩ := reach_follows h'
  obtain ⟨bs, hbs⟩ := hbytes
  have hblocks : headerReader.blocks c.received <+: headerReader.blocks d.received := by
    rw [← hbs]
    exact BlockReader.blocksFrom_prefix _ _ _
  refine List.prefix_of_prefix_length_le (hc.trans (hblocks.map headerCalls)) hd ?_
  rwa [List.length_map, List.length_map]

end Boa
