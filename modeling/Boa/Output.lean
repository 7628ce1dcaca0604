import Boa.Channel
import Boa.History
import Boa.Process

/-! The output buffer as a channel: what the buffer operations keep, and the one
shape all error responses have. -/
namespace Boa
open Memory History

/-- The response text after one more event. -/
def produce (acc : Bytes) : Event → Bytes
  | .queued bs => acc ++ bs
  | .data bs => acc ++ bs
  | .withdrawn bs => acc.take (acc.length - bs.length)
  | _ => acc

/-- The response text a request has produced, in order. -/
def produced (t : List Event) : Bytes := t.foldl produce []

def Event.sentBytes : Event → Bytes
  | .sent bs => bs
  | _ => []

/-- The bytes the client socket has accepted for a request. -/
def sentBytes (t : List Event) : Bytes := t.flatMap Event.sentBytes

/-- Neither response text nor something sent. -/
def Event.quiet (e : Event) : Prop := (∀ acc, produce acc e = acc) ∧ e.sentBytes = []

@[simp] lemma produced_snoc (t : List Event) (e : Event) :
    produced (t ++ [e]) = produce (produced t) e := by
  simp [produced]

@[simp] lemma produced_nil : produced [] = [] := rfl

@[simp] lemma sentBytes_snoc (t : List Event) (e : Event) :
    sentBytes (t ++ [e]) = sentBytes t ++ e.sentBytes := by
  simp [sentBytes]

@[simp] lemma sentBytes_nil : sentBytes [] = [] := rfl

namespace Out

/-- The size of the array `buffer` and the bounds of what it holds. -/
structure BufOk (o : Out) : Prop where
  start_le : o.bufferStart ≤ o.bufferEnd
  end_le : o.bufferEnd ≤ bufferSize
  size : o.buffer.length = bufferSize + 1

/-- The client socket gives no error in this round. -/
def Steady (o : Out) : Prop := ∀ r ∈ o.sock, r ≠ .intr ∧ r ≠ .err

/-- The channel the buffer implements. -/
def channel (o : Out) : Channel UInt8 := { sent := sentBytes o.trace, queue := o.pending }

/-- The bounds hold and, if `S`, the socket is steady and nothing produced is lost,
duplicated or out of place. -/
structure Sound (S : Prop) (o : Out) : Prop extends BufOk o where
  steady : S → o.Steady
  flow : S → produced o.trace = o.channel.stream

lemma BufOk.end_len {o : Out} (h : o.BufOk) : o.bufferEnd ≤ o.buffer.length := by
  have h1 := h.end_le
  have h2 := h.size
  omega

lemma pending_length {o : Out} (h : o.BufOk) : o.pending.length = o.bufferEnd - o.bufferStart :=
  length_slice h.end_len

lemma pending_eq_nil {o : Out} (h : o.bufferEnd ≤ o.bufferStart) : o.pending = [] :=
  slice_eq_nil h

/-- `req_flush` asks `write` for exactly the pending bytes. -/
lemma bytesToWrite_eq {o : Out} (h : o.BufOk) : o.bytesToWrite = o.bufferEnd - o.bufferStart := by
  have h1 := h.start_le
  have h2 := h.end_le
  unfold bytesToWrite bufferSize at *
  omega

lemma Sound.mono {S S' : Prop} {o : Out} (h : o.Sound S) (hS : S' → S) : o.Sound S' :=
  ⟨h.toBufOk, fun h' => h.steady (hS h'), fun h' => h.flow (hS h')⟩

section Keep
variable {S : Prop} {o : Out}

lemma setStatus_sound (h : o.Sound S) (s : Status) : Sound S { o with status := s } :=
  ⟨⟨h.start_le, h.end_le, h.size⟩, h.steady, h.flow⟩

lemma log_sound (h : o.Sound S) {e : Event} (he : e.quiet) : (o.log e).Sound S := by
  obtain ⟨he1, he2⟩ := he
  refine ⟨⟨h.start_le, h.end_le, h.size⟩, h.steady, fun hS => ?_⟩
  have hf := h.flow hS
  simp only [channel, Channel.stream, log, produced_snoc, sentBytes_snoc, he1, he2,
    List.append_nil] at hf ⊢
  exact hf

lemma logs_sound (h : o.Sound S) {es : List Event} (hes : ∀ e ∈ es, e.quiet) :
    Sound S { o with trace := o.trace ++ es } := by
  induction es using List.reverseRecOn with
  | nil => simpa using h
  | append_singleton es e ih =>
    have h1 := log_sound (ih fun e' he' => hes e' (by simp [he'])) (hes e (by simp))
    simpa [log] using h1

lemma append_pending (h : o.BufOk) (e : Bytes → Event) (bs : Bytes) :
    (o.append e bs).pending = o.pending ++ bs := slice_store_append bs h.start_le h.end_len

lemma append_bufOk (h : o.BufOk) (e : Bytes → Event) {bs : Bytes}
    (hbs : bs.length ≤ bufferSize - o.bufferEnd) : (o.append e bs).BufOk := by
  have h1 := h.start_le
  have h2 := h.end_le
  refine ⟨?_, ?_, ?_⟩
  · show o.bufferStart ≤ o.bufferEnd + bs.length
    omega
  · show o.bufferEnd + bs.length ≤ bufferSize
    omega
  · show (store o.buffer o.bufferEnd bs).length = bufferSize + 1
    rw [length_store bs h.end_len, h.size]
    omega

/-- Text that fits goes to the end of the channel. -/
lemma append_sound (h : o.Sound S) {e : Bytes → Event} (he : e = .queued ∨ e = .data) {bs : Bytes}
    (hbs : bs.length ≤ bufferSize - o.bufferEnd) : (o.append e bs).Sound S := by
  refine ⟨append_bufOk h.toBufOk e hbs, h.steady, fun hS => ?_⟩
  have hf := h.flow hS
  have hp := append_pending h.toBufOk e bs
  have hprod : produced (o.append e bs).trace = produced o.trace ++ bs := by
    rcases he with rfl | rfl <;> simp [append, produce]
  have hsent : sentBytes (o.append e bs).trace = sentBytes o.trace := by
    rcases he with rfl | rfl <;> simp [append, Event.sentBytes]
  rw [hprod, hf, channel, channel, Channel.stream, Channel.stream, hp, hsent, List.append_assoc]

lemma noRoom_sound (h : o.Sound S) : Sound S { o.log .noRoom with status := .dead } :=
  setStatus_sound (log_sound h ⟨fun _ => rfl, rfl⟩) _

lemma reqWrite_sound (h : o.Sound S) (msg : Bytes) : (o.reqWrite msg).Sound S := by
  unfold reqWrite
  split_ifs with h1 h2
  · exact h
  · exact noRoom_sound h
  · exact append_sound h (.inl rfl) (by omega)

lemma finishEscape_sound (h : o.Sound S) {r : Bytes × Bytes}
    (hr : r.1.length ≤ bufferSize - o.bufferEnd) : (o.finishEscape r).Sound S := by
  unfold finishEscape
  dsimp only
  split_ifs
  · exact noRoom_sound (append_sound h (.inl rfl) hr)
  · exact append_sound h (.inl rfl) hr

end Keep

lemma escapeHttpLoop_length (left skip : ℕ) (msg : Bytes) :
    (escapeHttpLoop left skip msg).1.length ≤ left := by
  induction msg generalizing left skip with
  | nil => simp [escapeHttpLoop]
  | cons c msg ih =>
    unfold escapeHttpLoop
    dsimp only
    generalize (if c = percent then 2 else skip - 1) = k
    have h3 := ih (left - 3) k
    have h1 := ih (left - 1) k
    split_ifs <;> simp only [List.length_nil, List.length_cons] <;> omega

lemma htmlEntity_length (c : UInt8) : (htmlEntity c).length ≤ 6 := by
  unfold htmlEntity
  split_ifs <;> first | decide +kernel | simp

lemma escapeHtmlLoop_length (left : ℕ) (msg : Bytes) :
    (escapeHtmlLoop left msg).1.length ≤ left := by
  induction msg generalizing left with
  | nil => simp [escapeHtmlLoop]
  | cons c msg ih =>
    unfold escapeHtmlLoop
    have hc := htmlEntity_length c
    have hr := ih (left - (htmlEntity c).length)
    split_ifs with h1
    · simp
    · simp only [List.length_append]
      omega

lemma escapeHttpAt_length (mem : Bytes) (e fuel inp skip : ℕ) (out : Bytes)
    (h : out.length ≤ bufferSize - e) :
    (escapeHttpAt mem e fuel inp skip out).1.length ≤ bufferSize - e := by
  induction fuel generalizing inp skip out with
  | zero => exact h
  | succ fuel ih =>
    unfold escapeHttpAt
    dsimp only
    generalize (store mem e out).getD inp 0 = c
    generalize (if c = percent then 2 else skip - 1) = k
    split_ifs with h1 h2 h3
    · exact h
    · exact h
    · exact ih _ _ _ (by simp only [List.length_append, List.length_cons, List.length_nil]; omega)
    · exact ih _ _ _ (by simp only [List.length_append, List.length_cons, List.length_nil]; omega)

lemma escapeHtmlAt_length (mem : Bytes) (e fuel inp : ℕ) (out : Bytes)
    (h : out.length ≤ bufferSize - e) :
    (escapeHtmlAt mem e fuel inp out).1.length ≤ bufferSize - e := by
  induction fuel generalizing inp out with
  | zero => exact h
  | succ fuel ih =>
    unfold escapeHtmlAt
    dsimp only
    split_ifs with h1 h2
    · exact h
    · exact h
    · refine ih _ _ ?_
      have hc := htmlEntity_length ((store mem e out).getD inp 0)
      simp only [List.length_append]
      omega

section Writers
variable {S : Prop} {o : Out}

lemma writeMsg_sound (h : o.Sound S) (m : Msg) : (o.writeMsg m).Sound S := by
  cases m with
  | raw bs => exact reqWrite_sound h bs
  | http bs => exact finishEscape_sound h (escapeHttpLoop_length _ _ _)
  | html bs => exact finishEscape_sound h (escapeHtmlLoop_length _ _)
  | rawAt p => exact reqWrite_sound h _
  | httpAt p => exact finishEscape_sound h (escapeHttpAt_length _ _ _ _ _ _ (Nat.zero_le _))
  | htmlAt p => exact finishEscape_sound h (escapeHtmlAt_length _ _ _ _ _ (Nat.zero_le _))
  | ka alive =>
    simp only [writeMsg]
    split_ifs
    · exact h
    · exact log_sound h ⟨fun _ => rfl, rfl⟩
  | len n =>
    simp only [writeMsg]
    split_ifs
    · exact h
    · exact log_sound h ⟨fun _ => rfl, rfl⟩

/-- The response writers keep the buffer in order. -/
lemma writes_sound (h : o.Sound S) (ms : List Msg) : (o.writes ms).Sound S := by
  induction ms generalizing o with
  | nil => exact h
  | cons m ms ih => exact ih (writeMsg_sound h m)

lemma settle_bufOk (h : o.BufOk) : o.settle.BufOk := by
  unfold settle
  split_ifs
  · exact ⟨le_rfl, Nat.zero_le _, h.size⟩
  · exact h

lemma settle_channel (o : Out) : o.settle.channel = o.channel := by
  unfold settle
  split_ifs with he
  · rw [channel, channel, pending_eq_nil he.ge, pending_eq_nil le_rfl]
  · rfl

/-- The part of `req_flush` after `write` accepted `k` bytes, before `settle`. -/
def accept (o : Out) (k : ℕ) : Out :=
  { o with
    sock := o.sock.tail
    bufferStart := o.bufferStart + k
    trace := o.trace ++ [.sent (slice o.buffer o.bufferStart (o.bufferStart + k))] }

lemma steady_tail (h : S → o.Steady) : S → ∀ r ∈ o.sock.tail, r ≠ .intr ∧ r ≠ .err :=
  fun hS r hr => h hS r (List.mem_of_mem_tail hr)

lemma accept_bufOk (h : o.BufOk) {k : ℕ} (hk : k ≤ o.bufferEnd - o.bufferStart) :
    (o.accept k).BufOk := by
  have h1 := h.start_le
  refine ⟨?_, h.end_le, h.size⟩
  show o.bufferStart + k ≤ o.bufferEnd
  omega

lemma accept_stream (h : o.BufOk) {k : ℕ} (hk : k ≤ o.bufferEnd - o.bufferStart) :
    (o.accept k).channel.stream = o.channel.stream := by
  have h1 := h.start_le
  have hs : slice o.buffer o.bufferStart (o.bufferStart + k) ++
      slice o.buffer (o.bufferStart + k) o.bufferEnd = o.pending :=
    slice_append_slice (Nat.le_add_right _ _) (by omega)
  simp only [channel, Channel.stream, accept, sentBytes_snoc, Event.sentBytes, pending,
    List.append_assoc] at hs ⊢
  rw [hs]

/-- All `req_flush` can do. -/
lemma reqFlush_cases (o : Out) (h : o.BufOk) :
    (o.reqFlush = (o, .error) ∧ .done < o.status) ∨
    (¬ .done < o.status ∧ o.pending = [] ∧ o.reqFlush = (o.settle, .left o.settle.bufferEnd)) ∨
    (¬ .done < o.status ∧ o.pending ≠ [] ∧ o.nextWrite = .again ∧
      o.reqFlush = ({ o with sock := o.sock.tail }, .blocked)) ∨
    (¬ .done < o.status ∧ o.pending ≠ [] ∧ (o.nextWrite = .intr ∨ o.nextWrite = .err) ∧
      o.reqFlush = ({ o with
        sock := o.sock.tail, bufferStart := 0, bufferEnd := 0, status := .dead }, .error)) ∨
    (¬ .done < o.status ∧ o.pending ≠ [] ∧ ∃ n, o.nextWrite = .wrote n ∧
      o.reqFlush = ((o.accept (min n (o.bufferEnd - o.bufferStart))).settle,
        .left (o.accept (min n (o.bufferEnd - o.bufferStart))).settle.bufferEnd)) := by
  have hb := bytesToWrite_eq h
  have hp : o.pending = [] ↔ o.bytesToWrite = 0 := by
    rw [hb, ← pending_length h, List.length_eq_zero_iff]
  unfold reqFlush
  split_ifs with h1 h2
  · exact .inl ⟨rfl, h1⟩
  · have hne : o.pending ≠ [] := fun he => h2 (hp.mp he)
    right; right
    cases hw : o.nextWrite with
    | again => exact .inl ⟨h1, hne, rfl, rfl⟩
    | intr => exact .inr (.inl ⟨h1, hne, .inl rfl, rfl⟩)
    | err => exact .inr (.inl ⟨h1, hne, .inr rfl, rfl⟩)
    | wrote n =>
      refine .inr (.inr ⟨h1, hne, n, rfl, ?_⟩)
      simp only [hb, accept]
  · exact .inr (.inl ⟨h1, hp.mpr (not_not.mp h2), rfl⟩)

lemma nextWrite_mem {o : Out} (h : o.nextWrite ≠ .again) : o.nextWrite ∈ o.sock := by
  unfold nextWrite at h ⊢
  cases hs : o.sock with
  | nil => simp [hs] at h
  | cons r rs => simp

lemma settle_trace (o : Out) : o.settle.trace = o.trace := by unfold settle; split_ifs <;> rfl

lemma settle_status (o : Out) : o.settle.status = o.status := by unfold settle; split_ifs <;> rfl

lemma settle_sock (o : Out) : o.settle.sock = o.sock := by unfold settle; split_ifs <;> rfl

lemma reqFlush_bufOk (h : o.BufOk) : o.reqFlush.1.BufOk := by
  rcases reqFlush_cases o h with ⟨he, -⟩ | ⟨-, -, he⟩ | ⟨-, -, -, he⟩ | ⟨-, -, -, he⟩ |
    ⟨-, -, n, -, he⟩ <;> rw [he]
  · exact h
  · exact settle_bufOk h
  · exact ⟨h.start_le, h.end_le, h.size⟩
  · exact ⟨le_rfl, Nat.zero_le _, h.size⟩
  · exact settle_bufOk (accept_bufOk h (min_le_right _ _))

lemma reqFlush_steady (h : o.BufOk) (hs : o.Steady) : o.reqFlush.1.Steady := by
  have ht := steady_tail (S := True) (fun _ => hs) trivial
  rcases reqFlush_cases o h with ⟨he, -⟩ | ⟨-, -, he⟩ | ⟨-, -, -, he⟩ | ⟨-, -, -, he⟩ |
    ⟨-, -, n, -, he⟩ <;> rw [he]
  · exact hs
  · simp only [Steady, settle_sock]
    exact hs
  · exact ht
  · exact ht
  · simp only [Steady, settle_sock]
    exact ht

/-- `req_flush` moves bytes from the queue of the channel to its reader: on a
steady socket the stream stays what it was. -/
lemma reqFlush_stream (h : o.BufOk) (hs : o.Steady) :
    o.reqFlush.1.channel.stream = o.channel.stream ∧
      produced o.reqFlush.1.trace = produced o.trace := by
  rcases reqFlush_cases o h with ⟨he, -⟩ | ⟨-, -, he⟩ | ⟨-, -, -, he⟩ | ⟨-, -, hw, he⟩ |
    ⟨-, -, n, -, he⟩ <;> rw [he]
  · exact ⟨rfl, rfl⟩
  · exact ⟨by rw [settle_channel], by rw [settle_trace]⟩
  · exact ⟨rfl, rfl⟩
  · have hm := nextWrite_mem (o := o) (by rcases hw with hw | hw <;> simp [hw])
    have := hs _ hm
    rcases hw with hw | hw <;> simp [hw] at this
  · refine ⟨by rw [settle_channel, accept_stream h (min_le_right _ _)], ?_⟩
    rw [settle_trace]
    simp [accept, produce]

lemma settle_buffer (o : Out) : o.settle.buffer = o.buffer := by unfold settle; split_ifs <;> rfl

lemma reqFlush_buffer (h : o.BufOk) : o.reqFlush.1.buffer = o.buffer := by
  rcases reqFlush_cases o h with ⟨he, -⟩ | ⟨-, -, he⟩ | ⟨-, -, -, he⟩ | ⟨-, -, -, he⟩ |
    ⟨-, -, n, -, he⟩ <;> rw [he]
  · exact settle_buffer o
  · exact settle_buffer _

/-- `req_flush` ends a request only when `write` fails. -/
lemma reqFlush_status (h : o.BufOk) (hs : o.Steady) : o.reqFlush.1.status = o.status := by
  rcases reqFlush_cases o h with ⟨he, -⟩ | ⟨-, -, he⟩ | ⟨-, -, -, he⟩ | ⟨-, -, hw, he⟩ |
    ⟨-, -, n, -, he⟩ <;> rw [he]
  · exact settle_status o
  · have := hs _ (nextWrite_mem (o := o) (by rcases hw with hw | hw <;> simp [hw]))
    rcases hw with hw | hw <;> simp [hw] at this
  · exact settle_status _

/-- When `req_flush` lets its caller go on, either nothing is pending any more or the
write was a short one. -/
lemma reqFlush_left (h : o.BufOk) {n : ℕ} (hl : o.reqFlush.2 = .left n) :
    n = o.reqFlush.1.bufferEnd ∧ o.reqFlush.1.status = o.status ∧
      (o.reqFlush.1.pending = [] ∨
        (o.pending ≠ [] ∧ ∃ k, o.nextWrite = .wrote k ∧ k < o.pending.length)) := by
  have hempty : ∀ o' : Out, o'.pending = [] → o'.settle.pending = [] := fun o' h' => by
    have := congrArg Channel.queue (settle_channel o')
    exact this.trans h'
  rcases reqFlush_cases o h with ⟨he, -⟩ | ⟨-, hp, he⟩ | ⟨-, -, -, he⟩ | ⟨-, -, -, he⟩ |
    ⟨-, hp, k, hk, he⟩ <;> rw [he] at hl ⊢ <;> cases hl
  · exact ⟨rfl, settle_status o, .inl (hempty o hp)⟩
  · refine ⟨rfl, settle_status _, ?_⟩
    rw [pending_length h]
    by_cases hshort : k < o.bufferEnd - o.bufferStart
    · exact .inr ⟨hp, k, hk, hshort⟩
    · refine .inl (hempty _ (pending_eq_nil ?_))
      show o.bufferEnd ≤ o.bufferStart + min k (o.bufferEnd - o.bufferStart)
      omega

lemma reqFlush_sound (h : o.Sound S) : o.reqFlush.1.Sound S := by
  refine ⟨reqFlush_bufOk h.toBufOk, fun hS => reqFlush_steady h.toBufOk (h.steady hS), fun hS => ?_⟩
  obtain ⟨h1, h2⟩ := reqFlush_stream h.toBufOk (h.steady hS)
  rw [h1, h2]
  exact h.flow hS

end Writers

/-- The events of writing and flushing a response whose Connection lines satisfy
`ka` and whose Content-Length lines satisfy `len`. -/
def Reply (ka : Bool → Prop) (len : ℕ → Prop) : Event → Prop
  | .queued _ | .noRoom | .sent _ => True
  | .kaPhrase b => ka b
  | .contentLength n => len n
  | _ => False

/-- One or more response writers and flushes lead from `o` to `o'`. -/
structure Replies (ka : Bool → Prop) (len : ℕ → Prop) (o o' : Out) : Prop where
  sound : ∀ S, o.Sound S → o'.Sound S
  adds : Adds (Reply ka len) o.trace o'.trace
  status : o'.status = o.status ∨ o'.status = .dead

section Replies
variable {ka : Bool → Prop} {len : ℕ → Prop} {o o' o'' : Out}

lemma Replies.refl (o : Out) : Replies ka len o o := ⟨fun _ h => h, .refl _, .inl rfl⟩

lemma Replies.trans (h : Replies ka len o o') (h' : Replies ka len o' o'') :
    Replies ka len o o'' := by
  refine ⟨fun S hS => h'.sound S (h.sound S hS), h.adds.trans h'.adds, ?_⟩
  rcases h'.status with he | he
  · rw [he]
    exact h.status
  · exact .inr he

lemma reqWrite_replies (o : Out) (msg : Bytes) : Replies ka len o (o.reqWrite msg) := by
  refine ⟨fun S h => reqWrite_sound h msg, ?_, ?_⟩ <;> unfold reqWrite <;> split_ifs
  · exact .refl _
  · exact .snoc trivial
  · exact .snoc trivial
  · exact .inl rfl
  · exact .inr rfl
  · exact .inl rfl

lemma finishEscape_replies (o : Out) {r : Bytes × Bytes}
    (hr : r.1.length ≤ bufferSize - o.bufferEnd) : Replies ka len o (o.finishEscape r) := by
  refine ⟨fun S h => finishEscape_sound h hr, ?_, ?_⟩ <;> unfold finishEscape <;> dsimp only <;>
    split_ifs
  · exact (Adds.snoc trivial).trans (.snoc trivial)
  · exact .snoc trivial
  · exact .inr rfl
  · exact .inl rfl

lemma writeMsg_replies (o : Out) (m : Msg) (hka : ∀ b, m = .ka b → ka b)
    (hlen : ∀ n, m = .len n → len n) : Replies ka len o (o.writeMsg m) := by
  cases m with
  | raw bs => exact reqWrite_replies o bs
  | http bs => exact finishEscape_replies o (escapeHttpLoop_length _ _ _)
  | html bs => exact finishEscape_replies o (escapeHtmlLoop_length _ _)
  | rawAt p => exact reqWrite_replies o _
  | httpAt p => exact finishEscape_replies o (escapeHttpAt_length _ _ _ _ _ _ (Nat.zero_le _))
  | htmlAt p => exact finishEscape_replies o (escapeHtmlAt_length _ _ _ _ _ (Nat.zero_le _))
  | ka b =>
    refine ⟨fun S h => writeMsg_sound h _, ?_, ?_⟩ <;> simp only [writeMsg] <;> split_ifs
    · exact .refl _
    · exact .snoc (hka b rfl)
    · exact .inl rfl
    · exact .inl rfl
  | len n =>
    refine ⟨fun S h => writeMsg_sound h _, ?_, ?_⟩ <;> simp only [writeMsg] <;> split_ifs
    · exact .refl _
    · exact .snoc (hlen n rfl)
    · exact .inl rfl
    · exact .inl rfl

lemma writes_replies (o : Out) (ms : List Msg) (hka : ∀ b, .ka b ∈ ms → ka b)
    (hlen : ∀ n, .len n ∈ ms → len n) : Replies ka len o (o.writes ms) := by
  induction ms generalizing o with
  | nil => exact .refl o
  | cons m ms ih =>
    have hm : Replies ka len o (o.writeMsg m) := writeMsg_replies o m
      (fun b hb => hka b (by simp [hb])) (fun n hn => hlen n (by simp [hn]))
    exact hm.trans (ih _ (fun b hb => hka b (List.mem_cons_of_mem _ hb))
      (fun n hn => hlen n (List.mem_cons_of_mem _ hn)))

lemma reqFlush_replies (o : Out) : Replies ka len o o.reqFlush.1 := by
  refine ⟨fun S h => reqFlush_sound h, ?_, ?_⟩ <;> unfold reqFlush <;> split_ifs
  · exact .refl _
  · cases o.nextWrite <;> simp only [settle_trace] <;> first | exact .refl _ | exact .snoc trivial
  · simp only [settle_trace]
    exact .refl _
  · exact .inl rfl
  · cases o.nextWrite <;> simp only [settle_status] <;> simp
  · simp [settle_status]

end Replies

end Out

/-- A call that writes text and announces nothing. -/
def Msg.isText : Msg → Bool
  | .ka _ | .len _ => false
  | _ => true

@[simp] lemma isText_raw (bs : Bytes) : (Msg.raw bs).isText = true := rfl
@[simp] lemma isText_http (bs : Bytes) : (Msg.http bs).isText = true := rfl
@[simp] lemma isText_html (bs : Bytes) : (Msg.html bs).isText = true := rfl

/-- The request was answered with an error or a redirect: keep-alive is stopped and
nothing else but the output and the status code changed. -/
def Refused (c c' : Request) : Prop :=
  ∃ o code, c' = { c with toOut := o, keepalive := .stopped, responseStatus := code } ∧
    300 ≤ code ∧ Out.Replies (· = false) (fun _ => False) c.toOut o

namespace Request

lemma printHttpHeaders_no_len (env : Env) (c : Request) (n : ℕ) :
    .len n ∉ c.printHttpHeaders env := by
  unfold printHttpHeaders printKaPhrase
  intro h
  split_ifs at h <;> split at h <;> simp at h

lemma printHttpHeaders_ka (env : Env) (c : Request) (b : Bool) (h : .ka b ∈ c.printHttpHeaders env) :
    b = c.keepsAlive := by
  unfold printHttpHeaders printKaPhrase at h
  split_ifs at h <;> split at h <;> simp_all

/-- The header of a response with status `code` after keep-alive was stopped. -/
lemma errorHeader_replies (env : Env) (c : Request) (hc : c.keepalive = .stopped) (line : String)
    (header : List Msg) (hh : ∀ m ∈ header, m.isText) :
    Out.Replies (· = false) (fun _ => False) c.toOut
      (c.toOut.writes (c.statusLine line ++ c.printHttpHeaders env ++ header)) := by
  refine Out.writes_replies _ _ (fun b hb => ?_) (fun n hn => ?_)
  · simp only [statusLine, List.mem_append, List.mem_cons, List.not_mem_nil, or_false,
      reduceCtorEq, false_or] at hb
    rcases hb with hb | hb
    · simp [printHttpHeaders_ka env c b hb, keepsAlive, hc]
    · simpa [Msg.isText] using hh _ hb
  · simp only [statusLine, List.mem_append, List.mem_cons, List.not_mem_nil, or_false,
      reduceCtorEq, false_or] at hn
    rcases hn with hn | hn
    · exact printHttpHeaders_no_len env c n hn
    · simpa [Msg.isText] using hh _ hn

lemma text_replies {ka : Bool → Prop} {len : ℕ → Prop} (o : Out) {ms : List Msg}
    (hm : ∀ m ∈ ms, m.isText) : Out.Replies ka len o (o.writes ms) := by
  refine Out.writes_replies _ _ (fun b hb => ?_) (fun n hn => ?_)
  · simpa [Msg.isText] using hm _ hb
  · simpa [Msg.isText] using hm _ hn

lemma sendR_refused (env : Env) (c : Request) {code : ℕ} (hcode : 300 ≤ code) (line : String)
    {header body : List Msg} (hh : ∀ m ∈ header, m.isText) (hb : ∀ m ∈ body, m.isText) :
    Refused c (c.sendR env code line header body) := by
  have hheader := errorHeader_replies env { c.squashKa with responseStatus := code } rfl line header hh
  unfold sendR
  dsimp only
  split_ifs
  · exact ⟨_, code, rfl, hcode, (hheader.trans (text_replies _ hb)).trans (Out.reqFlush_replies _)⟩
  · exact ⟨_, code, rfl, hcode, hheader.trans (Out.reqFlush_replies _)⟩
  · exact ⟨_, code, rfl, hcode, (text_replies _ hb).trans (Out.reqFlush_replies _)⟩
  · exact ⟨_, code, rfl, hcode, Out.reqFlush_replies _⟩

section Refusals
variable (env : Env) (c : Request)

lemma sendRMovedPerm_refused (url : Bytes) : Refused c (c.sendRMovedPerm env url) :=
  sendR_refused env c (by omega) _ (by simp [htmlType]) (by simp)

lemma movedTemp_refused {http html more : Msg} (h1 : http.isText) (h2 : html.isText)
    (h3 : more.isText) : Refused c (c.movedTemp env http html more) :=
  sendR_refused env c (by omega) _ (by simp [htmlType, h1, h3])
    (by simp [h2])

lemma sendRMovedTemp_refused (url more : Bytes) : Refused c (c.sendRMovedTemp env url more) :=
  movedTemp_refused env c rfl rfl rfl

lemma printContentType_isText : ∀ m ∈ c.printContentType env, m.isText := by
  unfold printContentType
  dsimp only
  cases env.cfg.defaultCharset with
  | none => simp
  | some cs => split_ifs <;> simp

lemma sendRNotModified_refused : Refused c (c.sendRNotModified env) := by
  have h := errorHeader_replies env { c.squashKa with responseStatus := 304 } rfl
    " 304 Not Modified\r\n"
    (Request.printContentType env { c.squashKa with responseStatus := 304 } ++ [.raw crlf])
    (fun m hm => (List.mem_append.mp hm).elim (printContentType_isText _ _ m) (by simp_all))
  rw [← List.append_assoc] at h
  exact ⟨_, 304, rfl, by omega, h.trans (Out.reqFlush_replies _)⟩

lemma sendRBadRequest_refused : Refused c (c.sendRBadRequest env) :=
  sendR_refused env c (by omega) _ (by simp [htmlTypeEnd]) (by simp)

lemma sendRForbidden_refused : Refused c (c.sendRForbidden env) :=
  sendR_refused env c (by omega) _ (by simp [htmlTypeEnd]) (by simp)

lemma sendRNotFound_refused : Refused c (c.sendRNotFound env) :=
  sendR_refused env c (by omega) _ (by simp [htmlTypeEnd]) (by simp)

lemma sendRInvalidRange_refused : Refused c (c.sendRInvalidRange env) :=
  sendR_refused env c (by omega) _ (by simp) (by simp)

lemma sendRError_refused : Refused c (c.sendRError env) :=
  sendR_refused env c (by omega) _ (by simp [htmlTypeEnd]) (by simp)

lemma sendRNotImplemented_refused : Refused c (c.sendRNotImplemented env) := by
  have h := errorHeader_replies env { c.squashKa with responseStatus := 501 } rfl
    " 501 Not Implemented\r\n" htmlTypeEnd (by simp [htmlTypeEnd])
  unfold sendRNotImplemented
  dsimp only
  split_ifs
  · exact ⟨_, 501, rfl, by omega,
      (h.trans (text_replies _ (by simp))).trans (Out.reqFlush_replies _)⟩
  · exact ⟨_, 501, rfl, by omega,
      (text_replies _ (by simp)).trans (Out.reqFlush_replies _)⟩

lemma sendRBadGateway_refused : Refused c (c.sendRBadGateway env) :=
  sendR_refused env c (by omega) _ (by simp [htmlTypeEnd]) (by simp)

lemma sendRServiceUnavailable_refused : Refused c (c.sendRServiceUnavailable env) :=
  sendR_refused env c (by omega) _ (by simp [htmlTypeEnd]) (by simp)

end Refusals

end Request
end Boa
