import Mathlib

/-! An ordered byte channel with a queue: what was sent, what waits, and the
stream both make up. Nothing here depends on the program. -/

/-- A channel: the elements its reader has received and those still queued. -/
@[ext] structure Channel (α : Type*) where
  sent : List α := []
  queue : List α := []

namespace Channel

variable {α : Type*}

/-- Everything accepted for sending, in order. -/
def stream (ch : Channel α) : List α := ch.sent ++ ch.queue

/-- Accept `xs` behind the queue. -/
def put (ch : Channel α) (xs : List α) : Channel α := { ch with queue := ch.queue ++ xs }

/-- Deliver the first `n` elements of the queue. -/
def send (ch : Channel α) (n : ℕ) : Channel α :=
  { sent := ch.sent ++ ch.queue.take n, queue := ch.queue.drop n }

/-- Deliver `xs` past the queue. -/
def bypass (ch : Channel α) (xs : List α) : Channel α := { ch with sent := ch.sent ++ xs }

/-- Take back what is queued. -/
def retract (ch : Channel α) : Channel α := { ch with queue := [] }

@[simp] lemma stream_put (ch : Channel α) (xs : List α) : (ch.put xs).stream = ch.stream ++ xs := by
  simp [stream, put]

@[simp] lemma stream_send (ch : Channel α) (n : ℕ) : (ch.send n).stream = ch.stream := by
  simp [stream, send]

/-- Past an empty queue the stream stays in order. -/
lemma stream_bypass {ch : Channel α} (h : ch.queue = []) (xs : List α) :
    (ch.bypass xs).stream = ch.stream ++ xs := by
  simp [stream, bypass, h]

lemma stream_retract (ch : Channel α) :
    ch.retract.stream = ch.stream.take (ch.stream.length - ch.queue.length) := by
  simp [stream, retract]

/-- What the reader has is always a prefix of the stream. -/
lemma sent_prefix_stream (ch : Channel α) : ch.sent <+: ch.stream := List.prefix_append _ _

end Channel
