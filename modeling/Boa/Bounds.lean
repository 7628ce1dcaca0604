import Boa.Delivery

/-! The indices of the output buffer, wherever a request can be. -/
namespace Boa
open Memory History

/-- The unsent bytes lie between the two indices, inside the buffer. -/
structure Out.Bounded (o : Out) : Prop where
  start_le : o.bufferStart ≤ o.bufferEnd
  end_le : o.bufferEnd ≤ bufferSize

/-- `req_write` returns -1. -/
def Out.WriteFails (o : Out) (msg : Bytes) : Prop :=
  msg ≠ [] ∧ ¬ .done < o.status ∧ bufferSize < o.bufferEnd + msg.length

lemma Out.BufOk.bounded {o : Out} (h : o.BufOk) : o.Bounded := ⟨h.start_le, h.end_le⟩

lemma Status.lt_timedOut_iff {s : Status} : s < .timedOut ↔ s ≤ .done := by
  rw [Status.lt_def, Status.le_def]
  exact Nat.lt_succ_iff

/-- A failing `req_write` does nothing but kill the request. -/
lemma reqWrite_fails {o : Out} {msg : Bytes} (h : o.WriteFails msg) :
    (o.reqWrite msg).buffer = o.buffer ∧ (o.reqWrite msg).bufferStart = o.bufferStart ∧
      (o.reqWrite msg).bufferEnd = o.bufferEnd ∧ (o.reqWrite msg).status = .dead := by
  obtain ⟨hne, hlive, hroom⟩ := h
  unfold Out.reqWrite
  rw [if_neg (not_or.mpr ⟨hne, hlive⟩), if_pos hroom]
  exact ⟨rfl, rfl, rfl, rfl⟩

section Rounds

variable {env : Env} {c : Request}

lemma Whole.armed (h : Whole False c) (hl : c.status < .timedOut) (env : Env) : Live False (c.arm env) :=
  h.live hl env False.elim

lemma Whole.bounded (h : Whole False c) (hs : c.status ≤ .done) : c.toOut.Bounded := by
  have hlive := h.armed (Status.lt_timedOut_iff.mpr hs) tinyEnv
  exact ⟨hlive.start_le, hlive.end_le⟩

lemma Ended.bounded {r : Request × Ret} (h : Ended False r) (hs : r.1.status ≤ .done) : r.1.toOut.Bounded := by
  by_cases hr : r.2 = .done
  · exact ((h.2 hr).ok (Status.lt_timedOut_iff.mpr hs)).bounded
  · exact (h.1 hr).toBufOk.bounded

/-- The flush at the top of a round keeps the bounds, whatever the socket does. -/
lemma flushFirst_bounded (h : Whole False c) (hs : (c.arm env).flushFirst.1.status ≤ .done) :
    (c.arm env).flushFirst.1.toOut.Bounded := by
  by_cases hl : c.status < .timedOut
  · exact (Request.flushFirst_ended (h.armed hl env) hl).1.bounded hs
  · have hskip : (c.arm env).flushFirst = (c.arm env, .more) := if_neg fun hn => hl hn.2
    rw [hskip] at hs
    exact absurd (Status.lt_timedOut_iff.mpr hs) hl

/-- Closing or keeping the connection leaves the indices in order. -/
lemma endRequest_bounded (h : c.status ≤ .done → c.toOut.Bounded) (hs : (c.endRequest env).1.status ≤ .done) :
    (c.endRequest env).1.toOut.Bounded := by
  obtain ⟨es, code, -, ⟨-, he⟩ | ⟨-, he⟩⟩ := Request.endRequest_cases env c
  · rw [he]
    exact ⟨le_rfl, Nat.zero_le _⟩
  · rw [he] at hs ⊢
    exact ⟨(h hs).start_le, (h hs).end_le⟩

lemma freeRequest_bounded (h : Over False c) (hs : (c.freeRequest env).1.status ≤ .done) :
    (c.freeRequest env).1.toOut.Bounded := by
  have hdone : c.status < .timedOut → Out.Sound False { c.toOut with status := .done } := fun hl =>
    ⟨⟨(h.ok hl).start_le, (h.ok hl).end_le, (h.ok hl).size⟩, False.elim, False.elim⟩
  rcases Request.freeRequest_cases env c with ⟨-, hl, n, -, he⟩ | ⟨-, hl, -, he⟩ | ⟨-, hl, -, he⟩ | ⟨-, he⟩
  · rw [he]
    exact (Out.reqFlush_sound (hdone hl)).toBufOk.bounded
  · rw [he] at hs ⊢
    exact endRequest_bounded (fun hd => absurd hd (show ¬ Status.dead ≤ .done by decide)) hs
  · rw [he] at hs ⊢
    exact endRequest_bounded (fun _ => (Out.reqFlush_sound (hdone hl)).toBufOk.bounded) hs
  · rw [he] at hs ⊢
    exact endRequest_bounded (fun hd => (h.ok (Status.lt_timedOut_iff.mpr hd)).bounded) hs

lemma processRequest_bounded (h : Whole False c) (hs : (c.processRequest env).1.status ≤ .done) :
    (c.processRequest env).1.toOut.Bounded := by
  have hend : Ended False (c.serveOnce env) := Request.serveOnce_ended h False.elim False.elim
  unfold Request.processRequest at hs ⊢
  dsimp only at hs ⊢
  generalize c.serveOnce env = r at hend hs ⊢
  obtain ⟨d, ret⟩ := r
  have hgo : (d.heedSigterm env).toOut = d.toOut := by
    unfold Request.heedSigterm
    split_ifs <;> rfl
  cases ret with
  | blocked =>
    have hs : (d.heedSigterm env).toOut.status ≤ .done := hs
    show (d.heedSigterm env).toOut.Bounded
    rw [hgo] at hs ⊢
    exact hend.bounded hs
  | more =>
    have hs : (d.heedSigterm env).toOut.status ≤ .done := hs
    show (d.heedSigterm env).toOut.Bounded
    rw [hgo] at hs ⊢
    exact hend.bounded hs
  | done => exact freeRequest_bounded ((hend.2 rfl).heedSigterm env) hs

end Rounds

/-- In every state of a connection, and inside a round behind the flush and behind the handler, the
indices of the output buffer are in order and within its bounds unless the request died or timed out; and a
`req_write` that fails leaves the buffer as it is and kills the request. -/
theorem buffer_bounded {c : Request} {p : Place} (h : Reachable c p) :
    (c.status ≤ .done → c.toOut.Bounded) ∧
    (p = .ready → ∀ env : Env,
      ((c.arm env).flushFirst.1.status ≤ .done → (c.arm env).flushFirst.1.toOut.Bounded) ∧
      ((c.serveOnce env).1.status ≤ .done → (c.serveOnce env).1.toOut.Bounded)) ∧
    ∀ (o : Out) (msg : Bytes), o.WriteFails msg → (o.reqWrite msg).buffer = o.buffer ∧
      (o.reqWrite msg).bufferStart = o.bufferStart ∧ (o.reqWrite msg).bufferEnd = o.bufferEnd ∧
      (o.reqWrite msg).status = .dead := by
  have hwhole : ∀ {c : Request} {p : Place}, Reachable c p → p ≠ .free → Whole False c := fun h =>
    (reach_whole False.elim h).1
  refine ⟨fun hs => ?_, fun hp env => ⟨?_, fun hs => ?_⟩, fun o msg => reqWrite_fails⟩
  · cases h with
    | accept env peer old hP => exact (hwhole (.accept env peer old hP) nofun).bounded hs
    | pass env h hP => exact processRequest_bounded (hwhole h nofun) hs
    | wake w h hP => exact (hwhole (.wake w h hP) nofun).bounded hs
  · exact flushFirst_bounded (hwhole h (by rw [hp]; exact nofun))
  · exact Ended.bounded (Request.serveOnce_ended (hwhole h (by rw [hp]; exact nofun)) False.elim False.elim) hs

theorem buffer_bounded_read : tinyRead.toOut.Bounded ∧
    (tinyRead.serveOnce { tinyEnv with sock := [.wrote 10] }).1.toOut.Bounded := by
  obtain ⟨h1, h2, -⟩ := buffer_bounded tinyRead_reachable
  exact ⟨h1 (by decide +kernel), (h2 rfl { tinyEnv with sock := [.wrote 10] }).2 (by decide +kernel)⟩

end Boa
