import Boa.Runs

/-! Delivery of the response: nothing is sent out of order, and `free_request` gives
up no byte that waits. Both hold but for one behaviour of `req_flush` each. -/
namespace Boa
open Memory History

/-! ### A small server for concrete runs -/

/-- A configuration text given as a literal. -/
def confText (s : String) (h : (text s).length < 1024 ∧ lf ∉ text s ∧ 0 ∉ text s) : ConfText :=
  ⟨text s, h.1, h.2.1, h.2.2⟩

lemma text_a : (text "/a").length < 1024 ∧ lf ∉ text "/a" ∧ 0 ∉ text "/a" := by decide +kernel

lemma text_c : (text "/c").length < 1024 ∧ lf ∉ text "/c" ∧ 0 ∉ text "/c" := by decide +kernel

lemma text_d : (text "/d").length < 1024 ∧ lf ∉ text "/d" ∧ 0 ∉ text "/d" := by decide +kernel

lemma text_r : (text "/r").length < 1024 ∧ lf ∉ text "/r" ∧ 0 ∉ text "/r" := by decide +kernel

lemma text_x : (text "/x").length < 1024 ∧ lf ∉ text "/x" ∧ 0 ∉ text "/x" := by decide +kernel

lemma confText_a_ne : (confText "/a" text_a).val ≠ [] := by decide +kernel

lemma confText_x_ne : (confText "/x" text_x).val ≠ [] := by decide +kernel

def tinyConfig : Config where
  serverName := confText "s" (by decide +kernel)
  defaultVhost := confText "s" (by decide +kernel)
  defaultType := confText "text/plain" (by decide +kernel)
  documentRoot := some (confText "/d" text_d)
  kaMax := 10

def tinyFile : File where
  fd := 5
  kind := .reg
  data := [104, 101, 108, 108, 111]
  mtime := 7

/-- One file, `/d/f`. -/
def tinyFiles : FileSys where
  openFile := fun p => if p = text "/d/f" then .ok tinyFile else .error .enoent
  stat := fun _ => .error .enoent
  access := fun _ => false

def tinyEnv : Env where
  cfg := tinyConfig
  fs := tinyFiles
  gmtime := fun _ => ⟨1, 2, 3, 4, 5, 6, 2005⟩

/-- The first minute of 1970. -/
def firstMinute : Env :=
  { tinyEnv with gmtime := fun s => ⟨Fin.ofNat 61 (s.toNat % 60), 0, 0, 1, 0, 4, 1970⟩ }

/-- The start of the year 2021, with `gmtime` of that second. -/
def newYear : Env := { tinyEnv with gmtime := fun _ => ⟨0, 0, 0, 1, 0, 5, 2021⟩ }

def tinyPeer : Peer := ⟨[], [], 0, false⟩

/-- The client sends `request`. -/
def tinyClient (request : String) : Env := { tinyEnv with client := [.data (text request)] }

/-! ### Order -/

/-- Runs in which the client socket gives no error. -/
def Unfailing : Label → Request → Prop
  | .accept env, _ => env.Steady
  | .pass env, _ => env.Steady
  | .wake _, _ => True

/-- In an orderly run the bytes of every response leave in the order they were
produced, and those still in the buffer or the window are the ones that come next. -/
theorem responses_in_order {c : Request} {p : Place} (h : Reach Orderly c p) :
    c.Ordered ∧ (p ≠ .free → c.status < .timedOut →
      produced c.trace = sentBytes c.trace ++ c.pending ++ c.window) := by
  obtain ⟨h1, h2⟩ := reach_whole (S := True) (fun _ _ _ hl => hl) h
  refine ⟨h2 trivial, fun hp hl => ?_⟩
  have hsteady : True → tinyEnv.Steady := fun _ r hr => by cases hr
  exact ((h1 hp).live hl tinyEnv hsteady).flow trivial

/-- Two ranges of a file: the first flush sends 100 bytes of the header, and
`process_get` writes the second range although the rest of the header still waits. -/
theorem shortFlush_out_of_order : ∃ c p, Reach Unfailing c p ∧ ¬ c.Ordered := by
  let envs : List Env := [tinyClient "GET /f HTTP/1.1\r\nRange: bytes=1-2,3-\r\n\r\n", tinyEnv,
    { tinyEnv with sock := [.wrote 100, .wrote 10] }]
  have hstart : Reach Unfailing (Request.getRequest tinyEnv tinyPeer {}) .ready :=
    .accept tinyEnv tinyPeer {} (show tinyEnv.Steady by decide)
  have hsteady : ∀ env ∈ envs, env.Steady := by decide
  have hrun : ((Request.getRequest tinyEnv tinyPeer {}).rounds envs).any (fun c => ¬ c.Ordered) := by
    decide +kernel
  obtain ⟨c, hc, hno⟩ := (Option.any_eq_true _ _).mp hrun
  exact ⟨c, .ready, reach_rounds hstart (fun _ => trivial) (fun env he _ => hsteady env he) hc,
    of_decide_eq_true hno⟩

/-- A short answer in two pieces, the first within its header, and two ranges of a file, the bytes of
the second one by one. -/
def pieceEnvs : List Env :=
  [tinyClient "GET /f HTTP/1.1\r\n\r\n", { tinyEnv with sock := [.wrote 100] },
    { tinyEnv with sock := [.wrote 10000] }, tinyClient "GET /f HTTP/1.1\r\nRange: bytes=1-2,3-\r\n\r\n",
    tinyEnv, { tinyEnv with sock := [.wrote 10000, .wrote 1] }, { tinyEnv with sock := [.wrote 1] }]

/-- How many bytes each write took. -/
def sentLengths (t : List Event) : List ℕ := (t.map fun e => e.sentBytes.length).filter (0 < ·)

/-- Two responses, one sent in two pieces cut within the header, and one whose header and
body leave in three writes. -/
theorem responses_in_order_pieces : ∃ c, Reach Orderly c .ready ∧
    c.traces.map sentLengths = [[100, 154], [452, 1, 1]] ∧ c.Ordered ∧
    produced c.trace = sentBytes c.trace ++ c.pending ++ c.window := by
  have hstart : Reach Orderly (Request.getRequest tinyEnv tinyPeer {}) .ready :=
    .accept tinyEnv tinyPeer {} (show tinyEnv.Steady by decide)
  have hrun : ((Request.getRequest tinyEnv tinyPeer {}).rounds pieceEnvs).any (fun c =>
      c.traces.map sentLengths = [[100, 154], [452, 1, 1]] ∧ c.status < .timedOut) := by
    decide +kernel
  obtain ⟨c, hc, hsent⟩ := (Option.any_eq_true _ _).mp hrun
  obtain ⟨hsent, hlive⟩ := of_decide_eq_true hsent
  have hreach : Reach Orderly c .ready :=
    reach_passing hstart (fun _ => trivial) (by decide +kernel) hc
  obtain ⟨hord, hflow⟩ := responses_in_order hreach
  exact ⟨c, hreach, hsent, hord, hflow (by decide) hlive⟩

/-! ### Completeness -/

/-- The trace of the request that `free_request` was called for. -/
def lastTrace (r : Request × Place) : List Event :=
  if r.2 = .block then r.1.past.getLastD [] else r.1.trace

/-- What `free_request` owes the client: it decides as the `DONE` case of
`process_requests` does, a request it keeps loses nothing, and a request it ends has
sent everything unless `write` failed. -/
structure FlushSafe (env : Env) (c : Request) : Prop where
  decision : (c.freeRequest env).2 = .ready ↔ ({ c with status := .done } : Request).processDone.2 ≠ .done
  kept : (c.freeRequest env).2 = .ready →
    sentBytes (c.freeRequest env).1.trace ++ (c.freeRequest env).1.pending = sentBytes c.trace ++ c.pending
  ended : (c.freeRequest env).2 ≠ .ready → c.nextWrite = .intr ∨ c.nextWrite = .err ∨
    sentBytes (lastTrace (c.freeRequest env)) = sentBytes c.trace ++ c.pending

lemma lastTrace_endRequest (env : Env) (c : Request) :
    sentBytes (lastTrace (c.endRequest env)) = sentBytes c.trace ∧ (c.endRequest env).2 ≠ .ready := by
  obtain ⟨es, code, hes, ⟨-, he⟩ | ⟨-, he⟩⟩ := Request.endRequest_cases env c
  · rw [he]
    refine ⟨?_, by simp⟩
    simp only [lastTrace, if_true, Request.recycled, List.getLastD_concat]
    exact (Request.produced_notes hes c.trace).2
  · rw [he]
    refine ⟨?_, by simp⟩
    simp only [lastTrace, reduceCtorEq, if_false]
    exact (Request.produced_notes hes c.trace).2

lemma pending_ne_bufferEnd {o : Out} (h : o.pending ≠ []) : o.bufferEnd ≠ 0 := fun h0 =>
  h (Out.pending_eq_nil (by rw [h0]; exact Nat.zero_le _))

/-- Everything was sent, or nothing was to be sent: the request ends and so it should. -/
lemma flushSafe_of_left_zero {env : Env} {c : Request} (hlive : c.status < .timedOut) {o' : Out}
    (hf : Out.reqFlush { c.toOut with status := .done } = (o', .left 0))
    (hs : sentBytes o'.trace = sentBytes c.trace ++ c.pending) : FlushSafe env c := by
  have hdone : ({ c with status := .done } : Request).processDone.2 = .done := by
    unfold Request.processDone
    rw [hf]
  have hfree : (c.freeRequest env).2 ≠ .ready ∧
      sentBytes (lastTrace (c.freeRequest env)) = sentBytes c.trace ++ c.pending := by
    rcases Request.freeRequest_cases env c with ⟨-, -, n, hn, -⟩ | ⟨-, -, hn, -⟩ | ⟨-, -, -, he⟩ |
      ⟨hcond, he⟩
    · rw [hf] at hn
      cases hn
    · rw [hf] at hn
      cases hn
    · rw [he, hf]
      obtain ⟨h1, h2⟩ := lastTrace_endRequest env { c with toOut := o' }
      exact ⟨h2, h1.trans hs⟩
    · rw [he]
      obtain ⟨h1, h2⟩ := lastTrace_endRequest env c
      have hp : c.pending = [] := by
        by_contra hne
        exact hcond ⟨pending_ne_bufferEnd hne, hlive⟩
      exact ⟨h2, by rw [h1, hp, List.append_nil]⟩
  exact ⟨⟨fun hr => absurd hr hfree.1, fun hn => absurd hdone hn⟩, fun hr => absurd hr hfree.1,
    fun _ => .inr (.inr hfree.2)⟩

/-- The flush of `free_request` is safe unless the socket is full at that moment. -/
lemma flushSafe_iff {env : Env} {c : Request} (hok : c.toOut.BufOk) (hlive : c.status < .timedOut) :
    FlushSafe env c ↔ ¬ (c.pending ≠ [] ∧ c.nextWrite = .again) := by
  have ho : Out.BufOk { c.toOut with status := .done } := ⟨hok.start_le, hok.end_le, hok.size⟩
  rcases Out.reqFlush_cases _ ho with ⟨-, hs⟩ | ⟨-, hp, he⟩ | ⟨-, hp, hw, he⟩ | ⟨-, hp, hw, he⟩ |
    ⟨-, hp, n, hw, he⟩
  · exact absurd hs (show ¬ Status.done < Status.done by decide)
  · have hp : c.pending = [] := hp
    refine iff_of_true ?_ fun hn => hn.1 hp
    have heq : c.bufferStart = c.bufferEnd := by
      have h1 := Out.pending_length hok
      have h2 := hok.start_le
      rw [hp, List.length_nil] at h1
      omega
    have hset : Out.settle { c.toOut with status := .done } =
        { c.toOut with status := .done, bufferStart := 0, bufferEnd := 0 } := if_pos heq
    rw [hset] at he
    refine flushSafe_of_left_zero hlive he ?_
    rw [hp, List.append_nil]
  · refine iff_of_false (fun hsafe => ?_) fun hn => hn ⟨hp, hw⟩
    have hdone : ({ c with status := .done } : Request).processDone.2 = .blocked := by
      unfold Request.processDone
      rw [he]
    have hready := hsafe.decision.mpr (by rw [hdone]; simp)
    rcases Request.freeRequest_cases env c with ⟨-, -, n, hn, -⟩ | ⟨-, -, -, hf⟩ | ⟨-, -, -, hf⟩ |
      ⟨-, hf⟩
    · rw [he] at hn
      cases hn
    all_goals
      rw [hf] at hready
      exact (lastTrace_endRequest env _).2 hready
  · refine iff_of_true ?_ fun hn => ?_
    · have hdone : ({ c with status := .done } : Request).processDone.2 = .done := by
        unfold Request.processDone
        rw [he]
      have hfree : (c.freeRequest env).2 ≠ .ready := by
        rcases Request.freeRequest_cases env c with ⟨-, -, n, hn, -⟩ | ⟨-, -, -, hf⟩ | ⟨-, -, -, hf⟩ |
          ⟨-, hf⟩
        · rw [he] at hn
          cases hn
        all_goals
          rw [hf]
          exact (lastTrace_endRequest env _).2
      refine ⟨⟨fun hr => absurd hr hfree, fun hn => absurd hdone hn⟩, fun hr => absurd hr hfree,
        fun _ => hw.imp id .inl⟩
    · have hagain : c.nextWrite = .again := hn.2
      rcases hw with hw | hw <;> rw [show c.nextWrite = _ from hw] at hagain <;> cases hagain
  · refine iff_of_true ?_ fun hn => ?_
    · let a : Out := Out.accept { c.toOut with status := .done } (min n (c.bufferEnd - c.bufferStart))
      have hstream : sentBytes a.trace ++ a.pending = sentBytes c.trace ++ c.pending :=
        Out.accept_stream ho (min_le_right _ _)
      have hchan := Out.settle_channel a
      have htrace : sentBytes a.settle.trace = sentBytes a.trace := congrArg Channel.sent hchan
      have hpending : a.settle.pending = a.pending := congrArg Channel.queue hchan
      have he : Out.reqFlush { c.toOut with status := .done } = (a.settle, .left a.settle.bufferEnd) := he
      cases hend : a.settle.bufferEnd with
      | zero =>
        rw [hend] at he
        refine flushSafe_of_left_zero hlive he ?_
        have hnil : a.settle.pending = [] := Out.pending_eq_nil (by rw [hend]; exact Nat.zero_le _)
        rw [htrace, ← hstream, ← hpending, hnil, List.append_nil]
      | succ m =>
        rw [hend] at he
        have hdone : ({ c with status := .done } : Request).processDone.2 = .more := by
          unfold Request.processDone
          rw [he]
        rcases Request.freeRequest_cases env c with ⟨-, -, k, -, hf⟩ | ⟨-, -, hn, -⟩ | ⟨-, -, hn, -⟩ |
          ⟨hcond, -⟩
        · rw [he] at hf
          refine ⟨⟨fun _ => by rw [hdone]; simp, fun _ => by rw [hf]⟩, fun _ => ?_, fun hn => ?_⟩
          · rw [hf]
            show sentBytes a.settle.trace ++ a.settle.pending = _
            rw [htrace, hpending, hstream]
          · rw [hf] at hn
            exact absurd rfl hn
        · rw [he] at hn
          cases hn
        · rw [he] at hn
          rcases hn with hn | hn <;> cases hn
        · exact absurd ⟨pending_ne_bufferEnd hp, hlive⟩ hcond
    · rw [show c.nextWrite = _ from hw] at hn
      cases hn.2

/-- A request that a round hands to `free_request`, with the bounds of its buffer. -/
lemma handed_bufOk {c d : Request} {env : Env} (h : Reachable c .ready)
    (hd : c.serveOnce env = (d, .done)) (hlive : d.status < .timedOut) : d.toOut.BufOk := by
  have hw := (reach_whole (S := False) (fun hS => hS.elim) h).1 (by simp)
  have hend : Ended False (c.serveOnce env) :=
    Request.serveOnce_ended hw (fun hS => hS.elim) (fun hS => hS.elim)
  rw [hd] at hend
  exact (hend.2 rfl).ok hlive

/-- `free_request` keeps its promise exactly when the socket is not full at its flush. -/
theorem freeRequest_flushSafe_iff {c d : Request} {env : Env} (h : Reachable c .ready)
    (hd : c.serveOnce env = (d, .done)) (hlive : d.status < .timedOut) :
    FlushSafe env (d.heedSigterm env) ↔ ¬ (d.pending ≠ [] ∧ d.nextWrite = .again) := by
  have hok := handed_bufOk h hd hlive
  unfold Request.heedSigterm
  split_ifs
  · exact flushSafe_iff (c := d.squashKa) hok hlive
  · exact flushSafe_iff hok hlive

/-- The state of a small GET that was read completely. -/
def tinyRead : Request := ((Request.getRequest tinyEnv tinyPeer {}).processRequest
  (tinyClient "GET /f HTTP/1.0\r\n\r\n")).1

lemma tinyRead_reachable : Reachable tinyRead .ready := by
  have hstart : Reachable (Request.getRequest tinyEnv tinyPeer {}) .ready :=
    .accept tinyEnv tinyPeer {} trivial
  have h := Reach.pass (tinyClient "GET /f HTTP/1.0\r\n\r\n") hstart trivial
  have hready : ((Request.getRequest tinyEnv tinyPeer {}).processRequest
    (tinyClient "GET /f HTTP/1.0\r\n\r\n")).2 = .ready := by decide +kernel
  rw [hready] at h
  exact h

/-- The whole response fits the buffer and the socket is full: `free_request` ends the
request all the same. -/
theorem freeRequest_drops_pending : ∃ c d env, Reachable c .ready ∧ c.serveOnce env = (d, .done) ∧
    d.status < .timedOut ∧ ¬ FlushSafe env (d.heedSigterm env) := by
  have hd : tinyRead.serveOnce tinyEnv = ((tinyRead.serveOnce tinyEnv).1, .done) :=
    Prod.ext rfl (by decide +kernel)
  have hlive : (tinyRead.serveOnce tinyEnv).1.status < .timedOut := by decide +kernel
  refine ⟨tinyRead, _, tinyEnv, tinyRead_reachable, hd, hlive, fun hsafe => ?_⟩
  exact (flushSafe_iff (handed_bufOk tinyRead_reachable hd hlive) hlive).mp hsafe
    ⟨by decide +kernel, by decide +kernel⟩

/-- The same request on a socket with room. -/
theorem freeRequest_flushSafe_room :
    FlushSafe { tinyEnv with sock := [.wrote 10000] }
      ((tinyRead.serveOnce { tinyEnv with sock := [.wrote 10000] }).1.heedSigterm
        { tinyEnv with sock := [.wrote 10000] }) :=
  (freeRequest_flushSafe_iff tinyRead_reachable (Prod.ext rfl (by decide +kernel))
    (by decide +kernel)).mpr fun hn => absurd hn.2 (by decide +kernel)

end Boa
