import Boa.Post
import Boa.Delivery

/-! What a run keeps of a header that is read over many rounds. -/
namespace Boa
open Memory History

section Steps

variable {env : Env} {c : Request}

lemma readBody_behind (env : Env) (hs : c.status = .bodyRead) (hr : (c.readBody env).2 ≠ .done) :
    ¬ (c.readBody env).1.status.inHeader := by
  have hpop : ¬ c.popClient.status.inHeader := by
    show ¬ c.status.inHeader
    rw [hs]
    decide
  revert hr
  unfold Request.readBody
  dsimp only
  split_ifs
  · exact fun _ => show ¬ Status.bodyWrite.inHeader by decide
  · split
    · exact fun _ => hpop
    · exact fun hn => absurd rfl hn
    · exact fun hn => absurd rfl hn
    · exact fun hn => absurd rfl hn
    · exact fun _ => show ¬ Status.bodyWrite.inHeader by decide

lemma writeBody_behind (env : Env) (hs : c.status = .bodyWrite) (hr : (c.writeBody env).2 ≠ .done) :
    ¬ (c.writeBody env).1.status.inHeader := by
  have hsame : ¬ c.status.inHeader := by
    rw [hs]
    decide
  revert hr
  unfold Request.writeBody
  dsimp only
  split_ifs
  · intro hn
    rw [Request.initCgi_more hn]
    decide
  · exact fun _ => show ¬ Status.bodyRead.inHeader by decide
  · split
    · exact fun _ => hsame
    · exact fun _ => hsame
    · exact fun hn => absurd rfl hn
    · exact fun _ => hsame

/-- Behind the header a request does not go back to it. -/
lemma handle_behind (env : Env) (hs : ¬ c.status.inHeader)
    (hb : c.status = .bodyRead → c.headerEnd.area = .buffer) (hr : (c.handle env).2 ≠ .done) :
    ¬ (c.handle env).1.status.inHeader := by
  by_cases hlate : 6 ≤ c.status.rank
  · have hl : Later c (c.handle env).1 := Request.handle_later hs hb
    have hrank := hl.late hlate
    intro hin
    exact absurd (Status.inHeader_iff.mp hin) (by omega)
  · have hbody : c.status = .bodyRead ∨ c.status = .bodyWrite := by
      revert hs hlate
      cases c.status <;> decide
    unfold Request.handle at hr ⊢
    obtain hb | hb := hbody
    · rw [hb] at hr ⊢
      exact readBody_behind env hb hr
    · rw [hb] at hr ⊢
      exact writeBody_behind env hb hr

open Request in
/-- A round behind the header stays there. -/
lemma serveOnce_behind (env : Env) (hw : Whole False c) (hout : ¬ c.status.inHeader)
    (hr : (c.serveOnce env).2 ≠ .done) : ¬ (c.serveOnce env).1.status.inHeader := by
  by_cases hlate : 6 ≤ c.status.rank
  · have hstays : 6 ≤ (c.serveOnce env).1.status.rank := serveOnce_late hlate
    exact fun hin => absurd (Status.inHeader_iff.mp hin) (by omega)
  · have hlive : c.status < .timedOut := by
      revert hlate
      cases c.status <;> decide
    have hl := hw.live hlive env False.elim
    have hempty : c.bufferEnd = 0 := hl.early (by show c.status.rank < 6; omega)
    rw [serveOnce_of_empty hempty] at hr ⊢
    exact handle_behind env hout (fun hb => by rw [(hl.body hb).2]) hr

/-- What the end of the header block adds to `process_header_end` belongs to an answer. -/
lemma endHeader_adds (env : Env) (c : Request) :
    Adds Event.answers (c.processHeaderEnd env).1.trace (c.endHeader env).1.trace := by
  obtain ⟨-, he⟩ | ⟨-, he⟩ | ⟨-, -, he⟩ := Request.endHeader_cases env c
  · rw [he]
    exact .refl _
  · rw [he]
    exact .refl _
  · rw [he]
    obtain ⟨_, _, _, _, hb | ⟨e, hb, o, code, rfl, -, hr⟩⟩ := Request.startBody_cases env (c.processHeaderEnd env).1
    · rw [hb]
      exact .refl _
    · rw [hb]
      exact hr.adds.mono fun e he => Event.answers_of_reply he

/-- Behind the blank line no header is read. -/
lemma endHeader_behind (h0 : c.bufferStart = 0) (hr : (c.endHeader env).2 ≠ .done) :
    ¬ (c.endHeader env).1.status.inHeader := by
  have hconc := Request.processHeaderEnd_concluded (S := False) env c h0
  obtain ⟨hm, he⟩ | ⟨hdone, he⟩ | ⟨-, -, he⟩ := Request.endHeader_cases env c
  · rw [he] at hr ⊢
    obtain ⟨hrank, -⟩ | ⟨-, hpost, -⟩ := hconc.next hr
    · exact fun hin => absurd (Status.inHeader_iff.mp hin) (by omega)
    · exact absurd hpost hm
  · rw [he] at hr
    exact absurd hdone hr
  · rw [he] at hr ⊢
    obtain ⟨_, _, _, _, hb | ⟨e, hb, -⟩⟩ := Request.startBody_cases env (c.processHeaderEnd env).1
    · rw [hb]
      exact show ¬ Status.bodyWrite.inHeader by decide
    · rw [hb] at hr
      exact absurd rfl hr

end Steps

/-! ### The whole run -/

variable {env : Env} {c : Request}

lemma traces_iff {G : List Event → Prop} : (∀ t ∈ c.traces, G t) ↔ (∀ t ∈ c.past, G t) ∧ G c.trace := by
  unfold Request.traces
  simp only [List.mem_append, List.mem_singleton]
  constructor
  · intro h
    exact ⟨fun t ht => h t (.inl ht), h _ (.inr rfl)⟩
  · rintro ⟨h1, h2⟩ t (ht | rfl)
    · exact h1 t ht
    · exact h2

/-- `G` holds of the events of every request, because every round starts at a request of which `J`
holds, and leaves one of which `K` holds, and `J` if it goes on. -/
structure RunRule (P : Label → Request → Prop) (G : List Event → Prop) (K J : Request → Prop) : Prop where
  fresh : ∀ (o : Out) (l : Link), o.status = .readHeader → o.trace = [] → J { toOut := o, toLink := l }
  excess : ∀ (o : Out) (l : Link), o.status = .readHeader → o.trace = [] →
    K { toOut := o, toLink := l, httpVersion := .http10, method := .get }
  weaken : ∀ {c : Request}, J c → K c
  late : ∀ {c : Request}, K c → 6 ≤ c.status.rank → J c
  refused : ∀ {c d : Request}, K c → Refused c d → K d
  status : ∀ {c : Request} {s : Status}, K c → ¬ s.piped → K { c with status := s }
  flush : ∀ {c : Request}, K c → K { c with toOut := c.toOut.reqFlush.1 }
  heed : ∀ (k : KaStatus) {c : Request}, K c → K { c with keepalive := k }
  heedMore : ∀ (env : Env) {c : Request}, J c → J (c.heedSigterm env)
  serve : ∀ {env : Env} {c : Request}, Reach P c .ready → P (.pass env) c → J c →
    K (c.serveOnce env).1 ∧ ((c.serveOnce env).2 ≠ .done → J (c.serveOnce env).1)
  trace : ∀ {c : Request}, K c → G c.trace
  release : ∀ (env : Env) {c : Request}, K c → G (c.release env).trace

namespace RunRule

variable {P : Label → Request → Prop} {G : List Event → Prop} {K J : Request → Prop}

/-- What holds of a connection between two rounds. -/
structure Kept (G : List Event → Prop) (J : Request → Prop) (r : Request × Place) : Prop where
  traces : ∀ t ∈ r.1.traces, G t
  more : r.2 ≠ .free → J r.1

lemma kept (h : RunRule P G K J) {p : Place} (hp : ∀ t ∈ c.past, G t) (hJ : J c) : Kept G J (c, p) :=
  ⟨traces_iff.mpr ⟨hp, h.trace (h.weaken hJ)⟩, fun _ => hJ⟩

lemma endRequest (h : RunRule P G K J) (env : Env) (hp : ∀ t ∈ c.past, G t) (hK : K c) :
    Kept G J (c.endRequest env) := by
  obtain ⟨es, code, he, -⟩ := Request.release_spec env c
  have htrace : G (c.release env).trace := h.release env hK
  have hpast : (c.release env).past = c.past := by rw [he]
  unfold Request.endRequest
  dsimp only
  generalize c.release env = d at htrace hpast
  split_ifs
  · refine h.kept (fun t ht => ?_) (h.fresh _ _ rfl rfl)
    obtain ht | ht := List.mem_append.mp (show t ∈ d.past ++ [d.trace] from ht)
    · exact hp t (hpast ▸ ht)
    · rw [List.mem_singleton.mp ht]
      exact htrace
  · exact ⟨traces_iff.mpr ⟨hpast ▸ hp, htrace⟩, fun hn => absurd rfl hn⟩

open Request in
lemma freeRequest (h : RunRule P G K J) (env : Env) (hp : ∀ t ∈ c.past, G t) (hK : K c) :
    Kept G J (c.freeRequest env) := by
  have hflush : K { c with toOut := { c.toOut with status := .done }.reqFlush.1 } :=
    h.flush (h.status hK (show ¬ Status.done.piped by decide))
  obtain ⟨-, -, n, -, he⟩ | ⟨-, -, -, he⟩ | ⟨-, -, -, he⟩ | ⟨-, he⟩ := freeRequest_cases env c
  · rw [he]
    have hr : Out.Replies (fun _ => True) (fun _ => True) { c.toOut with status := .done } _ :=
      Out.reqFlush_replies _
    have hlate : 6 ≤ { c.toOut with status := .done }.reqFlush.1.status.rank := by
      obtain hs | hs := hr.status
      · rw [hs]
        exact (by decide : 6 ≤ Status.done.rank)
      · rw [hs]
        decide
    exact h.kept hp (h.late hflush hlate)
  · rw [he]
    exact h.endRequest env hp (h.status hflush (show ¬ Status.dead.piped by decide))
  · rw [he]
    exact h.endRequest env hp hflush
  · rw [he]
    exact h.endRequest env hp hK

open Request in
lemma processRequest (h : RunRule P G K J) (hr : Reach P c .ready) (hP : P (.pass env) c)
    (hc : Kept G J (c, .ready)) : Kept G J (c.processRequest env) := by
  have hw : Whole False c := (reach_whole (S := False) (fun hS => hS.elim) hr).1 (by simp)
  obtain ⟨hp, -⟩ := traces_iff.mp hc.traces
  obtain ⟨hserve, hmore⟩ := h.serve hr hP (hc.more (by simp))
  have hpast := serveOnce_past env hw
  unfold Request.processRequest
  dsimp only
  generalize c.serveOnce env = r at hserve hmore hpast
  obtain ⟨d, ret⟩ := r
  obtain ⟨k, hk⟩ := heedSigterm_eq env d
  have hp' : ∀ t ∈ (d.heedSigterm env).past, G t := by
    rw [hk, show d.past = c.past from hpast]
    exact hp
  cases ret with
  | blocked => exact h.kept hp' (h.heedMore env (hmore (by simp)))
  | more => exact h.kept hp' (h.heedMore env (hmore (by simp)))
  | done =>
    have hK : K (d.heedSigterm env) := by
      rw [hk]
      exact h.heed k hserve
    exact h.freeRequest env hp' hK

lemma getRequest (h : RunRule P G K J) (env : Env) (peer : Peer) (old : Request) :
    Kept G J (old.getRequest env peer, .ready) := by
  have hrefuse (d : Request) (hd : K d) (hp : d.past = []) :
      Kept G J ({ d.sendRServiceUnavailable env with status := .done }, .ready) := by
    have hrefused := Request.sendRServiceUnavailable_refused env d
    have hK := h.status (h.refused hd hrefused) (show ¬ Status.done.piped by decide)
    refine h.kept (fun t ht => ?_) (h.late hK (show 6 ≤ Status.done.rank by decide))
    rw [show Link.past _ = [] from hrefused.past.trans hp] at ht
    simp at ht
  unfold Request.getRequest
  dsimp only
  split_ifs
  · exact hrefuse _ (h.excess _ _ rfl rfl) rfl
  · refine h.kept (fun t ht => ?_) (h.fresh _ _ rfl rfl)
    have ht : t ∈ [] := ht
    simp at ht

/-- The rule: what a round keeps holds in every state of every run. -/
lemma reach (h : RunRule P G K J) {p : Place} (hr : Reach P c p) : Kept G J (c, p) := by
  induction hr with
  | accept env peer old hP => exact h.getRequest env peer old
  | pass env hr hP ih => exact h.processRequest hr hP ih
  | @wake c w hr hP ih =>
    have hc := ih.more (by simp)
    obtain ⟨hp, -⟩ := traces_iff.mp ih.traces
    have hlate (s : Status) (hs : ¬ s.piped ∧ 6 ≤ s.rank) : Kept G J ({ c with status := s }, .ready) :=
      h.kept hp (h.late (h.status (h.weaken hc) hs.1) hs.2)
    cases w with
    | ready => exact h.kept hp hc
    | timedOut => exact hlate .timedOut (by decide)
    | dead => exact hlate .dead (by decide)

end RunRule

/-! ### Rounds -/

/-- `J` holds of a connection between its rounds: a round keeps it, or ends with `D`, and what is
left to send behind that keeps it again. -/
structure RoundRule (P : Label → Request → Prop) (J D : Request → Prop) : Prop where
  fresh : ∀ (o : Out) (l : Link), o.status = .readHeader → o.trace = [] → J { toOut := o, toLink := l }
  excess : ∀ {c d : Request}, c.trace = [] → Refused c d → J { d with status := .done }
  heed : ∀ (env : Env) {c : Request}, J c → J (c.heedSigterm env)
  heedDone : ∀ (env : Env) {c : Request}, D c → D (c.heedSigterm env)
  serve : ∀ {env : Env} {c : Request}, Reach P c .ready → P (.pass env) c → J c →
    ((c.serveOnce env).2 = .done → D (c.serveOnce env).1) ∧ ((c.serveOnce env).2 ≠ .done → J (c.serveOnce env).1)
  finish : ∀ {c : Request}, D c → c.status < .timedOut → { c.toOut with status := .done }.reqFlush.1.status = .done →
    J { c with toOut := { c.toOut with status := .done }.reqFlush.1 }
  wake : ∀ {c : Request} (w : Wake), P (.wake w) c → J c → J (c.wake w)

namespace RoundRule

variable {P : Label → Request → Prop} {J D : Request → Prop}

lemma endRequest (h : RoundRule P J D) (env : Env) (hp : (c.endRequest env).2 ≠ .free) : J (c.endRequest env).1 := by
  obtain ⟨es, code, -, ⟨-, he⟩ | ⟨-, he⟩⟩ := Request.endRequest_cases env c
  · rw [he]
    exact h.fresh _ _ rfl rfl
  · rw [he] at hp
    exact absurd rfl hp

open Request in
lemma freeRequest (h : RoundRule P J D) (env : Env) (ho : Over False c) (hD : D c)
    (hp : (c.freeRequest env).2 ≠ .free) : J (c.freeRequest env).1 := by
  obtain ⟨-, hl, n, hn, he⟩ | ⟨-, -, -, he⟩ | ⟨-, -, -, he⟩ | ⟨-, he⟩ := freeRequest_cases env c
  · have hok : Out.BufOk { c.toOut with status := .done } :=
      ⟨(ho.ok hl).start_le, (ho.ok hl).end_le, (ho.ok hl).size⟩
    rw [he]
    exact h.finish hD hl (Out.reqFlush_left hok hn).2.1
  all_goals
    rw [he] at hp ⊢
    exact h.endRequest env hp

open Request in
/-- The rule: what a round keeps holds between all rounds of every run. -/
lemma reach (h : RoundRule P J D) {p : Place} (hr : Reach P c p) : p ≠ .free → J c := by
  induction hr with
  | accept env peer old hP =>
    intro _
    unfold Request.getRequest
    dsimp only
    split_ifs
    · exact h.excess rfl (sendRServiceUnavailable_refused env _)
    · exact h.fresh _ _ rfl rfl
  | @pass c env hr hP ih =>
    have hw : Whole False c := (reach_whole (S := False) (fun hS => hS.elim) hr).1 (by simp)
    obtain ⟨hdone, hmore⟩ := h.serve hr hP (ih (by simp))
    obtain ⟨-, hover⟩ := @serveOnce_ended _ env _ hw (fun hS => hS.elim) (fun hS => hS.elim)
    unfold Request.processRequest
    dsimp only
    generalize c.serveOnce env = r at hdone hmore hover
    obtain ⟨d, ret⟩ := r
    cases ret with
    | blocked => exact fun _ => h.heed env (hmore (by simp))
    | more => exact fun _ => h.heed env (hmore (by simp))
    | done => exact h.freeRequest env ((hover rfl).heedSigterm env) (h.heedDone env (hdone rfl))
  | @wake c w hr hP ih => exact fun _ => h.wake w hP (ih (by simp))

end RoundRule

/-! ### Requests that were answered -/

/-- An event of `free_request`. -/
def Event.parting (e : Event) : Prop := Out.Reply (fun _ => False) (fun _ => False) e ∨ e.isNote

/-- What `free_request` recycles has all events of the request, and its own. -/
lemma endRequest_past (env : Env) (c : Request) : (c.endRequest env).1.past = c.past ∨
    (c.endRequest env).2 = .block ∧ ∃ t, Adds Event.parting c.trace t ∧ (c.endRequest env).1.past = c.past ++ [t] := by
  obtain ⟨es, code, hes, ⟨-, he⟩ | ⟨-, he⟩⟩ := Request.endRequest_cases env c
  · rw [he]
    exact .inr ⟨rfl, _, ⟨es, rfl, fun e he => .inr (hes e he)⟩, rfl⟩
  · rw [he]
    exact .inl rfl

open Request in
lemma freeRequest_past (env : Env) (c : Request) : (c.freeRequest env).1.past = c.past ∨
    (c.freeRequest env).2 = .block ∧ ∃ t, Adds Event.parting c.trace t ∧ (c.freeRequest env).1.past = c.past ++ [t] := by
  have hr : Out.Replies (fun _ => False) (fun _ => False) { c.toOut with status := .done }
      { c.toOut with status := .done }.reqFlush.1 := Out.reqFlush_replies _
  have hflush : Adds Event.parting c.trace { c.toOut with status := .done }.reqFlush.1.trace :=
    hr.adds.mono fun e he => .inl he
  obtain ⟨-, -, n, -, he⟩ | ⟨-, -, -, he⟩ | ⟨-, -, -, he⟩ | ⟨-, he⟩ := freeRequest_cases env c
  · rw [he]
    exact .inl rfl
  · rw [he]
    refine (endRequest_past env _).imp id fun ⟨hblock, t, ht, hp⟩ => ⟨hblock, t, ?_, hp⟩
    exact hflush.trans ht
  · rw [he]
    refine (endRequest_past env _).imp id fun ⟨hblock, t, ht, hp⟩ => ⟨hblock, t, ?_, hp⟩
    exact hflush.trans ht
  · rw [he]
    exact endRequest_past env c

open Request in
/-- What holds of the events of every request behind which its connection is kept holds of all the
requests that a connection has answered. -/
lemma Reach.past_rule {P : Label → Request → Prop} {G : List Event → Prop}
    (hG : ∀ {env : Env} {c : Request}, Reach P c .ready → P (.pass env) c → (c.serveOnce env).2 = .done →
      (c.processRequest env).2 = .block → ∀ t, Adds Event.parting (c.serveOnce env).1.trace t → G t)
    {p : Place} (h : Reach P c p) : ∀ t ∈ c.past, G t := by
  induction h with
  | accept env peer old hP =>
    have hpast : (old.getRequest env peer).past = [] := by
      unfold getRequest
      dsimp only
      split_ifs
      · exact (sendRServiceUnavailable_refused env _).past
      · rfl
    rw [hpast]
    simp
  | @pass c env hr hP ih =>
    have hw : Whole False c := (reach_whole (S := False) (fun hS => hS.elim) hr).1 (by simp)
    have hpast := serveOnce_past env hw
    have hends := hG hr hP
    obtain ⟨k, hk⟩ := heedSigterm_eq env (c.serveOnce env).1
    unfold processRequest at hends ⊢
    dsimp only at hends ⊢
    rw [hk] at hends ⊢
    generalize c.serveOnce env = r at hpast hends
    obtain ⟨d, ret⟩ := r
    have hpast : d.past = c.past := hpast
    cases ret with
    | blocked =>
      rw [show Link.past _ = c.past from hpast]
      exact ih
    | more =>
      rw [show Link.past _ = c.past from hpast]
      exact ih
    | done =>
      dsimp only at hends ⊢
      obtain hsame | ⟨hblock, t, ht, hsame⟩ := freeRequest_past env { d with keepalive := k }
      · rw [hsame, show Link.past _ = c.past from hpast]
        exact ih
      · rw [hsame, show Link.past _ = c.past from hpast]
        intro t' ht'
        obtain ht' | ht' := List.mem_append.mp ht'
        · exact ih t' ht'
        · rw [List.mem_singleton.mp ht']
          exact hends rfl hblock t ht
  | @wake c w hr hP ih =>
    cases w with
    | ready => exact ih
    | timedOut => exact ih
    | dead => exact ih

/-! ### Headers -/

/-- `G` holds of the events of every request, because the header parser keeps `J` of the request
between its rounds and nothing else adds events that matter. -/
structure HeaderRule (P : Label → Request → Prop) (G : List Event → Prop) (J : Request → Prop) : Prop where
  nil : G []
  later : ∀ {t t' : List Event}, G t → Adds Event.later t t' → G t'
  fresh : ∀ (o : Out) (l : Link), o.status = .readHeader → o.trace = [] → J { toOut := o, toLink := l }
  heed : ∀ (env : Env) {c : Request}, J c → J (c.heedSigterm env)
  read : ∀ (env : Env) {c : Request}, P (.pass env) c → Parsing False (c.arm env) → G c.trace → J c →
    G ((c.arm env).readHeader env).1.trace ∧
      (((c.arm env).readHeader env).2 ≠ .done → J ((c.arm env).readHeader env).1)

namespace HeaderRule

variable {P : Label → Request → Prop} {G : List Event → Prop} {J : Request → Prop}

lemma notes (h : HeaderRule P G J) {t es : List Event} (ht : G t) (hes : ∀ e ∈ es, e.isNote) : G (t ++ es) :=
  h.later ht ⟨es, rfl, fun e he => Event.later_of_answers (Event.answers_of_isNote (hes e he))⟩

lemma refused (h : HeaderRule P G J) {d : Request} (ht : G c.trace) (hr : Refused c d) : G d.trace := by
  obtain ⟨o, code, rfl, -, hr⟩ := hr
  exact h.later ht (hr.adds.mono fun e he => Event.later_of_answers (Event.answers_of_reply he))

lemma flush (h : HeaderRule P G J) {o : Out} (ht : G o.trace) : G o.reqFlush.1.trace := by
  have hr : Out.Replies (fun _ => True) (fun _ => True) o o.reqFlush.1 := Out.reqFlush_replies o
  exact h.later ht (hr.adds.mono fun e he => Event.later_of_answers (Event.answers_of_reply he))

/-- What holds of a connection between two rounds. -/
def Holds (G : List Event → Prop) (J : Request → Prop) (r : Request × Place) : Prop :=
  (∀ t ∈ r.1.traces, G t) ∧ (r.2 ≠ .free → r.1.status.inHeader → J r.1)

open Request in
/-- One round: only a request that was in its header adds events that matter. -/
lemma serveOnce (h : HeaderRule P G J) (hP : P (.pass env) c) (hw : Whole False c) (ht : G c.trace)
    (hJ : c.status.inHeader → J c) : G (c.serveOnce env).1.trace ∧
      ((c.serveOnce env).2 ≠ .done → (c.serveOnce env).1.status.inHeader → J (c.serveOnce env).1) := by
  obtain ⟨hin, hp, he⟩ | ⟨hout, hl⟩ := serveOnce_cases env hw
  · obtain ⟨hread, hgo⟩ := h.read env hP hp ht (hJ hin)
    rw [he]
    exact ⟨hread, fun hr _ => hgo hr⟩
  · exact ⟨h.later ht hl.adds, fun hr hin => absurd hin (serveOnce_behind env hw hout hr)⟩

/-- What a header leaves holds of the events, and a request in its header keeps `J`. -/
lemma runRule (h : HeaderRule P G J) :
    RunRule P G (fun c => G c.trace) fun c => G c.trace ∧ (c.status.inHeader → J c) where
  fresh o l hs ht := by
    refine ⟨?_, fun _ => h.fresh o l hs ht⟩
    show G o.trace
    rw [ht]
    exact h.nil
  excess o l hs ht := by
    show G o.trace
    rw [ht]
    exact h.nil
  weaken hJ := hJ.1
  late hK hlate := ⟨hK, fun hin => absurd (Status.inHeader_iff.mp hin) (by omega)⟩
  refused := h.refused
  status hK _ := hK
  flush := h.flush
  heed _ _ hK := hK
  heedMore env c hJ := by
    obtain ⟨k, hk⟩ := Request.heedSigterm_eq env c
    rw [hk]
    refine ⟨hJ.1, fun hin => ?_⟩
    rw [← hk]
    exact h.heed env (hJ.2 hin)
  serve hr hP hJ := by
    have hw := (reach_whole (S := False) (fun hS => hS.elim) hr).1 (by simp)
    obtain ⟨hserve, hmore⟩ := h.serveOnce hP hw hJ.1 hJ.2
    exact ⟨hserve, fun hn => ⟨hserve, hmore hn⟩⟩
  trace hK := hK
  release env c hK := by
    obtain ⟨es, code, he, hes, -⟩ := Request.release_spec env c
    rw [he]
    exact h.notes hK hes

/-- What the header parser keeps holds in every state of every run. -/
lemma reach (h : HeaderRule P G J) {p : Place} (hr : Reach P c p) : Holds G J (c, p) := by
  have hkept := h.runRule.reach hr
  exact ⟨hkept.traces, fun hn => (hkept.more hn).2⟩

end HeaderRule
end Boa
