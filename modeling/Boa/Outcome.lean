import Boa.Answers

/-! How the reading of a header ends: all that a round can leave of a request whose header it reads. -/
namespace Boa
open Memory History

/-- Not a word to the client, and no promise of one. -/
def Event.mute : Event → Bool
  | .queued _ | .data _ | .withdrawn _ | .sent _ | .kaPhrase _ | .contentLength _ => false
  | _ => true

/-- Nothing was answered yet. -/
def Mute (t : List Event) : Prop := ∀ e ∈ t, e.mute

/-- The client is gone, or its socket has failed. -/
def ReadRes.ends : ReadRes → Bool
  | .eof | .err => true
  | .data bs => bs.isEmpty
  | _ => false

variable {env : Env} {c d : Request}

lemma Mute.adds {t t' : List Event} (h : Mute t) (ha : Adds (fun e => e.mute) t t') : Mute t' := by
  obtain ⟨es, rfl, hes⟩ := ha
  exact fun e he => (List.mem_append.mp he).elim (h e) (hes e)

lemma Mute.snoc {t : List Event} {e : Event} (h : Mute t) (he : e.mute) : Mute (t ++ [e]) := h.adds (.snoc he)

lemma Event.mute_of_isNote {e : Event} (h : e.isNote) : e.mute := by
  cases e <;> first | rfl | simp [Event.isNote] at h

lemma Event.mute_of_locating {e : Event} (h : e.locating c) : e.mute := by
  cases e <;> first | rfl | exact h.elim

lemma Mute.not_mem {t : List Event} (h : Mute t) {e : Event} (he : e.mute = false) : e ∉ t := by
  intro hm
  have hmute := h e hm
  rw [he] at hmute
  cases hmute

lemma ReadRes.ends_of_fit {r : ReadRes} {room : ℕ} (h : r.fit room = .eof ∨ r.fit room = .err) (hroom : 0 < room) :
    r.ends := by
  cases r with
  | data bs =>
    obtain h | h := h
    · unfold ReadRes.fit at h
      dsimp only at h
      split_ifs at h with hnil
      have hbs : bs = [] := by
        have hlen := congrArg List.length hnil
        rw [List.length_take, List.length_nil] at hlen
        exact List.length_eq_zero_iff.mp (by omega)
      rw [hbs]
      rfl
    · unfold ReadRes.fit at h
      dsimp only at h
      split_ifs at h
  | eof => rfl
  | err => rfl
  | again => obtain h | h := h <;> cases h
  | intr => obtain h | h := h <;> cases h

namespace Request

/-- Nothing was decided, answered or mapped yet. -/
structure Primed (c : Request) : Prop where
  mute : Mute c.trace
  counted : c.Counted
  unmapped : c.dataMem = none
  unset : c.responseStatus = 0

/-- What is known of a header between two bytes. The header of a POST is read on even behind a
request line without a version. -/
structure Poised (c : Request) : Prop extends Primed c where
  unasked : c.logline = false → c.keepalive ≠ .active
  asked : c.logline = true → c.method ≠ .post → c.httpVersion ≠ .http09

/-- A request that `init_get` is called for. -/
structure Asked (c : Request) : Prop extends Out.BufOk c.toOut, Primed c where
  status : c.status = .write
  empty : c.bufferEnd = 0
  noCgi : c.cgiType = .none
  sober : c.httpVersion = .http09 → c.keepalive ≠ .active

lemma Primed.adds (h : c.Primed) (ht : Adds (fun e => e.mute) c.trace d.trace) (hc : c.Counted → d.Counted)
    (he : (d.dataMem, d.responseStatus) = (c.dataMem, c.responseStatus)) : d.Primed := by
  simp only [Prod.mk.injEq] at he
  exact ⟨h.mute.adds ht, hc h.counted, he.1.trans h.unmapped, he.2.trans h.unset⟩

/-- Only a client that has given its version is promised to be kept. -/
lemma Poised.sober (h : c.Poised) (hm : c.method ≠ .post) : c.httpVersion = .http09 → c.keepalive ≠ .active := by
  intro hv
  cases hl : c.logline with
  | false => exact h.unasked hl
  | true => exact absurd hv (h.asked hl hm)

lemma Poised.of_eq (h : c.Poised) (ht : Adds (fun e => e.mute) c.trace d.trace) (hc : c.Counted → d.Counted)
    (he : (d.responseStatus, d.dataMem, d.logline, d.method, d.httpVersion) =
      (c.responseStatus, c.dataMem, c.logline, c.method, c.httpVersion))
    (hk : c.logline = false → d.keepalive = c.keepalive) : d.Poised := by
  simp only [Prod.mk.injEq] at he
  obtain ⟨hcode, hmem, hl, hm, hv⟩ := he
  refine ⟨h.toPrimed.adds ht hc (by rw [hmem, hcode]), fun hlog => ?_, fun hlog hpost => ?_⟩
  · rw [hk (hl ▸ hlog)]
    exact h.unasked (hl ▸ hlog)
  · rw [hv]
    exact h.asked (hl ▸ hlog) (hm ▸ hpost)

/-- The header of a POST. -/
lemma Primed.poised (h : c.Primed) (hl : c.logline = true) (hm : c.method = .post) : c.Poised := by
  refine ⟨h, fun hlog => ?_, fun _ hne => absurd hm hne⟩
  rw [hl] at hlog
  cases hlog

namespace Asked

lemma with_trace (h : c.Asked) (ht : Adds (fun e => e.mute) c.trace d.trace)
    (ho : d.toOut = { c.toOut with trace := d.trace })
    (he : (d.ranges, d.numranges, d.dataMem, d.responseStatus, d.cgiType, d.httpVersion, d.keepalive) =
      (c.ranges, c.numranges, c.dataMem, c.responseStatus, c.cgiType, c.httpVersion, c.keepalive)) : d.Asked := by
  simp only [Prod.mk.injEq] at he
  obtain ⟨hr, hn, hm, hcode, hg, hv, hk⟩ := he
  have hb : d.toOut.BufOk := by
    rw [ho]
    exact ⟨h.start_le, h.end_le, h.size⟩
  refine ⟨hb, h.toPrimed.adds ht (fun hc => ?_) (by rw [hm, hcode]), ?_, ?_, hg.trans h.noCgi, ?_⟩
  · rw [Counted, hr, hn]
    exact hc
  · rw [ho]
    exact h.status
  · rw [ho]
    exact h.empty
  · rw [hv, hk]
    exact h.sober

lemma noted (h : c.Asked) (hn : Noted c d) : d.Asked := by
  obtain ⟨es, uri, size, path, rfl, hes⟩ := hn
  exact h.with_trace ⟨es, rfl, fun e he => Event.mute_of_isNote (hes e he)⟩ rfl rfl

lemma start (h : c.Asked) : c.bufferStart = 0 := Nat.le_zero.mp (h.empty ▸ h.start_le)

lemma not_done (h : c.Asked) : ¬ .done < c.status := by
  rw [h.status]
  decide

end Asked

/-- What a round leaves of a request whose header it reads. -/
inductive Outcome (env : Env) : Request × Ret → Prop
  | reads {d : Request} {ret : Ret} (hr : ret ≠ .done) (hclear : Clear d) (hin : d.status.inHeader → d.Poised)
      (hbody : d.status = .bodyRead ∨ d.status = .bodyWrite → d.method = .post) (hlow : d.status.rank < 6) :
      Outcome env (d, ret)
  | quits {d : Request} (hclear : Clear d) (hwhy : d.responseStatus = 0 ∨ d.status = .dead) : Outcome env (d, .done)
  | fails {d : Request} (hclear : Clear d) (hends : ∃ r ∈ env.client, r.ends) : Outcome env (d, .done)
  | closing {d : Request} {p : Request × Ret} (hd : Mute d.trace) (h : Closing d p.1)
      (hlate : p.2 ≠ .done → 6 ≤ p.1.status.rank) : Outcome env p
  | file {d : Request} (h : d.Asked) (f : File) (path : Bytes) : Outcome env (d.serveFile env f path)
  | gunzip {d : Request} (h : d.Asked) (gz : Bytes) (hm : d.method ≠ .head) :
      Outcome env ((((d.gunzipHeader env).log .gunzip).log (.serve gz)).initCgi env)
  | gunzipHead {d : Request} (h : d.Asked) (hm : d.method = .head) : Outcome env (d.gunzipHeader env, .done)

lemma Outcome.refused (hd : Mute d.trace) (h : Refused d c) : Outcome env (c, .done) :=
  .closing hd h.closing fun hr => absurd rfl hr

namespace Outcome

variable {p : Request × Ret}

lemma late (h : Outcome env p) (hr : p.2 ≠ .done) : 6 ≤ p.1.status.rank ∨
    (p.1.status.inHeader → p.1.Poised) ∧ (p.1.status = .bodyRead ∨ p.1.status = .bodyWrite → p.1.method = .post) := by
  cases h with
  | reads _ hclear hin hbody hlow => exact .inr ⟨hin, hbody⟩
  | quits => exact absurd rfl hr
  | fails => exact absurd rfl hr
  | closing hd h hlate => exact .inl (hlate hr)
  | @file d hd f path =>
    have hlow : 6 ≤ d.status.rank := by
      rw [hd.status]
      decide
    exact .inl ((serveFile_effect (S := False) env d f path hd.start).late hlow)
  | gunzip hd gz hm =>
    rw [initCgi_more hr]
    exact .inl (by decide)
  | gunzipHead => exact absurd rfl hr

/-- What goes on to be read as a header. -/
lemma header (h : Outcome env p) (hr : p.2 ≠ .done) (hin : p.1.status.inHeader) : p.1.Poised := by
  obtain hlate | ⟨hpoised, -⟩ := h.late hr
  · exact absurd (Status.inHeader_iff.mp hin) (by omega)
  · exact hpoised hin

lemma body (h : Outcome env p) (hr : p.2 ≠ .done) (hb : p.1.status = .bodyRead ∨ p.1.status = .bodyWrite) :
    p.1.method = .post := by
  obtain hlate | ⟨-, hbody⟩ := h.late hr
  · obtain hb | hb := hb <;> rw [hb] at hlate <;> exact absurd hlate (by decide)
  · exact hbody hb

end Outcome

/-- `init_get`. -/
lemma initGet_outcome (env : Env) (h : c.Asked) : Outcome env (c.initGet env) := by
  have hanswers := initGet_answers env c
  have hlate := (initGet_effect (S := False) env c h.start).late (by rw [h.status]; decide)
  generalize c.initGet env = p at hanswers hlate ⊢
  cases hanswers with
  | file f path hn => exact .file (h.noted hn) f path
  | closing hd => exact .closing h.mute hd fun _ => hlate
  | gunzip gz hn hm => exact .gunzip (h.noted hn) gz hm
  | gunzipHead hn hm => exact .gunzipHead (h.noted hn) hm

/-- The POST branch of `process_header_end`: a temporary file, or an error response. -/
lemma openPostFile_cases (env : Env) (c : Request) :
    (∃ d, Adds (fun e => e.mute) c.trace d.trace ∧ Closing d (c.openPostFile env).1 ∧ (c.openPostFile env).2 = .done) ∨
    (∃ es fd, c.openPostFile env = ({ c with trace := c.trace ++ es, postDataFd := fd }, .more) ∧
      ∀ e ∈ es, e.mute) := by
  obtain ⟨es, hd, hes⟩ : ∃ es,
      c.setPostDataFd env.tempFd = { c with trace := c.trace ++ es, postDataFd := env.tempFd } ∧
      ∀ e ∈ es, e.mute := by
    unfold setPostDataFd
    split_ifs
    · exact ⟨[.overwrite .postDataFd], rfl, by simp [Event.mute]⟩
    · exact ⟨[], by simp, by simp⟩
  unfold openPostFile
  rw [hd]
  dsimp only
  generalize hdef : ({ c with trace := c.trace ++ es, postDataFd := env.tempFd } : Request) = d
  have hadds : Adds (fun e => e.mute) c.trace d.trace := by
    rw [← hdef]
    exact ⟨es, rfl, hes⟩
  split_ifs
  · exact .inl ⟨d, hadds, (sendRError_refused env d).closing, rfl⟩
  · have hclosing := (sendRError_refused env (d.log (.opened env.tempFd))).closing.log (e := .closed env.tempFd)
      (by simp [Event.unpromising])
    exact .inl ⟨d.log (.opened env.tempFd), hadds.trans (.snoc rfl), hclosing.trans (.of_eq hclosing.stopped rfl), rfl⟩
  · refine .inr ⟨es ++ [.opened env.tempFd], env.tempFd, ?_, fun e he => ?_⟩
    · rw [← hdef]
      simp [Request.log]
    · obtain he | he := List.mem_append.mp he
      · exact hes e he
      · rw [List.mem_singleton.mp he]
        rfl

/-- What `process_header_end` gives to the handlers: the URI was accepted and translated. -/
structure Handed (c d : Request) : Prop where
  adds : Adds (fun e => e.mute) c.trace d.trace
  out : d.toOut = { c.toOut with trace := d.trace }
  same : (d.ranges, d.numranges, d.dataMem, d.responseStatus, d.method, d.httpVersion, d.keepalive, d.logline) =
    (c.ranges, c.numranges, c.dataMem, c.responseStatus, c.method, c.httpVersion, c.keepalive, c.logline)

lemma Handed.primed (h : Handed c d) (hc : c.Primed) : d.Primed := by
  have hsame := h.same
  simp only [Prod.mk.injEq] at hsame
  obtain ⟨hr, hn, hm, hs, -⟩ := hsame
  refine hc.adds h.adds (fun hcount => ?_) (by rw [hm, hs])
  rw [Counted, hr, hn]
  exact hcount

lemma processHeaderEnd_cases (env : Env) (c : Request) :
    (∃ d, Adds (fun e => e.mute) c.trace d.trace ∧ Closing d (c.processHeaderEnd env).1 ∧
      (c.processHeaderEnd env).2 = .done) ∨
    (∃ d, Handed c d ∧ c.processHeaderEnd env =
      if d.method = .post then d.openPostFile env
      else if d.cgiType ≠ .none then d.initCgi env else { d with status := .write }.initGet env) := by
  unfold processHeaderEnd
  obtain ⟨uri, query, host, he | ⟨d, he, hrefused⟩⟩ := acceptUri_cases env (c.log .headerEnd)
  · rw [he]
    dsimp only
    unfold dispatchUri
    generalize hu : ({ c.log .headerEnd with requestUri := uri, queryString := query, host := host } : Request) = u
    have hhanded : Handed c u := by
      rw [← hu]
      exact ⟨.snoc rfl, rfl, rfl⟩
    clear hu he
    obtain ⟨hr, hl⟩ | ⟨hr, d, hl, hrefused⟩ := translateUri_translated env u
    · generalize u.translateUri env = r at hr hl
      obtain ⟨d, ok⟩ := r
      cases hr
      obtain ⟨es, ct, pn, sn, pi, pt, rfl, hes⟩ := hl
      have hlocated : Handed c { u with
          trace := u.trace ++ es, cgiType := ct, pathname := pn, scriptName := sn, pathInfo := pi,
          pathTranslated := pt } := by
        refine ⟨hhanded.adds.trans ⟨es, rfl, fun e he => Event.mute_of_locating (hes e he)⟩, ?_, hhanded.same⟩
        rw [hhanded.out]
      exact .inr ⟨_, hlocated, rfl⟩
    · generalize u.translateUri env = r at hr hrefused
      obtain ⟨e, ok⟩ := r
      cases hr
      obtain ⟨es, ct, pn, sn, pi, pt, rfl, hes⟩ := hl
      exact .inl ⟨_, hhanded.adds.trans ⟨es, rfl, fun e he => Event.mute_of_locating (hes e he)⟩,
        hrefused.closing.trans (.squashKa e), rfl⟩
  · rw [he]
    exact .inl ⟨{ c.log .headerEnd with requestUri := uri, queryString := query, host := host }, .snoc rfl,
      hrefused.closing, rfl⟩

/-- `process_header_end`, for anything but a POST. -/
lemma processHeaderEnd_outcome (env : Env) (hb : c.toOut.BufOk) (h0 : c.bufferEnd = 0) (h : c.Primed)
    (hm : c.method ≠ .post) (hsober : c.httpVersion = .http09 → c.keepalive ≠ .active) :
    Outcome env (c.processHeaderEnd env) := by
  obtain ⟨d, hadds, hclosing, hdone⟩ | ⟨d, hd, he⟩ := processHeaderEnd_cases env c
  · exact .closing (h.mute.adds hadds) hclosing fun hr => absurd hdone hr
  · have hprimed := hd.primed h
    obtain ⟨-, -, -, -, hmethod, hv, hk, -⟩ := by simpa only [Prod.mk.injEq] using hd.same
    have hout : d.toOut.BufOk ∧ d.bufferEnd = 0 := by
      rw [hd.out]
      exact ⟨⟨hb.start_le, hb.end_le, hb.size⟩, h0⟩
    rw [he, if_neg (hmethod ▸ hm)]
    split_ifs with hcgi
    · refine .closing hprimed.mute (initCgi_closing env d) fun hr => ?_
      rw [initCgi_more hr]
      decide
    · refine initGet_outcome env ⟨⟨hout.1.start_le, hout.1.end_le, hout.1.size⟩,
        ⟨hprimed.mute, hprimed.counted, hprimed.unmapped, hprimed.unset⟩, rfl, hout.2, not_not.mp hcgi, ?_⟩
      show d.httpVersion = .http09 → d.keepalive ≠ .active
      rw [hv, hk]
      exact hsober

/-- `process_header_end`, for a POST. -/
lemma processHeaderEnd_post (env : Env) (h : c.Primed) (hm : c.method = .post) :
    ((c.processHeaderEnd env).2 = .done ∧ Outcome env (c.processHeaderEnd env)) ∨
      (c.processHeaderEnd env).2 = .more ∧ (c.processHeaderEnd env).1.method = .post ∧
        (c.processHeaderEnd env).1.Primed ∧ (c.processHeaderEnd env).1.status = c.status ∧
        (c.processHeaderEnd env).1.logline = c.logline := by
  obtain ⟨d, hadds, hclosing, hdone⟩ | ⟨d, hd, he⟩ := processHeaderEnd_cases env c
  · exact .inl ⟨hdone, .closing (h.mute.adds hadds) hclosing fun hr => absurd hdone hr⟩
  · have hprimed := hd.primed h
    obtain ⟨-, -, -, -, hmethod, -, -, hlog⟩ := by simpa only [Prod.mk.injEq] using hd.same
    have hpost : d.method = .post := hmethod.trans hm
    rw [he, if_pos hpost]
    obtain ⟨e, hadds, hclosing, hdone⟩ | ⟨es, fd, hopen, hes⟩ := openPostFile_cases env d
    · exact .inl ⟨hdone, .closing (hprimed.mute.adds hadds) hclosing fun hr => absurd hdone hr⟩
    · rw [hopen]
      refine .inr ⟨rfl, hpost, hprimed.adds ⟨es, rfl, hes⟩ id rfl, ?_, hlog⟩
      rw [hd.out]

/-- The blank line behind a header. -/
lemma endHeader_outcome (env : Env) (hb : c.toOut.BufOk) (h0 : c.bufferEnd = 0) (hclear : Clear c)
    (hlow : c.status.rank < 6) (h : c.Poised) : Outcome env (c.endHeader env) := by
  have hstart : c.bufferStart = 0 := Nat.le_zero.mp (h0 ▸ hb.start_le)
  have hanswered := endHeader_answered env hclear hstart hlow
  by_cases hpost : c.method = .post
  · obtain ⟨hdone, hout⟩ | ⟨hmore, hmethod, hprimed, -⟩ := processHeaderEnd_post env h.toPrimed hpost
    · obtain ⟨-, he⟩ | ⟨-, he⟩ | ⟨hr, -⟩ := endHeader_cases env c
      · rwa [he]
      · rwa [he]
      · exact absurd hdone hr
    · obtain ⟨hno, -⟩ | ⟨hdone, -⟩ | ⟨-, -, he⟩ := endHeader_cases env c
      · exact absurd hmethod hno
      · rw [hmore] at hdone
        cases hdone
      · rw [he] at hanswered ⊢
        generalize (c.processHeaderEnd env).1 = d at hmethod hprimed hanswered
        obtain ⟨hl, he, size, pos, hb | ⟨e, hb, hrefused⟩⟩ := startBody_cases env d
        · rw [hb] at hanswered ⊢
          exact .reads (by simp) (hanswered.clear (by simp) (show Status.bodyWrite.rank < 6 by decide))
            (fun hin => absurd hin (show ¬ Status.bodyWrite.inHeader by decide)) (fun _ => hmethod)
            (show Status.bodyWrite.rank < 6 by decide)
        · rw [hb]
          exact .closing (d := d) hprimed.mute (hrefused.closing.behind (.refl _)) fun hr => absurd rfl hr
  · have hout := processHeaderEnd_outcome env hb h0 h.toPrimed hpost (h.sober hpost)
    have hmethod := (of_kept (of_fixed (processHeaderEnd_concluded (S := False) env c hstart).fixed).1).2.2.2.1
    obtain ⟨-, he⟩ | ⟨-, he⟩ | ⟨-, hno, -⟩ := endHeader_cases env c
    · rwa [he]
    · rwa [he]
    · exact absurd (hmethod.symm.trans hno) hpost

/-- `process_header_end` behind a request line without a version: a POST stays in its header. -/
lemma processHeaderEnd_short (env : Env) (hb : c.toOut.BufOk) (h0 : c.bufferEnd = 0) (hclear : Clear c)
    (hs : c.status = .oneLf) (hl : c.logline = true) (h : c.Primed)
    (hsober : c.httpVersion = .http09 → c.keepalive ≠ .active) : Outcome env (c.processHeaderEnd env) := by
  by_cases hpost : c.method = .post
  · have hanswered := processHeaderEnd_answered env hclear (Nat.le_zero.mp (h0 ▸ hb.start_le))
    obtain ⟨-, hout⟩ | ⟨hmore, hmethod, hprimed, hst, hlog⟩ := processHeaderEnd_post env h hpost
    · exact hout
    · generalize c.processHeaderEnd env = p at hmore hmethod hprimed hst hlog hanswered
      obtain ⟨e, ret⟩ := p
      cases hmore
      have hst : e.status = .oneLf := hst.trans hs
      have hlow : e.status.rank < 6 := by
        rw [hst]
        decide
      exact .reads (by simp) (hanswered.clear (by simp) hlow) (fun _ => hprimed.poised (hlog.trans hl) hmethod)
        (fun _ => hmethod) hlow
  · exact processHeaderEnd_outcome env hb h0 h hpost hsober

/-- The loop of `read_header`: what it keeps while it goes on, and how it stops. -/
structure Parsed (env : Env) (c : Request) (r : Request × Option Ret) : Prop where
  goes : r.2 = none → r.1.Poised ∧ r.1.client = c.client
  stops : ∀ ret, r.2 = some ret → Outcome env (r.1, ret)

lemma Parsed.going (h : d.Poised) (hc : d.client = c.client) : Parsed env c (d, none) :=
  ⟨fun _ => ⟨h, hc⟩, fun ret hret => by simp at hret⟩

lemma Parsed.stopped {ret : Ret} (h : Outcome env (d, ret)) : Parsed env c (d, some ret) := by
  refine ⟨fun hn => by simp at hn, fun ret' hret => ?_⟩
  cases hret
  exact h

end Request

open Request in
/-- A byte of the header. -/
lemma ByteStep.parsed {uc : UInt8} {o : Option Ret} (h : ByteStep env c uc d o) (hp : Parsing False c)
    (hclear : Clear c) (hc : c.Poised) : Parsed env c (d, o) := by
  have hadvance : (c.advance uc).Poised := hc.of_eq (.refl _) id rfl fun _ => rfl
  have hline : (c.advance uc).terminateLine.Poised := hc.of_eq (.refl _) id rfl fun _ => rfl
  have hterminated (hs : (c.advance uc).status = .oneLf) : Clear (c.advance uc).terminateLine := by
    have hunpiped : ¬ (c.advance uc).status.piped := by
      rw [hs]
      decide
    exact hclear.books (.of_eq rfl rfl fun hpipe => absurd hpipe hunpiped) rfl
  cases h with
  | illegal hi hd => exact .stopped (.refused (by exact hc.mute.snoc rfl) hd)
  | skip hi h1 h2 => exact .going hadvance rfl
  | tooLong hi hs hl hd => exact .stopped (.refused (by exact hline.mute.snoc rfl) hd)
  | option hi hs hl hd hcount =>
    obtain ⟨_, _, _, _, _, _, _, _, _, _, _, _, rfl⟩ := hd
    refine .going (hline.of_eq (.snoc rfl) hcount rfl fun hlog => ?_) rfl
    exact absurd (hl.symm.trans hlog) (by decide)
  | optionStop hi hs hl hd =>
    obtain ⟨e, he, ⟨rfl, -⟩ | ⟨-, hr⟩⟩ := hd
    · have hquit := he.clear ((hterminated hs).log (e := .optionLine (c.advance uc).terminateLine.lineAt) ⟨rfl, rfl⟩)
      obtain ⟨_, _, _, _, _, _, _, _, _, _, _, _, rfl⟩ := he
      exact .stopped (.quits hquit (.inl hc.unset))
    · obtain ⟨_, _, _, _, _, _, _, _, _, _, _, _, rfl⟩ := he
      exact .stopped (.refused (by exact hline.mute.snoc rfl) hr)
  | logline hi hs hl hd hv =>
    obtain ⟨m, v, uri, hh, ka, idx, rfl, -⟩ := hd
    refine .going ⟨hline.toPrimed.adds (.snoc rfl) id rfl, fun hlog => ?_, fun _ _ => hv⟩ rfl
    cases hlog
  | loglineStop hi hs hl hd he =>
    obtain ⟨m, v, uri, hh, ka, idx, rfl, -⟩ := hd
    exact .stopped (.refused (by exact hline.mute.snoc rfl) he)
  | @short d hi hs hl hd hv =>
    have hnew := hd.clear (hterminated hs)
    obtain ⟨m, v, uri, hh, ka, idx, rfl, hkeep⟩ := hd
    refine .stopped (processHeaderEnd_short env ⟨hp.start_le, hp.end_le, hp.size⟩ hp.empty hnew hs rfl ?_ fun _ => ?_)
    · exact hline.toPrimed.adds (.snoc rfl) id rfl
    · show ka ≠ .active
      rw [hkeep hv]
      exact hline.unasked hl
  | finish hi hs =>
    have hunpiped : ¬ (c.advance uc).status.piped := by
      rw [hs]
      decide
    have hold : Clear (c.advance uc) := hclear.books (.of_eq rfl rfl fun hpipe => absurd hpipe hunpiped) rfl
    refine .stopped (endHeader_outcome env ⟨hp.start_le, hp.end_le, hp.size⟩ hp.empty hold ?_ hadvance)
    rw [hs]
    decide

namespace Request

lemma scanHeader_parsed (env : Env) (bs : Bytes) (hp : Parsing False c) (hclear : Clear c) (hc : c.Poised) :
    Parsed env c (scanHeader env c bs) := by
  induction bs generalizing c with
  | nil => exact .going hc rfl
  | cons uc bs ih =>
    have hstep := headerByte_step env c uc
    have hended := hstep.ended hp
    have hkeeps := hstep.scanClear hp hclear
    have hbyte := hstep.parsed hp hclear hc
    unfold scanHeader
    generalize c.headerByte env uc = r at hended hkeeps hbyte
    obtain ⟨d, _ | ret⟩ := r
    · obtain ⟨hpoised, hclient⟩ := hbyte.goes rfl
      have hrest := ih (hended.1 rfl) (hkeeps.goes rfl) hpoised
      exact ⟨fun hn => ⟨(hrest.goes hn).1, (hrest.goes hn).2.trans hclient⟩, hrest.stops⟩
    · exact hbyte

lemma nextClient_ends {room : ℕ} (hroom : 0 < room) (h : c.nextClient room = .eof ∨ c.nextClient room = .err) :
    ∃ r ∈ c.client, r.ends := by
  unfold nextClient at h
  cases hlist : c.client with
  | nil =>
    rw [hlist] at h
    obtain h | h := h <;> cases h
  | cons r rest =>
    rw [hlist] at h
    exact ⟨r, by simp, ReadRes.ends_of_fit h hroom⟩

/-- `read` is asked for more of the header. -/
lemma readMore_outcome (hp : Parsing False c) (hclear : Clear c) (hc : c.Poised) (hcl : c.client = env.client) :
    Outcome env c.readMore := by
  have hin := hp.header
  have hlow : c.status.rank < 6 := by
    have := Status.inHeader_iff.mp hin
    omega
  have hnot : ¬ (c.status = .bodyRead ∨ c.status = .bodyWrite) := by
    rintro (hb | hb) <;> rw [hb] at hin <;> exact absurd hin (by decide)
  have hpop : Clear c.popClient := hclear.books (.of_eq rfl rfl id) rfl
  have hreads (d : Request) (ret : Ret) (hr : ret ≠ .done) (hd : Clear d) (hpo : d.Poised) (hs : d.status = c.status) :
      Outcome env (d, ret) :=
    .reads hr hd (fun _ => hpo) (fun hb => absurd hb (hs ▸ hnot)) (hs ▸ hlow)
  unfold readMore
  dsimp only
  split_ifs with hroom
  · refine .quits ?_ (.inr rfl)
    exact (hclear.log (e := .reject .streamFull) ⟨rfl, rfl⟩).books
      (.of_eq rfl rfl fun hpipe => absurd hpipe (show ¬ Status.dead.piped by decide)) rfl
  · have hends := nextClient_ends (c := c) (show 0 < clientStreamSize - c.clientStreamPos by omega)
    rw [hcl] at hends
    split
    · exact hreads _ _ (by simp) hpop (hc.of_eq (.refl _) id rfl fun _ => rfl) rfl
    · exact hreads _ _ (by simp) hpop (hc.of_eq (.refl _) id rfl fun _ => rfl) rfl
    · next h => exact .fails (hpop.books (.of_eq rfl rfl id) rfl) (hends (.inr h))
    · next h => exact .fails ((hpop.log ⟨rfl, rfl⟩).books (.of_eq rfl rfl id) rfl) (hends (.inl h))
    · next bs _ =>
      exact hreads _ _ (by simp) ((hpop.log (e := .received bs) ⟨rfl, rfl⟩).books (.of_eq rfl rfl id) rfl)
        (hc.of_eq (.snoc rfl) id rfl fun _ => rfl) rfl

/-- What a round leaves of a request in its header. -/
lemma readHeader_outcome (hp : Parsing False c) (hclear : Clear c) (hc : c.Poised) (hcl : c.client = env.client) :
    Outcome env (c.readHeader env) := by
  have hscan := scanHeader_parsed env (c.clientStream.drop c.parsePos) hp hclear hc
  have hkeeps := scanHeader_scanClear env (c.clientStream.drop c.parsePos) hp hclear
  have hended := scanHeader_ended env hp (c.clientStream.drop c.parsePos)
  unfold readHeader
  generalize scanHeader env c (c.clientStream.drop c.parsePos) = r at hscan hkeeps hended
  obtain ⟨d, _ | ret⟩ := r
  · have hparsing := hended.1 rfl
    dsimp only
    rw [if_pos (show d.status < .bodyRead from hparsing.header)]
    obtain ⟨hpoised, hclient⟩ := hscan.goes rfl
    exact readMore_outcome hparsing (hkeeps.goes rfl) hpoised (hclient.trans hcl)
  · exact hscan.stops ret rfl

end Request
end Boa
