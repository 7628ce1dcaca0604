import Boa.Recycled

/-! The promise of `print_ka_phrase` to keep the connection: it stands in every response behind which
`free_request` keeps it. -/
namespace Boa
open Memory History

variable {env : Env} {c d : Request} {r : Range}

/-- What `print_ka_phrase` writes in front of its numbers. -/
def keepAlivePhrase : Bytes := text "Connection: Keep-Alive\r\nKeep-Alive: timeout="

lemma keepAlivePhrase_ne : keepAlivePhrase ≠ [] := by decide +kernel

/-- `print_ka_phrase` wrote that the connection is kept, and what it wrote is there in the response that
was produced. -/
def Promised (t : List Event) : Prop :=
  ∃ head tail, t = head ++ .queued keepAlivePhrase :: .kaPhrase true :: tail ∧
    produced head ++ keepAlivePhrase <+: produced t

/-- Nothing is taken back. -/
def Event.lasting : Event → Bool
  | .withdrawn _ => false
  | _ => true

lemma produced_grows {es : List Event} (t : List Event) (hes : ∀ e ∈ es, e.lasting) :
    produced t <+: produced (t ++ es) := by
  induction es using List.reverseRecOn with
  | nil => rw [List.append_nil]
  | append_singleton es e ih =>
    have ih := ih fun x hx => hes x (List.mem_append_left _ hx)
    have he := hes e (by simp)
    rw [← List.append_assoc, produced_snoc]
    refine ih.trans ?_
    cases e <;> first | exact List.prefix_append _ _ | exact List.prefix_refl _ | simp [Event.lasting] at he

lemma Promised.adds {t t' : List Event} (h : Promised t) (ha : Adds (fun e => e.lasting) t t') : Promised t' := by
  obtain ⟨es, rfl, hes⟩ := ha
  obtain ⟨head, tail, rfl, hp⟩ := h
  exact ⟨head, tail ++ es, by simp, hp.trans (produced_grows _ hes)⟩

/-- A response behind which the connection can be kept has promised that, to a client that gave its version. -/
def Request.Told (c : Request) : Prop :=
  c.keepalive = .active → 0 < c.kacount → c.responseStatus < 500 → c.responseStatus ≠ 0 →
    Promised c.trace ∧ c.httpVersion ≠ .http09

lemma Carries.told (h : Carries c d) (hc : c.Told) : d.Told := by
  obtain ⟨hcode, hka, hcount, -, -, hversion⟩ := h.fields
  intro h1 h2 h3 h4
  rw [hka] at h1
  rw [hcount] at h2
  rw [hcode] at h3 h4
  obtain ⟨hpromised, hv⟩ := hc h1 h2 h3 h4
  rw [hversion]
  refine ⟨hpromised.adds (h.adds.mono fun e he => ?_), hv⟩
  cases e <;> first | rfl | simp [Event.carries] at he

namespace Request

lemma told_of_stopped (h : c.keepalive = .stopped) : c.Told := by
  intro hactive
  rw [h] at hactive
  cases hactive

lemma msgEvents_lasting (ms : List Msg) : ∀ e ∈ msgEvents ms, e.lasting := by
  intro e he
  obtain ⟨m, -, he⟩ := List.mem_flatMap.mp he
  cases m with
  | raw bs =>
    have he : e ∈ if bs = [] then [] else [.queued bs] := he
    split_ifs at he
    · cases he
    · rw [List.mem_singleton.mp he]
      rfl
  | ka alive =>
    rw [List.mem_singleton.mp he]
    rfl
  | len n =>
    rw [List.mem_singleton.mp he]
    rfl
  | _ => cases he

/-- What a header leaves of the promise that is written within it. -/
lemma promised_msgEvents (t : List Event) {ms rest : List Msg}
    (h : .raw keepAlivePhrase :: .ka true :: rest <:+: ms) : Promised (t ++ msgEvents ms) := by
  obtain ⟨a, b, rfl⟩ := h
  have hfirst : Msg.events (.raw keepAlivePhrase) = [.queued keepAlivePhrase] := if_neg keepAlivePhrase_ne
  have hsplit : msgEvents (a ++ .raw keepAlivePhrase :: .ka true :: rest ++ b) =
      msgEvents a ++ .queued keepAlivePhrase :: .kaPhrase true :: (msgEvents rest ++ msgEvents b) := by
    rw [msgEvents_append, msgEvents_append]
    simp only [msgEvents, List.flatMap_cons, hfirst, List.append_assoc, List.cons_append, List.nil_append]
    rfl
  have hlasting : ∀ e ∈ .kaPhrase true :: (msgEvents rest ++ msgEvents b), e.lasting := by
    intro e he
    obtain rfl | he := List.mem_cons.mp he
    · rfl
    · obtain he | he := List.mem_append.mp he
      · exact msgEvents_lasting rest e he
      · exact msgEvents_lasting b e he
  rw [hsplit, ← List.append_assoc]
  refine ⟨_, _, rfl, ?_⟩
  have hhead : produced (t ++ msgEvents a ++ [.queued keepAlivePhrase]) =
      produced (t ++ msgEvents a) ++ keepAlivePhrase := produced_snoc _ _
  rw [List.append_cons, ← hhead]
  exact produced_grows _ hlasting

/-- A header with `print_http_headers` in it. -/
lemma writes_told (hb : c.toOut.BufOk) (hs : ¬ .done < c.status) {ms : List Msg} (hms : ∀ m ∈ ms, m.plain)
    (hroom : c.bufferEnd + (msgText ms).length ≤ bufferSize) (hka : c.printKaPhrase env <:+: ms)
    (hsober : c.httpVersion = .http09 → c.keepalive ≠ .active) : (c.writes ms).Told := by
  intro h1 h2 h3 h4
  refine ⟨?_, fun hv => hsober hv h1⟩
  have hkeep : c.keepsAlive = true := decide_eq_true ⟨h2, h1, h3⟩
  unfold printKaPhrase at hka
  rw [if_pos hkeep] at hka
  have htrace : (c.writes ms).trace = c.trace ++ msgEvents ms := Out.writes_events hb hs hms hroom
  rw [htrace]
  exact promised_msgEvents c.trace hka

lemma printKaPhrase_within (env : Env) (c : Request) (ms ms' : List Msg) :
    c.printKaPhrase env <:+: ms ++ c.printHttpHeaders env ++ ms' := by
  have hlast : c.printKaPhrase env <:+ c.printHttpHeaders env := List.suffix_append _ _
  exact (hlast.trans (List.suffix_append ms _)).isInfix.trans (List.prefix_append _ ms').isInfix

/-- The header of an empty file. -/
def emptyHead (env : Env) (c : Request) : List Msg :=
  c.statusLine " 204 NO CONTENT\r\n" ++ c.printHttpHeaders env ++ [.raw crlf]

lemma sendRRequestOk_told (env : Env) (hb : c.toOut.BufOk) (hs : ¬ .done < c.status) (h0 : c.bufferEnd = 0)
    (hsober : c.httpVersion = .http09 → c.keepalive ≠ .active) (hcgi : c.cgiType = .none) :
    (c.sendRRequestOk env).Told := by
  by_cases hv : c.httpVersion = .http09
  · unfold sendRRequestOk
    dsimp only
    rw [if_pos hv]
    exact fun h => absurd h (hsober hv)
  · let d : Request := { c with responseStatus := 200 }
    rw [sendRRequestOk_okHead env hv hcgi]
    exact @writes_told env d hb hs _ (okHead_plain env d) (head_room env d ⟨0, 0⟩ h0).1
      (printKaPhrase_within env d _ _) hsober

lemma sendRPartialContent_told (env : Env) (hb : c.toOut.BufOk) (hs : ¬ .done < c.status) (h0 : c.bufferEnd = 0)
    (hsober : c.httpVersion = .http09 → c.keepalive ≠ .active) (r : Range) : (c.sendRPartialContent env r).Told := by
  let d : Request := { c with responseStatus := 206 }
  refine @writes_told env d hb hs _ (partialHead_plain env d r) (head_room env d r h0).2 ?_ hsober
  have hhead := printKaPhrase_within env d (d.statusLine " 206 Partial Content\r\n") (d.printLastModified env)
  have hmore {ms : List Msg} (h : d.printKaPhrase env <:+: ms) (ms' : List Msg) : d.printKaPhrase env <:+: ms ++ ms' :=
    h.trans (List.prefix_append ms ms').isInfix
  exact hmore (hmore (hmore hhead _) _) _

lemma sendRNoContent_told (env : Env) (hb : c.toOut.BufOk) (hs : ¬ .done < c.status) (h0 : c.bufferEnd = 0)
    (hv : c.httpVersion ≠ .http09) (hcgi : c.cgiType = .none) : (c.sendRNoContent env).Told := by
  let d : Request := { c with responseStatus := 204 }
  have hline := @length_statusLine d " 204 NO CONTENT\r\n" 17 (length_text _).le
  have hhead := length_printHttpHeaders env d
  have hroom : c.bufferEnd + (msgText (d.emptyHead env)).length ≤ bufferSize := by
    have hlast : (msgText [.raw crlf]).length = 2 := rfl
    have hsize : bufferSize = 4096 := rfl
    unfold emptyHead
    rw [msgText_append, msgText_append, List.length_append, List.length_append]
    omega
  have hplain : ∀ m ∈ d.emptyHead env, m.plain := by
    intro m hm
    obtain hm | hm := List.mem_append.mp hm
    · exact (List.mem_append.mp hm).elim (plain_statusLine d _ m) (printHttpHeaders_plain env d m)
    · rw [List.mem_singleton.mp hm]
      rfl
  have he : c.sendRNoContent env = d.writes (d.emptyHead env) := by
    unfold sendRNoContent emptyHead
    dsimp only
    rw [if_neg hv, if_pos hcgi]
  rw [he]
  exact @writes_told env d hb hs _ hplain hroom (printKaPhrase_within env d _ _) fun h => absurd h hv

/-- `init_get` from the choice between a full and a partial response on. -/
lemma respond_told (env : Env) (h : c.AtHand) {f : File} (hpos : f.size ≠ 0) (hsize : c.filesize = f.size) :
    (c.respond env).1.Told := by
  rw [respond_eq hpos hsize]
  have hstart {e : Request} (he : e.Told) : (e.startTransfer env).1.Told := by
    obtain hcar | ⟨d, hd⟩ := startTransfer_carries env e
    · exact hcar.told he
    · exact told_of_stopped hd.closing.stopped
  cases c.ranges with
  | cons r rest => exact hstart (sendRPartialContent_told env h.toBufOk h.live h.empty h.sober r)
  | nil =>
    refine hstart ?_
    exact sendRRequestOk_told (c := { c with ranges := [⟨0, f.size - 1⟩] }) env h.toBufOk h.live h.empty h.sober h.noCgi

lemma serveRegular_told (env : Env) (h : c.Asked) (f : File) : (c.serveRegular env f).1.Told := by
  have hclosed {e : Request} (he : e.Told) : (e.log (.closed f.fd)).Told := (Carries.log e rfl).told he
  have hrefused {e d : Request} (he : Refused e d) : d.Told := told_of_stopped he.closing.stopped
  have hsize : ({ c with filesize := f.size, lastModified := f.mtime } : Request).Asked :=
    h.with_trace (.refl _) rfl rfl
  unfold serveRegular
  split_ifs with hnot
  · exact hclosed (hrefused (sendRNotModified_refused env c))
  · dsimp only
    split_ifs with hzero hversion hranges
    · refine hclosed (sendRNoContent_told env hsize.toBufOk hsize.not_done hsize.empty ?_ hsize.noCgi)
      show c.httpVersion ≠ .http09
      rw [hversion]
      decide
    · exact hclosed (sendRRequestOk_told env hsize.toBufOk hsize.not_done hsize.empty hsize.sober hsize.noCgi)
    · unfold rangesFixup
      dsimp only
      split_ifs
      · exact hclosed (hrefused (sendRInvalidRange_refused env _))
      · exact respond_told env (attachData_atHand env (hsize.fixed hzero) rfl fixupRanges_within) hzero
          (attachData_fields env _ f).2
    · have hnil : c.ranges = [] := not_not.mp hranges
      exact respond_told env (attachData_atHand env hsize rfl (by simp [hnil])) hzero (attachData_fields env _ f).2

lemma serveFile_told (env : Env) (h : c.Asked) (f : File) (path : Bytes) :
    (c.serveFile env f path).1.Told ∧ ¬ (c.serveFile env f path).1.status.piped := by
  have hserve : (c.log (.serve path)).Asked := h.noted (.log c (.serve path) rfl)
  have hunpiped : ¬ c.status.piped := by
    rw [h.status]
    decide
  unfold serveFile
  split_ifs
  · refine ⟨told_of_stopped (sendRBadRequest_refused env c).closing.stopped, fun hp => hunpiped ?_⟩
    exact (sendRBadRequest_refused env c).books.piped hp
  · exact ⟨serveRegular_told env hserve f, fun hp => hunpiped ((serveRegular_books env hserve.unmapped f).piped hp)⟩

/-- The header of a file that goes through gunzip. -/
lemma gunzipHeader_told (env : Env) (h : c.Asked) :
    (c.gunzipHeader env).Told ∧ ((c.gunzipHeader env).status = .write ∨ (c.gunzipHeader env).status = .dead) := by
  unfold gunzipHeader streamHeader
  dsimp only
  split_ifs with hv
  · exact ⟨fun hk => absurd hk (h.sober hv), .inl h.status⟩
  · let d : Request := { c with responseStatus := 200 }
    have hline := @length_statusLine d " 200 OK-GUNZIP\r\n" 16 (length_text _).le
    have hhead := length_printHttpHeaders env d
    have htype := length_printContentType env d
    have hmodified := length_printLastModified env d
    have hlast : (msgText [.raw crlf]).length = 2 := rfl
    have hsize : bufferSize = 4096 := rfl
    have h0 := h.empty
    generalize hms : d.statusLine " 200 OK-GUNZIP\r\n" ++ d.printHttpHeaders env ++
      (d.printContentType env ++ d.printLastModified env ++ [.raw crlf]) = ms
    have hroom : c.bufferEnd + (msgText ms).length ≤ bufferSize := by
      rw [← hms, msgText_append, msgText_append, msgText_append, msgText_append]
      simp only [List.length_append]
      omega
    have hplain : ∀ m ∈ ms, m.plain := by
      rw [← hms]
      intro m hm
      simp only [List.mem_append] at hm
      obtain (hm | hm) | ((hm | hm) | hm) := hm
      · exact plain_statusLine d _ m hm
      · exact printHttpHeaders_plain env d m hm
      · exact printContentType_plain env d m hm
      · rw [List.mem_singleton.mp hm]
        rfl
      · rw [List.mem_singleton.mp hm]
        rfl
    have hka : d.printKaPhrase env <:+: ms := by
      rw [← hms]
      exact printKaPhrase_within env d _ _
    have htold : (d.writes ms).Told := writes_told (c := d) h.toBufOk h.not_done hplain hroom hka h.sober
    have hwrote := Out.writes_wrote h.toBufOk h.not_done hplain hroom
    have hflush := reqFlush_carries (d.writes ms)
    refine ⟨hflush.told htold, ?_⟩
    have hr : Out.Replies (fun _ => False) (fun _ => False) (d.writes ms).toOut (d.writes ms).toOut.reqFlush.1 :=
      Out.reqFlush_replies _
    exact hr.status.imp (fun hs => hs.trans (hwrote.status.trans h.status)) id

/-- Whatever becomes of a header, what was answered tells the client how the connection goes on. -/
lemma Outcome.told {p : Request × Ret} (h : Outcome env p) (hno : ∀ r ∈ env.client, ¬ r.ends)
    (hover : p.2 = .done ∨ 6 ≤ p.1.status.rank) (hlive : p.1.status < .timedOut) :
    p.1.Told ∧ (p.1.status.piped → p.1.keepalive = .stopped) := by
  have hstopped {p : Request × Ret} (hk : p.1.keepalive = .stopped) :
      p.1.Told ∧ (p.1.status.piped → p.1.keepalive = .stopped) := ⟨told_of_stopped hk, fun _ => hk⟩
  cases h with
  | reads hr hd hin hbody hlow =>
    exact hover.elim (fun hdone => absurd hdone hr) fun hlate => absurd hlow (Nat.not_lt.mpr hlate)
  | quits hd hwhy =>
    obtain h0 | hdead := hwhy
    · exact ⟨fun _ _ _ hne => absurd h0 hne, fun hp => absurd hp hd.unpiped⟩
    · rw [hdead] at hlive
      exact absurd hlive not_live_dead
  | fails hd hends =>
    obtain ⟨r, hr, he⟩ := hends
    exact absurd he (hno r hr)
  | closing hd hp hlate => exact hstopped hp.stopped
  | file hd f path =>
    obtain ⟨htold, hunpiped⟩ := serveFile_told env hd f path
    exact ⟨htold, fun hp => absurd hp hunpiped⟩
  | gunzip hd gz hm => exact hstopped (initCgi_closing env _).stopped
  | @gunzipHead d hd hm =>
    obtain ⟨htold, hst⟩ := gunzipHeader_told env hd
    refine ⟨htold, fun hp => absurd hp ?_⟩
    obtain hst | hst := hst <;> rw [hst] <;> decide

/-! ### Rounds -/

/-- A connection between two rounds: what is known of its header, and what its response has told. -/
structure Promising (c : Request) : Prop where
  clear : c.status.rank < 6 → Clear c
  header : c.status.inHeader → c.Poised
  told : 6 ≤ c.status.rank → c.status < .timedOut → c.Told
  piped : c.status.piped → c.keepalive = .stopped

lemma Promising.of_stopped (hlate : 6 ≤ c.status.rank) (hk : c.keepalive = .stopped) : c.Promising :=
  ⟨fun hlt => absurd hlate (by omega), fun hin => absurd (Status.inHeader_iff.mp hin) (by omega),
    fun _ _ => told_of_stopped hk, fun _ => hk⟩

lemma Promising.of_told (hlate : 6 ≤ c.status.rank) (ht : c.status < .timedOut → c.Told)
    (hp : c.status.piped → c.keepalive = .stopped) : c.Promising :=
  ⟨fun hlt => absurd hlate (by omega), fun hin => absurd (Status.inHeader_iff.mp hin) (by omega), fun _ => ht, hp⟩

/-- What a round leaves: told, or to be told. -/
def Tells (p : Request × Ret) : Prop :=
  (p.2 = .done → p.1.status < .timedOut → p.1.Told) ∧ (p.2 ≠ .done → p.1.Promising)

lemma Tells.of_stopped {p : Request × Ret} (hk : p.1.keepalive = .stopped) (hlate : p.2 ≠ .done → 6 ≤ p.1.status.rank) :
    Tells p := ⟨fun _ _ => told_of_stopped hk, fun hr => .of_stopped (hlate hr) hk⟩

/-- A round that sends what was answered. -/
lemma Tells.of_carries {p : Request × Ret} (h : Carries c p.1) (ht : c.status < .timedOut → c.Told)
    (hl : c.status < .timedOut) (hp : c.status.piped → c.keepalive = .stopped) (hlate : 6 ≤ p.1.status.rank) : Tells p := by
  have htold : p.1.Told := h.told (ht hl)
  refine ⟨fun _ _ => htold, fun _ => .of_told hlate (fun _ => htold) fun hpiped => ?_⟩
  rw [h.fields.2.1]
  exact hp (h.piped hpiped)

/-- A round that only moves the body of a POST. -/
lemma Tells.of_body {ret : Ret} (hr : ret ≠ .done) (h : Clear c) (hs : c.status = .bodyRead ∨ c.status = .bodyWrite) :
    Tells (c, ret) := by
  refine ⟨fun hdone => absurd hdone hr, fun _ =>
    ⟨fun _ => h, fun hin => ?_, fun hlate => ?_, fun hp => absurd hp h.unpiped⟩⟩
  · have hin : c.status.inHeader := hin
    obtain hs | hs := hs <;> rw [hs] at hin <;> exact absurd hin (by decide)
  · have hlate : 6 ≤ c.status.rank := hlate
    obtain hs | hs := hs <;> rw [hs] at hlate <;> exact absurd hlate (by decide)

lemma readBody_tells (env : Env) (h : Clear c) (hs : c.status = .bodyRead) : Tells (c.readBody env) := by
  have hwrite (d : Request) (hd : Clear d) : Clear { d with status := .bodyWrite } :=
    hd.books (.setStatus d (show ¬ Status.bodyWrite.piped by decide)) rfl
  have hpop : Clear c.popClient := h.books (.of_eq rfl rfl id) rfl
  have hrefused {d e : Request} (hd : Refused d e) : Tells (e, .done) :=
    .of_stopped hd.closing.stopped fun hr => absurd rfl hr
  have herror : Tells ({ c.popClient.boaPerror env with responseStatus := 400 }, .done) :=
    .of_stopped (sendRError_refused env c.popClient).closing.stopped fun hr => absurd rfl hr
  unfold readBody
  dsimp only
  split_ifs
  · exact .of_body (by simp) (hwrite c h) (.inr rfl)
  · split
    · exact .of_body (by simp) hpop (.inl hs)
    · exact herror
    · exact herror
    · exact hrefused (sendRBadRequest_refused env _)
    · next bs _ =>
      exact .of_body (by simp) ((hwrite _ (storeAtEnd_clear hpop bs)).books (.of_eq rfl rfl id) rfl) (.inr rfl)

/-- The body of a POST is answered by a child, or by an error. -/
lemma writeBody_tells (env : Env) (h : Clear c) (hs : c.status = .bodyWrite) : Tells (c.writeBody env) := by
  have hreset : Clear { c with headerLine := ⟨.buffer, 0⟩, headerEnd := ⟨.buffer, 0⟩ } :=
    h.books (.of_eq rfl rfl id) rfl
  have hpop : Clear { c with post := c.post.tail } := h.books (.of_eq rfl rfl id) rfl
  unfold writeBody
  dsimp only
  split_ifs
  · refine .of_stopped (initCgi_closing env _).stopped fun hr => ?_
    rw [initCgi_more hr]
    decide
  · exact .of_body (by simp) (hreset.books (.setStatus _ (show ¬ Status.bodyRead.piped by decide)) rfl) (.inl rfl)
  · split
    · exact .of_body (by simp) hpop (.inr hs)
    · exact .of_body (by simp) hpop (.inr hs)
    · exact .of_stopped (sendRError_refused env _).closing.stopped fun hr => absurd rfl hr
    · next n _ =>
      exact .of_body (by simp) ((hpop.log (e := .posted _) ⟨rfl, rfl⟩).books (.of_eq rfl rfl id) rfl) (.inr hs)

/-- A round on a response that is under way. -/
lemma handle_tells (env : Env) (hlate : 6 ≤ c.status.rank) (hl : c.status < .timedOut) (ht : c.Told)
    (hp : c.status.piped → c.keepalive = .stopped) : Tells (c.handle env) := by
  have hlater : Later c (c.handle env).1 := handle_later (fun hin => absurd (Status.inHeader_iff.mp hin) (by omega))
    fun hb => by
      rw [hb] at hlate
      exact absurd hlate (by decide)
  have hrank := hlater.late hlate
  have hidle := hlater.idle
  unfold handle at hrank hidle ⊢
  cases hs : c.status with
  | readHeader => simp [hs, Status.rank] at hlate
  | oneCr => simp [hs, Status.rank] at hlate
  | oneLf => simp [hs, Status.rank] at hlate
  | twoCr => simp [hs, Status.rank] at hlate
  | bodyRead => simp [hs, Status.rank] at hlate
  | bodyWrite => simp [hs, Status.rank] at hlate
  | write =>
    rw [hs] at hrank
    exact .of_carries (processGet_carries env c) (fun _ => ht) hl hp hrank
  | pipeRead =>
    rw [hs] at hrank hidle
    refine .of_stopped ?_ fun _ => hrank
    exact hidle.elim (fun hk => hk.trans (hp (.inl hs))) id
  | pipeWrite =>
    rw [hs] at hrank hidle
    refine .of_stopped ?_ fun _ => hrank
    exact hidle.elim (fun hk => hk.trans (hp (.inr hs))) id
  | ioShuffle =>
    rw [hs] at hrank
    dsimp only at hrank ⊢
    split_ifs at hrank ⊢
    · exact .of_carries (ioShuffleSendfile_carries env c) (fun _ => ht) hl hp hrank
    · exact .of_carries (ioShuffle_carries env c) (fun _ => ht) hl hp hrank
  | done =>
    rw [hs] at hrank
    exact .of_carries (processDone_carries c) (fun _ => ht) hl hp hrank
  | timedOut => simp [hs, Status.lt_def, Status.rank] at hl
  | dead => simp [hs, Status.lt_def, Status.rank] at hl

/-- One round. -/
lemma serveOnce_tells (hw : Whole False c) (h : c.Promising) (hno : c.status.inHeader → ∀ r ∈ env.client, ¬ r.ends) :
    Tells (c.serveOnce env) := by
  have hclear (hlt : c.status.rank < 6) : Clear (c.arm env) := (h.clear hlt).books (.of_eq rfl rfl id) rfl
  obtain ⟨hhead, hp, he⟩ | ⟨hout, -⟩ := serveOnce_cases env hw
  · have hin := Status.inHeader_iff.mp hhead
    have hpoised : (c.arm env).Poised := (h.header hhead).of_eq (.refl _) id rfl fun _ => rfl
    have hanswered := readHeader_answered env hp (hclear (by omega))
    have houtcome := @readHeader_outcome env _ hp (hclear (by omega)) hpoised rfl
    rw [he]
    refine ⟨fun hr hl => (houtcome.told (hno hhead) (.inl hr) hl).1, fun hr => ⟨hanswered.clear hr,
      fun hin => houtcome.header hr hin, fun hlate hl => (houtcome.told (hno hhead) (.inr hlate) hl).1, fun hp => ?_⟩⟩
    have hlate : 6 ≤ ((c.arm env).readHeader env).1.status.rank ∧
        ((c.arm env).readHeader env).1.status < .timedOut := by
      obtain hp | hp := hp <;> rw [hp] <;> decide
    exact (houtcome.told (hno hhead) (.inr hlate.1) hlate.2).2 hp
  by_cases hlive : c.status < .timedOut
  · by_cases hlate : 6 ≤ c.status.rank
    · have htold : (c.arm env).Told := h.told hlate hlive
      have hpiped : (c.arm env).status.piped → (c.arm env).keepalive = .stopped := h.piped
      have hcarries := flushFirst_carries (c.arm env)
      have hrank := (flushFirst_later (c.arm env)).late hlate
      obtain ⟨-, hmore⟩ := flushFirst_ended (hw.live hlive env False.elim) hlive
      unfold serveOnce
      generalize (c.arm env).flushFirst = r at hcarries hrank hmore
      obtain ⟨d, ret⟩ := r
      cases ret with
      | blocked => exact .of_carries hcarries (fun _ => htold) hlive hpiped hrank
      | done => exact .of_carries hcarries (fun _ => htold) hlive hpiped hrank
      | more =>
        have hst : d.status = c.status := (hmore rfl).1
        refine handle_tells env hrank (hst ▸ hlive) (hcarries.told htold) fun hp => ?_
        rw [hcarries.fields.2.1]
        exact hpiped (hcarries.piped hp)
    · have hlt : c.status.rank < 6 := by omega
      have hstatus : c.status = .bodyRead ∨ c.status = .bodyWrite := by
        revert hout hlt
        cases c.status <;> decide
      have hempty : c.bufferEnd = 0 := (hw.live hlive env False.elim).early hlt
      rw [serveOnce_of_empty hempty]
      unfold handle
      obtain hs | hs := hstatus
      · rw [show (c.arm env).status = .bodyRead from hs]
        exact readBody_tells env (hclear hlt) hs
      · rw [show (c.arm env).status = .bodyWrite from hs]
        exact writeBody_tells env (hclear hlt) hs
  · rw [serveOnce_dead hlive]
    exact .of_stopped rfl fun hr => absurd rfl hr

end Request

/-- The runs in which the client stays while its headers are read, and its socket does not fail then. -/
def Attentive : Label → Request → Prop
  | .pass env, c => c.status.inHeader → ∀ r ∈ env.client, ¬ r.ends
  | _, _ => True

open Request in
/-- How the promise is kept up. -/
lemma promising_rule : RoundRule Attentive Promising fun c => c.status < .timedOut → c.Told where
  fresh o l hs ht := by
    have hlow : ¬ 6 ≤ o.status.rank := by
      rw [hs]
      decide
    refine ⟨fun _ => clear_fresh ht rfl rfl hs, fun _ => ?_, fun hlate => absurd hlate hlow, fun hp => ?_⟩
    · exact poised_fresh ht rfl rfl rfl rfl (show KaStatus.inactive ≠ .active by decide)
    · have hp : o.status.piped := hp
      rw [hs] at hp
      exact absurd hp (by decide)
  excess ht hr := .of_stopped (show 6 ≤ Status.done.rank by decide) hr.closing.stopped
  heed env c h := by
    unfold heedSigterm
    split_ifs
    · refine ⟨fun hlt => (h.clear hlt).books (.of_eq rfl rfl id) rfl, fun hin => (h.header hin).squashed,
        fun _ _ => told_of_stopped rfl, fun _ => rfl⟩
    · exact h
  heedDone env c h := by
    unfold heedSigterm
    split_ifs
    · exact fun _ => told_of_stopped rfl
    · exact h
  serve hr hP h := serveOnce_tells ((reach_whole (S := False) False.elim hr).1 (by simp)) h hP
  finish {c} h hl hs := by
    have hcarries : Carries c { c with toOut := { c.toOut with status := .done }.reqFlush.1 } :=
      (Carries.setStatus c not_piped_done).trans (reqFlush_carries { c with toOut := { c.toOut with status := .done } })
    have hst : ({ c with toOut := { c.toOut with status := .done }.reqFlush.1 } : Request).status = .done := hs
    refine .of_told ?_ (fun _ => hcarries.told (h hl)) fun hp => ?_
    · rw [hst]
      decide
    · rw [hst] at hp
      exact absurd hp not_piped_done
  wake {c} w hP h := by
    cases w with
    | ready => exact h
    | timedOut =>
      exact .of_told (show 6 ≤ Status.timedOut.rank by decide)
        (fun hl => absurd hl (show ¬ Status.timedOut < .timedOut by decide))
        fun hp => absurd hp (show ¬ Status.timedOut.piped by decide)
    | dead =>
      exact .of_told (show 6 ≤ Status.dead.rank by decide) (fun hl => absurd hl not_live_dead)
        fun hp => absurd hp not_piped_dead

/-- No connection is kept in silence: the response that was produced for a request behind which the
connection was kept has the promise in it, whatever happened to its body. A last flush that finds the
socket full can lose all of it. -/
theorem kept_promised {p : Place} (h : Reach Attentive c p) : ∀ t ∈ c.past, Promised t := by
  refine h.past_rule fun {env d} hr hP hdone hkept t ht => ?_
  have hw := (reach_whole (S := False) False.elim hr).1 (by simp)
  obtain ⟨htold, -⟩ := Request.serveOnce_tells hw (promising_rule.reach hr (by simp)) hP
  obtain ⟨hlive, hactive, hcode, hne, hcount⟩ := processRequest_kept hdone hkept
  refine (htold hdone hlive hactive hcount hcode hne).1.adds (ht.mono fun e he => ?_)
  cases e <;> first | rfl | simp [Event.parting, Out.Reply, Event.isNote] at he

/-- A connection that waits for its second request has been promised to be kept. -/
theorem kept_promised_get : ((receivedBy keptClient).processRequest roomyEnv).1.past.length = 1 ∧
    (∀ t ∈ ((receivedBy keptClient).processRequest roomyEnv).1.past, sentBytes t = produced t ∧ t ≠ []) ∧
    ∀ t ∈ ((receivedBy keptClient).processRequest roomyEnv).1.past, Promised t := by
  have hstart : Reach Attentive (Request.getRequest tinyEnv tinyPeer {}) .ready := .accept tinyEnv tinyPeer {} trivial
  have hstays : ∀ r ∈ keptClient.client, ¬ r.ends := by
    intro r hr
    rw [List.mem_singleton.mp hr]
    decide +kernel
  have hread := Reach.pass keptClient hstart fun _ => hstays
  have hready : ((Request.getRequest tinyEnv tinyPeer {}).processRequest keptClient).2 = .ready := by
    decide +kernel
  rw [hready] at hread
  have hpass := Reach.pass roomyEnv hread fun _ r hr => absurd hr List.not_mem_nil
  exact ⟨by decide +kernel, by decide +kernel, kept_promised hpass⟩

end Boa
