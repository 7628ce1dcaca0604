import Boa.Once
import Boa.Stream

/-! Requests that arrive together: which bytes a blocked request has not looked at. -/
namespace Boa
open Memory History

/-- If what was received completes the header block, it ends with it. -/
def Request.EndsExactly (c : Request) : Prop :=
  ∀ k, ((c.clientStream.drop c.parsePos).take k).foldl nextStatus c.status = .bodyRead →
    c.clientStream.length - c.parsePos ≤ k

/-- The runs in which nothing is received behind a header block, but for the last request
that the connection may carry. -/
def Unpipelined : Label → Request → Prop
  | .pass _, c => c.status.inHeader → 0 < c.kacount → c.EndsExactly
  | _, _ => True

/-- All that was received was parsed, or the connection is not kept. -/
def Request.Spent (c : Request) : Prop :=
  c.clientStream.length ≤ c.parsePos ∨ c.keepalive ≠ .active ∨ c.kacount = 0

/-- In the header nothing is answered, and keep-alive comes with the request line. -/
structure Heading (c : Request) : Prop where
  pos : c.parsePos ≤ c.clientStream.length
  unanswered : c.responseStatus = 0
  idle : c.logline = false → c.keepalive ≠ .active

section Steps

variable {env : Env} {c d : Request} {uc : UInt8} {r : Option Ret}

lemma Refused.spent (h : Refused c d) : d.Spent := by
  obtain ⟨o, code, rfl, -⟩ := h
  exact .inr (.inl nofun)

lemma LoglineOf.sizes (h : LoglineOf c d) : d.clientStream = c.clientStream ∧ d.parsePos = c.parsePos ∧
    d.responseStatus = c.responseStatus ∧ d.logline = true ∧ d.bufferStart = c.bufferStart ∧
    (d.httpVersion = .http09 → d.keepalive = c.keepalive) := by
  obtain ⟨_, v, _, _, _, _, rfl, hv⟩ := h
  exact ⟨rfl, rfl, rfl, rfl, rfl, hv⟩

lemma OptionOf.sizes (h : OptionOf c d) : d.clientStream = c.clientStream ∧ d.parsePos = c.parsePos ∧
    d.responseStatus = c.responseStatus ∧ d.logline = c.logline ∧ d.bufferEnd = c.bufferEnd := by
  obtain ⟨_, _, _, _, _, _, _, _, _, _, _, _, rfl⟩ := h
  exact ⟨rfl, rfl, rfl, rfl, rfl⟩

lemma processHeaderEnd_spent (env : Env) (h0 : c.bufferStart = 0)
    (h : c.clientStream.length ≤ c.parsePos ∨ c.keepalive ≠ .active ∨ c.kacount = 0) :
    (c.processHeaderEnd env).1.Spent := by
  have hc := Request.processHeaderEnd_concluded (S := False) env c h0
  obtain ⟨hk, hs, -, -, -, -, -, hp⟩ := Request.of_kept (Request.of_fixed hc.fixed).1
  have hs : (c.processHeaderEnd env).1.clientStream = c.clientStream := hs
  have hp : (c.processHeaderEnd env).1.parsePos = c.parsePos := hp
  have hk : (c.processHeaderEnd env).1.kacount = c.kacount := hk
  obtain h | h | h := h
  · left
    rw [hs, hp]
    exact h
  · right; left
    obtain hi | hi := hc.idle
    · rw [hi]
      exact h
    · rw [hi]
      exact nofun
  · right; right
    rw [hk]
    exact h

open Request in
/-- A POST that got its temporary file has not answered yet. -/
lemma dispatchUri_unanswered (env : Env) (h0 : c.bufferStart = 0) (hr : (c.dispatchUri env).2 ≠ .done)
    (hpost : (c.dispatchUri env).1.method = .post) :
    (c.dispatchUri env).1.responseStatus = c.responseStatus := by
  revert hr hpost
  unfold dispatchUri
  obtain ⟨hok, hl⟩ | ⟨hok, d, hl, href⟩ := translateUri_translated env c
  · generalize c.translateUri env = t at hok hl
    obtain ⟨d, ok⟩ := t
    obtain rfl : ok = true := hok
    have hl : Located c d := hl
    have hsame : d.responseStatus = c.responseStatus ∧ d.bufferStart = c.bufferStart := by
      obtain ⟨_, _, _, _, _, _, rfl, -⟩ := hl
      exact ⟨rfl, rfl⟩
    dsimp only
    split_ifs with hm hc
    · unfold openPostFile setPostDataFd
      dsimp only
      split_ifs <;> first | exact fun hn => absurd rfl hn | exact fun _ _ => hsame.1
    · intro _ hp
      have hfixed := (initCgi_effect (S := False) env d).fixed
      exact absurd ((of_kept (of_fixed hfixed).1).2.2.2.1.symm.trans hp) hm
    · intro _ hp
      have hfixed := (initGet_effect (S := False) env { d with status := .write } (hsame.2.trans h0)).fixed
      exact absurd ((of_kept (of_fixed hfixed).1).2.2.2.1.symm.trans hp) hm
  · generalize c.translateUri env = t at hok href
    obtain ⟨e, ok⟩ := t
    obtain rfl : ok = false := hok
    exact fun hr => absurd rfl hr

open Request in
/-- An HTTP/0.9 POST goes on in the header, and has not answered yet. -/
lemma processHeaderEnd_unanswered (env : Env) (h0 : c.bufferStart = 0)
    (hr : (c.processHeaderEnd env).2 ≠ .done) (hin : (c.processHeaderEnd env).1.status.inHeader) :
    (c.processHeaderEnd env).1.responseStatus = c.responseStatus := by
  have hpost : (c.processHeaderEnd env).1.method = .post := by
    obtain ⟨h6, -⟩ | ⟨-, hm, -⟩ := (processHeaderEnd_concluded (S := False) env c h0).next hr
    · exact absurd (Status.inHeader_iff.mp hin) (by omega)
    · exact hm
  revert hr hpost
  unfold processHeaderEnd
  obtain ⟨uri, query, host, he | ⟨d, he, -⟩⟩ := acceptUri_cases env (c.log .headerEnd)
  · rw [he]
    dsimp only
    have hsame : ({ c.log .headerEnd with requestUri := uri, queryString := query, host := host } :
      Request).responseStatus = c.responseStatus := rfl
    have hstart : ({ c.log .headerEnd with requestUri := uri, queryString := query, host := host } :
      Request).bufferStart = 0 := h0
    generalize ({ c.log .headerEnd with requestUri := uri, queryString := query, host := host } :
      Request) = e at hsame hstart
    intro hr hpost
    exact (dispatchUri_unanswered env hstart hr hpost).trans hsame
  · rw [he]
    exact fun hr => absurd rfl hr

/-- A byte that the parser goes on from. -/
lemma ByteStep.heading (h : ByteStep env c uc d none) (hc : Heading c)
    (hpos : c.parsePos < c.clientStream.length) :
    Heading d ∧ d.clientStream.length = c.clientStream.length ∧ d.parsePos = c.parsePos + 1 ∧
      d.kacount = c.kacount := by
  have hset : (c.advance uc).terminateLine.clientStream.length = c.clientStream.length := List.length_set
  cases h with
  | skip hi h1 h2 => exact ⟨⟨hpos, hc.unanswered, hc.idle⟩, rfl, rfl, rfl⟩
  | @option d hi hs hl hd hcount =>
    obtain ⟨h1, h2, h3, h4, -⟩ := hd.sizes
    have h1 : d.startLine.clientStream.length = c.clientStream.length := (congrArg List.length h1).trans hset
    have hka : d.kacount = c.kacount := by
      obtain ⟨_, _, _, _, _, _, _, _, _, _, _, _, rfl⟩ := hd
      rfl
    refine ⟨⟨?_, h3.trans hc.unanswered, fun hn => ?_⟩, h1, h2, hka⟩
    · rw [h1]
      exact h2.trans_le hpos
    · exact absurd ((hl.symm.trans h4.symm).trans hn) nofun
  | @logline d hi hs hl hd hv =>
    obtain ⟨h1, h2, h3, h4, -⟩ := hd.sizes
    have h1 : d.startLine.clientStream.length = c.clientStream.length := (congrArg List.length h1).trans hset
    have hka : d.kacount = c.kacount := by
      obtain ⟨_, _, _, _, _, _, rfl, -⟩ := hd
      rfl
    refine ⟨⟨?_, h3.trans hc.unanswered, fun hn => ?_⟩, h1, h2, hka⟩
    · rw [h1]
      exact h2.trans_le hpos
    · exact absurd (h4.symm.trans hn) nofun

/-- What a request must be like when the parser is through with it. -/
def Through (r : Request × Ret) : Prop :=
  (r.2 = .done → r.1.Spent ∨ (r.1.responseStatus = 0 ∧ r.1.bufferEnd = 0)) ∧
  (r.2 ≠ .done → (r.1.status.inHeader → Heading r.1) ∧ (¬ r.1.status.inHeader → r.1.Spent))

open Request in
lemma ByteStep.through {ret : Ret} (h : ByteStep env c uc d (some ret)) (hc : Heading c)
    (hp : Parsing False c) (hpos : c.parsePos < c.clientStream.length)
    (hex : (c.advance uc).status = .bodyRead → 0 < c.kacount → c.clientStream.length ≤ c.parsePos + 1) :
    Through (d, ret) := by
  have hrefuse : ∀ {e d : Request}, Refused e d → Through (d, .done) := fun hd =>
    ⟨fun _ => .inl hd.spent, fun hn => absurd rfl hn⟩
  cases h with
  | illegal hi hd => exact hrefuse hd
  | tooLong hi hs hl hd => exact hrefuse hd
  | loglineStop hi hs hl hd he => exact hrefuse he
  | optionStop hi hs hl hd =>
    obtain ⟨e, he, ⟨rfl, -⟩ | ⟨-, hr⟩⟩ := hd
    · obtain ⟨-, -, h3, -, h5⟩ := he.sizes
      exact ⟨fun _ => .inr ⟨h3.trans hc.unanswered, h5.trans hp.empty⟩, fun hn => absurd rfl hn⟩
    · exact hrefuse hr
  | @short d hi hs hl hd hv =>
    obtain ⟨h1, h2, h3, h4, h5, h6⟩ := hd.sizes
    have hstart : d.bufferStart = 0 := h5.trans hp.start
    have hidle : d.keepalive ≠ .active := by
      rw [h6 hv]
      exact hc.idle hl
    have hspent := processHeaderEnd_spent env hstart (.inr (.inl hidle))
    refine ⟨fun _ => .inl hspent, fun hr => ⟨fun hin => ⟨?_, ?_, fun hn => ?_⟩, fun _ => hspent⟩⟩
    · obtain ⟨-, hstream, -, -, -, -, -, hparse⟩ := of_kept (of_fixed
        (processHeaderEnd_concluded (S := False) env d hstart).fixed).1
      have hlen : (d.processHeaderEnd env).1.clientStream.length = c.clientStream.length :=
        (congrArg List.length (Eq.trans hstream h1)).trans List.length_set
      have hparse : (d.processHeaderEnd env).1.parsePos = c.parsePos + 1 := Eq.trans hparse h2
      rw [hlen, hparse]
      exact hpos
    · exact ((processHeaderEnd_unanswered env hstart hr hin).trans h3).trans hc.unanswered
    · obtain ⟨-, -, -, -, -, -, hlog, -⟩ := of_kept (of_fixed
        (processHeaderEnd_concluded (S := False) env d hstart).fixed).1
      exact absurd ((Eq.trans hlog h4).symm.trans hn) nofun
  | finish hi hs =>
    have hspent : ((c.advance uc).processHeaderEnd env).1.Spent := by
      refine processHeaderEnd_spent env hp.start ?_
      obtain hz | hz := Nat.eq_zero_or_pos c.kacount
      · exact .inr (.inr hz)
      · exact .inl (hex hs hz)
    have hconc := processHeaderEnd_concluded (S := False) env (c.advance uc) hp.start
    obtain ⟨hm, he⟩ | ⟨hdone, he⟩ | ⟨hmore, hm, he⟩ := endHeader_cases env (c.advance uc)
    · rw [he]
      refine ⟨fun _ => .inl hspent, fun hn => ⟨fun hin => ?_, fun _ => hspent⟩⟩
      obtain ⟨hrank, -⟩ | ⟨-, hpost, -⟩ := hconc.next hn
      · exact absurd hrank (Nat.not_le_of_lt (Nat.lt_of_lt_of_le (Status.inHeader_iff.mp hin) (by decide)))
      · exact absurd hpost hm
    · rw [he]
      exact ⟨fun _ => .inl hspent, fun hn => absurd hdone hn⟩
    · rw [he]
      obtain ⟨_, _, _, _, hb | ⟨e, hb, href⟩⟩ := startBody_cases env ((c.advance uc).processHeaderEnd env).1
      · rw [hb]
        refine ⟨fun hd => absurd hd nofun, fun _ => ⟨fun hin => ?_, fun _ => hspent⟩⟩
        exact absurd hin (show ¬ Status.bodyWrite.inHeader by decide)
      · rw [hb]
        exact hrefuse href

open Request in
/-- The loop of `read_header`. -/
lemma scanHeader_through (env : Env) (bs : Bytes) {c : Request} (hc : Heading c) (hp : Parsing False c)
    (hlen : c.parsePos + bs.length = c.clientStream.length)
    (hex : 0 < c.kacount → ∀ k, (bs.take k).foldl nextStatus c.status = .bodyRead → bs.length ≤ k) :
    ((scanHeader env c bs).2 = none → Heading (scanHeader env c bs).1 ∧
      (scanHeader env c bs).1.parsePos = (scanHeader env c bs).1.clientStream.length) ∧
    ∀ ret, (scanHeader env c bs).2 = some ret → Through ((scanHeader env c bs).1, ret) := by
  induction bs generalizing c with
  | nil => exact ⟨fun _ => ⟨hc, hlen⟩, by simp [scanHeader]⟩
  | cons uc bs ih =>
    rw [List.length_cons] at hlen
    have hpos : c.parsePos < c.clientStream.length := by omega
    have hstep := headerByte_step env c uc
    have hended := hstep.ended hp
    unfold scanHeader
    generalize c.headerByte env uc = r at hstep hended
    obtain ⟨d, _ | ret⟩ := r
    · obtain ⟨hd, h1, h2, h3⟩ := hstep.heading hc hpos
      dsimp only at h1 h2 h3
      have hlen' : d.parsePos + bs.length = d.clientStream.length := by omega
      refine ih hd (hended.1 rfl) hlen' fun hk k hf => ?_
      have hnext := hex (h3 ▸ hk) (k + 1) (by rw [hstep.status] at hf; exact hf)
      rw [List.length_cons] at hnext
      omega
    · refine ⟨by simp, fun ret' hr => ?_⟩
      obtain rfl : ret = ret' := Option.some.inj hr
      refine hstep.through hc hp hpos fun hb hk => ?_
      have hone := hex hk 1 hb
      rw [List.length_cons] at hone
      omega

open Request in
/-- The parser does not block in the middle of what was received. -/
lemma ByteStep.blocked (h : ByteStep env c uc d (some .blocked)) (hp : Parsing False c) :
    ¬ d.status.inHeader := by
  have hnext : ∀ e : Request, e.bufferStart = 0 → (e.processHeaderEnd env).2 = .blocked →
      ¬ (e.processHeaderEnd env).1.status.inHeader := by
    intro e h0 hb hin
    obtain ⟨h6, -⟩ | ⟨hm, -⟩ := (processHeaderEnd_concluded (S := False) env e h0).next (by rw [hb]; exact nofun)
    · exact absurd (Status.inHeader_iff.mp hin) (by omega)
    · rw [hb] at hm
      exact absurd hm nofun
  generalize hr : some Ret.blocked = r at h
  cases h with
  | illegal => exact absurd hr nofun
  | skip => exact absurd hr nofun
  | tooLong => exact absurd hr nofun
  | option => exact absurd hr nofun
  | optionStop => exact absurd hr nofun
  | logline => exact absurd hr nofun
  | loglineStop => exact absurd hr nofun
  | @short d hi hs hl hd hv =>
    exact hnext d (hd.sizes.2.2.2.2.1.trans hp.start) (Option.some.inj hr).symm
  | finish hi hs =>
    have hr := (Option.some.inj hr).symm
    obtain ⟨hm, he⟩ | ⟨hdone, he⟩ | ⟨hmore, hm, he⟩ := endHeader_cases env (c.advance uc)
    · rw [he] at hr ⊢
      exact hnext _ hp.start hr
    · rw [he] at hr ⊢
      exact hnext _ hp.start hr
    · rw [he] at hr
      obtain ⟨_, _, _, _, hb | ⟨e, hb, href⟩⟩ := startBody_cases env ((c.advance uc).processHeaderEnd env).1
      · rw [hb] at hr
        exact absurd hr nofun
      · rw [hb] at hr
        exact absurd hr nofun

open Request in
lemma scanHeader_blocked (env : Env) (bs : Bytes) {c : Request} (hp : Parsing False c)
    (hb : (scanHeader env c bs).2 = some .blocked) : ¬ (scanHeader env c bs).1.status.inHeader := by
  induction bs generalizing c with
  | nil => exact absurd hb nofun
  | cons uc bs ih =>
    have hstep := headerByte_step env c uc
    have hended := hstep.ended hp
    unfold scanHeader at hb ⊢
    generalize c.headerByte env uc = r at hstep hended hb ⊢
    obtain ⟨d, _ | ret⟩ := r
    · exact ih (hended.1 rfl) hb
    · obtain rfl : ret = .blocked := Option.some.inj hb
      exact hstep.blocked hp

/-- `read` on the client socket, with everything parsed that was received. -/
lemma readMore_through (hc : Heading c) (hp : Parsing False c) (hpos : c.parsePos = c.clientStream.length) :
    Through c.readMore ∧ (c.readMore.2 = .blocked → c.readMore.1.parsePos = c.readMore.1.clientStream.length) := by
  have hspent : c.Spent := .inl hpos.ge
  unfold Request.readMore
  dsimp only
  split_ifs
  · exact ⟨⟨fun _ => .inl (.inl hpos.ge), fun hn => absurd rfl hn⟩, fun hb => absurd hb nofun⟩
  · split
    · exact ⟨⟨fun hd => absurd hd nofun, fun _ => ⟨fun _ => ⟨hc.pos, hc.unanswered, hc.idle⟩, fun _ => hspent⟩⟩,
        fun _ => hpos⟩
    · exact ⟨⟨fun hd => absurd hd nofun, fun _ => ⟨fun _ => ⟨hc.pos, hc.unanswered, hc.idle⟩, fun _ => hspent⟩⟩,
        fun hb => absurd hb nofun⟩
    · exact ⟨⟨fun _ => .inl (.inl hpos.ge), fun hn => absurd rfl hn⟩, fun hb => absurd hb nofun⟩
    · exact ⟨⟨fun _ => .inl (.inl hpos.ge), fun hn => absurd rfl hn⟩, fun hb => absurd hb nofun⟩
    · next bs _ =>
      refine ⟨⟨fun hd => absurd hd nofun, fun _ => ⟨fun _ => ⟨?_, hc.unanswered, hc.idle⟩, fun hin => ?_⟩⟩,
        fun hb => absurd hb nofun⟩
      · show c.parsePos ≤ (c.clientStream ++ bs).length
        rw [List.length_append]
        omega
      · exact absurd hp.header hin

open Request in
lemma readHeader_through (env : Env) (hc : Heading c) (hp : Parsing False c)
    (hex : 0 < c.kacount → c.EndsExactly) :
    Through (c.readHeader env) ∧ ((c.readHeader env).2 = .blocked → (c.readHeader env).1.status.inHeader →
      (c.readHeader env).1.parsePos = (c.readHeader env).1.clientStream.length) := by
  have hpos := hc.pos
  have hlen : c.parsePos + (c.clientStream.drop c.parsePos).length = c.clientStream.length := by
    rw [List.length_drop]
    omega
  have hscan := scanHeader_through env (c.clientStream.drop c.parsePos) hc hp hlen fun hk k hf => by
    rw [List.length_drop]
    exact hex hk k hf
  have hended := scanHeader_ended env hp (c.clientStream.drop c.parsePos)
  have hblock := scanHeader_blocked env (c.clientStream.drop c.parsePos) hp
  unfold readHeader
  generalize scanHeader env c (c.clientStream.drop c.parsePos) = r at hscan hended hblock
  obtain ⟨d, _ | ret⟩ := r
  · obtain ⟨hd, hdpos⟩ := hscan.1 rfl
    have hpd : Parsing False d := hended.1 rfl
    have hlt : d.status < .bodyRead := hpd.header
    dsimp only
    rw [if_pos hlt]
    obtain ⟨h1, h2⟩ := readMore_through hd hpd hdpos
    exact ⟨h1, fun hb _ => h2 hb⟩
  · exact ⟨hscan.2 ret rfl, fun hb hin => absurd hin (hblock (congrArg some hb))⟩

/-! ### The whole run -/

/-- Between two rounds. -/
structure Parked (c : Request) (p : Place) : Prop where
  heading : c.status.inHeader → Heading c
  parsed : p = .block → c.status.inHeader → c.parsePos = c.clientStream.length
  spent : ¬ c.status.inHeader → c.Spent

lemma Later.spent (h : Later c d) (hc : c.Spent) : d.Spent := by
  obtain ⟨hk, hs, -, -, -, -, -, hp⟩ := Request.of_kept h.kept
  obtain hc | hc | hc := hc
  · left
    rw [hs, hp]
    exact hc
  · right; left
    obtain hi | hi := h.idle
    · rw [hi]
      exact hc
    · rw [hi]
      exact nofun
  · right; right
    rw [hk]
    exact hc

open Request in
/-- A connection that is kept starts with nothing unparsed. -/
lemma endRequest_parked (env : Env) (hc : c.Spent ∨ c.responseStatus = 0)
    (hp : (c.endRequest env).2 ≠ .free) : Parked (c.endRequest env).1 (c.endRequest env).2 := by
  obtain ⟨es, code, hes, ⟨hr, he⟩ | ⟨-, he⟩⟩ := endRequest_cases env c
  · obtain ⟨-, hactive, -, hanswer, hcount⟩ := decide_eq_true_eq.mp hr
    have hpos : c.clientStream.length ≤ c.parsePos := by
      obtain (hc | hc | hc) | hc := hc
      · exact hc
      · exact absurd hactive hc
      · omega
      · exact absurd hc hanswer
    have hnil : c.clientStream.drop c.parsePos = [] := List.drop_eq_nil_of_le hpos
    rw [he]
    refine ⟨fun _ => ⟨Nat.zero_le _, rfl, fun _ => nofun⟩, fun _ _ => ?_, fun hin => ?_⟩
    · show 0 = (c.clientStream.drop c.parsePos).length
      rw [hnil]
      rfl
    · exact absurd (show Status.readHeader.inHeader by decide) hin
  · rw [he] at hp
    exact absurd rfl hp

open Request in
lemma freeRequest_parked (env : Env) (hc : c.Spent ∨ (c.responseStatus = 0 ∧ c.bufferEnd = 0))
    (hp : (c.freeRequest env).2 ≠ .free) : Parked (c.freeRequest env).1 (c.freeRequest env).2 := by
  obtain ⟨hne, -, n, hn, he⟩ | ⟨hne, -, -, he⟩ | ⟨hne, -, -, he⟩ | ⟨-, he⟩ := freeRequest_cases env c
  · have hspent : c.Spent := hc.resolve_right fun h => hne h.2
    have hr : Out.Replies (fun _ => True) (fun _ => True) { c.toOut with status := .done }
        { c.toOut with status := .done }.reqFlush.1 := Out.reqFlush_replies _
    have hout : ¬ { c.toOut with status := .done }.reqFlush.1.status.inHeader := by
      obtain hs | hs := hr.status
      · rw [hs]
        exact (by decide : ¬ Status.done.inHeader)
      · rw [hs]
        decide
    rw [he]
    exact ⟨fun hin => absurd hin hout, fun hb => absurd hb nofun, fun _ => hspent⟩
  · rw [he] at hp ⊢
    exact endRequest_parked env (.inl (hc.resolve_right fun h => hne h.2)) hp
  · rw [he] at hp ⊢
    exact endRequest_parked env (.inl (hc.resolve_right fun h => hne h.2)) hp
  · rw [he] at hp ⊢
    exact endRequest_parked env (hc.imp_right fun h => h.1) hp

open Request in
lemma serveOnce_parked (env : Env) {p : Place} (hw : Whole False c) (hc : Parked c p)
    (hex : c.status.inHeader → 0 < c.kacount → c.EndsExactly) :
    Through (c.serveOnce env) ∧ ((c.serveOnce env).2 = .blocked → (c.serveOnce env).1.status.inHeader →
      (c.serveOnce env).1.parsePos = (c.serveOnce env).1.clientStream.length) := by
  obtain ⟨hin, hp, he⟩ | ⟨hout, hl⟩ := serveOnce_cases env hw
  · have hhead := hc.heading hin
    rw [he]
    exact readHeader_through env ⟨hhead.pos, hhead.unanswered, hhead.idle⟩ hp (hex hin)
  · have hspent := hl.spent (hc.spent hout)
    have hstays := serveOnce_behind env hw hout
    exact ⟨⟨fun _ => .inl hspent, fun hr => ⟨fun hin => absurd hin (hstays hr), fun _ => hspent⟩⟩,
      fun hb hin => absurd hin (hstays (by rw [hb]; exact nofun))⟩

open Request in
lemma processRequest_parked (env : Env) {p : Place} (hw : Whole False c) (hc : Parked c p)
    (hex : c.status.inHeader → 0 < c.kacount → c.EndsExactly) (hp : (c.processRequest env).2 ≠ .free) :
    Parked (c.processRequest env).1 (c.processRequest env).2 := by
  obtain ⟨⟨hdone, hgo⟩, hblock⟩ := serveOnce_parked env hw hc hex
  unfold processRequest at hp ⊢
  dsimp only at hp ⊢
  generalize c.serveOnce env = r at hdone hgo hblock hp ⊢
  obtain ⟨d, ret⟩ := r
  have hstop : ∀ q, (ret = .blocked → q = .block) → (q = .block → ret = .blocked) → ret ≠ .done →
      Parked (d.heedSigterm env) q := by
    intro q h1 h2 hr
    obtain ⟨hhead, hspent⟩ := hgo hr
    unfold heedSigterm
    split_ifs
    · exact ⟨fun hin => ⟨(hhead hin).pos, (hhead hin).unanswered, fun _ => nofun⟩,
        fun hq hin => hblock (h2 hq) hin, fun _ => .inr (.inl nofun)⟩
    · exact ⟨hhead, fun hq hin => hblock (h2 hq) hin, hspent⟩
  cases ret with
  | blocked => exact hstop .block (fun _ => rfl) (fun _ => rfl) nofun
  | more => exact hstop .ready nofun nofun nofun
  | done =>
    refine freeRequest_parked env ?_ hp
    have hd := hdone rfl
    unfold heedSigterm
    split_ifs
    · exact .inl (.inr (.inl nofun))
    · exact hd

lemma getRequest_parked (env : Env) (peer : Peer) (old : Request) : Parked (old.getRequest env peer) .ready := by
  unfold Request.getRequest
  dsimp only
  split_ifs
  · have hspent := (Request.sendRServiceUnavailable_refused env { (old.sanitizeNew env).arm env with
      localIpAddr := peer.localIpAddr, remoteIpAddr := peer.remoteIpAddr,
      remotePort := peer.remotePort, httpVersion := .http10, method := .get }).spent
    refine ⟨fun hin => ?_, fun hb => absurd hb nofun, fun _ => hspent⟩
    exact absurd hin (show ¬ Status.done.inHeader by decide)
  · refine ⟨fun _ => ⟨Nat.zero_le _, rfl, fun _ => nofun⟩, fun hb => absurd hb nofun, fun hin => ?_⟩
    exact absurd (show Status.readHeader.inHeader by decide) hin

end Steps

/-- Where no request is pipelined, one that waits for its client has been parsed as far as it
was received. -/
theorem blocked_parsed {c : Request} {p : Place} (h : Reach Unpipelined c p) (hp : p = .block)
    (hs : c.status.inHeader) : c.parsePos = c.clientStreamPos := by
  have hinv : p ≠ .free → Parked c p := by
    clear hp hs
    induction h with
    | accept env peer old hP => exact fun _ => getRequest_parked env peer old
    | pass env h hP ih =>
      have hw := (reach_whole (S := False) (fun hS => hS.elim) h).1 nofun
      exact processRequest_parked env hw (ih nofun) hP
    | @wake c w h hP ih =>
      have hc := ih nofun
      have hspent : c.Spent := by
        by_cases hin : c.status.inHeader
        · exact .inl (hc.parsed rfl hin).ge
        · exact hc.spent hin
      cases w with
      | ready => exact fun _ => ⟨hc.heading, fun hb => absurd hb nofun, hc.spent⟩
      | timedOut =>
        exact fun _ => ⟨fun hin => absurd hin (show ¬ Status.timedOut.inHeader by decide),
          fun hb => absurd hb nofun, fun _ => hspent⟩
      | dead =>
        exact fun _ => ⟨fun hin => absurd hin (show ¬ Status.dead.inHeader by decide),
          fun hb => absurd hb nofun, fun _ => hspent⟩
  exact (hinv (by rw [hp]; exact nofun)).parsed hp hs

/-- One request of 19 bytes, and the same request twice in one segment. -/
def keptClient : Env := tinyClient "GET /f HTTP/1.1\r\n\r\n"
def pipelinedClient : Env := tinyClient "GET /f HTTP/1.1\r\n\r\nGET /f HTTP/1.1\r\n\r\n"

/-- The socket takes all of it. -/
def roomyEnv : Env := { tinyEnv with sock := [.wrote 10000] }

def receivedBy (client : Env) : Request := ((Request.getRequest tinyEnv tinyPeer {}).processRequest client).1

/-- A single request is answered, and its kept connection waits with nothing unparsed. -/
theorem blocked_parsed_kept :
    ((receivedBy keptClient).processRequest roomyEnv).1.parsePos =
      ((receivedBy keptClient).processRequest roomyEnv).1.clientStreamPos := by
  have hstart : Reach Unpipelined (Request.getRequest tinyEnv tinyPeer {}) .ready := .accept tinyEnv tinyPeer {} trivial
  have hread := Reach.pass keptClient hstart fun _ _ k _ => Nat.zero_le k
  have hready : ((Request.getRequest tinyEnv tinyPeer {}).processRequest keptClient).2 = .ready := by
    decide +kernel
  rw [hready] at hread
  have hends : (receivedBy keptClient).EndsExactly := by
    intro k hk
    by_contra hlt
    have hlen : (receivedBy keptClient).clientStream.length - (receivedBy keptClient).parsePos = 19 := by
      decide +kernel
    have hnone : ∀ k < 19, (((receivedBy keptClient).clientStream.drop (receivedBy keptClient).parsePos).take
        k).foldl nextStatus (receivedBy keptClient).status ≠ .bodyRead := by
      decide +kernel
    exact hnone k (by omega) hk
  have hpass := Reach.pass roomyEnv hread fun _ _ => hends
  exact blocked_parsed hpass (by decide +kernel) (by decide +kernel)

/-- The second of two requests was received completely, and waits for the client to send more. -/
theorem pipelined_parked : ∃ c, Reachable c .block ∧ c.status.inHeader ∧ c.bufferEnd = 0 ∧
    c.parsePos ≠ c.clientStreamPos := by
  have hstart : Reachable (Request.getRequest tinyEnv tinyPeer {}) .ready := .accept tinyEnv tinyPeer {} trivial
  have hread := Reach.pass pipelinedClient hstart trivial
  have hready : ((Request.getRequest tinyEnv tinyPeer {}).processRequest pipelinedClient).2 = .ready := by
    decide +kernel
  rw [hready] at hread
  have hpass := Reach.pass roomyEnv hread trivial
  have hblock : ((receivedBy pipelinedClient).processRequest roomyEnv).2 = .block := by decide +kernel
  have hpass : Reachable ((receivedBy pipelinedClient).processRequest roomyEnv).1
    ((receivedBy pipelinedClient).processRequest roomyEnv).2 := hpass
  rw [hblock] at hpass
  exact ⟨_, hpass, by decide +kernel, by decide +kernel, by decide +kernel⟩

end Boa
