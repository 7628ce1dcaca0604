import Boa.Relay

/-! The answer to a HEAD request for a CGI: what of the child's output reaches the client. -/
namespace Boa
open Memory History

/-! ### The first blank line -/

/-- How many bytes there are up to the end of the first blank line. -/
def firstBlank : Bytes → Option ℕ
  | [] => none
  | b :: s =>
    if [lf, lf] <+: b :: s then some 2
    else if [lf, cr, lf] <+: b :: s then some 3
    else (firstBlank s).map (· + 1)

section Text

variable {s t pat : Bytes} {i k n : ℕ}

/-- `strstr` finds the first of all occurrences. -/
lemma strstr_least (h : pat <+: s.drop i) : ∃ k ≤ i, strstr pat s = some k := by
  induction s generalizing i with
  | nil =>
    refine ⟨0, Nat.zero_le _, if_pos (List.isPrefixOf_iff_prefix.mpr ?_)⟩
    simpa using h
  | cons b s ih =>
    unfold strstr
    split_ifs with hp
    · exact ⟨0, Nat.zero_le _, rfl⟩
    · cases i with
      | zero => exact absurd (List.isPrefixOf_iff_prefix.mpr h) hp
      | succ i =>
        obtain ⟨k, hk, hs⟩ := ih h
        exact ⟨k + 1, Nat.succ_le_succ hk, by rw [hs]; rfl⟩

/-- The two forms of a blank line. -/
lemma firstBlank_spec (h : firstBlank s = some n) :
    ∃ i, n = i + 2 ∧ [lf, lf] <+: s.drop i ∨ n = i + 3 ∧ [lf, cr, lf] <+: s.drop i := by
  induction s generalizing n with
  | nil => cases h
  | cons b s ih =>
    unfold firstBlank at h
    split_ifs at h with h1 h2
    · cases h
      exact ⟨0, .inl ⟨rfl, h1⟩⟩
    · cases h
      exact ⟨0, .inr ⟨rfl, h2⟩⟩
    · obtain ⟨k, hk, rfl⟩ := Option.map_eq_some_iff.mp h
      obtain ⟨i, ⟨rfl, hi⟩ | ⟨rfl, hi⟩⟩ := ih hk
      · exact ⟨i + 1, .inl ⟨rfl, hi⟩⟩
      · exact ⟨i + 1, .inr ⟨rfl, hi⟩⟩

lemma firstBlank_ne_none (h : [lf, lf] <+: s.drop i ∨ [lf, cr, lf] <+: s.drop i) :
    firstBlank s ≠ none := by
  induction s generalizing i with
  | nil => simp at h
  | cons b s ih =>
    unfold firstBlank
    split_ifs with h1 h2
    · exact Option.some_ne_none _
    · exact Option.some_ne_none _
    · cases i with
      | zero => exact absurd h (not_or.mpr ⟨h1, h2⟩)
      | succ i =>
        rw [ne_eq, Option.map_eq_none_iff]
        exact ih h

/-- What stands in the text at the place of a pattern. -/
lemma getElem?_of_prefix_drop (h : pat <+: s.drop i) {j : ℕ} (hj : j < pat.length) :
    s[i + j]? = pat[j]? := by
  obtain ⟨t, ht⟩ := h
  rw [← List.getElem?_drop, ← ht, List.getElem?_append_left hj]

lemma firstBlank_le (h : firstBlank s = some n) : n ≤ s.length ∧ s[n - 1]? = some lf ∧ 2 ≤ n := by
  obtain ⟨i, ⟨rfl, hi⟩ | ⟨rfl, hi⟩⟩ := firstBlank_spec h
  · have h1 : s[i + 1]? = some lf := getElem?_of_prefix_drop hi (j := 1) (by decide)
    exact ⟨(List.getElem?_eq_some_iff.mp h1).1, h1, by omega⟩
  · have h1 : s[i + 2]? = some lf := getElem?_of_prefix_drop hi (j := 2) (by decide)
    exact ⟨(List.getElem?_eq_some_iff.mp h1).1, h1, by omega⟩

/-- More text behind it leaves the first blank line where it is. -/
lemma firstBlank_append (h : firstBlank s = some n) (t : Bytes) : firstBlank (s ++ t) = some n := by
  induction s generalizing n with
  | nil => cases h
  | cons b s ih =>
    have hlen : 3 ≤ (b :: s).length ∨ [lf, lf] <+: b :: s := by
      unfold firstBlank at h
      split_ifs at h with h1 h2
      · exact .inr h1
      · exact .inl h2.length_le
      · obtain ⟨k, hk, rfl⟩ := Option.map_eq_some_iff.mp h
        obtain ⟨h3, -, h4⟩ := firstBlank_le hk
        exact .inl (Nat.succ_le_succ (h4.trans h3))
    have hkeep : ∀ pat : Bytes, pat.length ≤ (b :: s).length →
        (pat <+: b :: (s ++ t) ↔ pat <+: b :: s) := fun pat hp =>
      ⟨fun hpre => List.prefix_of_prefix_length_le hpre (List.prefix_append (b :: s) t) hp,
        fun hpre => hpre.trans (List.prefix_append (b :: s) t)⟩
    rw [List.cons_append]
    unfold firstBlank at h ⊢
    rcases hlen with hlen | hlf
    · simp only [hkeep [lf, lf] ((Nat.le_succ 2).trans hlen), hkeep [lf, cr, lf] hlen]
      split_ifs at h ⊢ with h1 h2
      · exact h
      · exact h
      · obtain ⟨k, hk, rfl⟩ := Option.map_eq_some_iff.mp h
        rw [ih hk]
        rfl
    · rw [if_pos hlf] at h
      rw [if_pos ((hkeep _ hlf.length_le).mpr hlf)]
      exact h

/-- The search of the server finds a blank line if there is one. -/
lemma findBlankLine_eq_none (h : findBlankLine s = none) : firstBlank s = none := by
  by_contra hn
  obtain ⟨n, hn⟩ := Option.ne_none_iff_exists'.mp hn
  unfold findBlankLine at h
  obtain ⟨i, ⟨-, hi⟩ | ⟨-, hi⟩⟩ := firstBlank_spec hn
  · obtain ⟨k, -, hk⟩ := strstr_least hi
    rw [hk] at h
    cases hs : strstr [lf, cr, lf] s <;> simp [hs] at h
  · obtain ⟨k, -, hk⟩ := strstr_least hi
    simp [hk] at h

/-- The end it cuts at is never the end of the first blank line. -/
lemma blankLineEnd_ne (h : findBlankLine s = some k) :
    ∃ n, firstBlank s = some n ∧ blankLineEnd s k ≠ n := by
  unfold findBlankLine at h
  unfold blankLineEnd
  rw [List.getD_eq_getElem?_getD]
  cases h1 : strstr [lf, cr, lf] s with
  | some j =>
    obtain rfl : j = k := by simpa [h1] using h
    have hat := strstr_spec h1
    obtain ⟨n, hn⟩ := Option.ne_none_iff_exists'.mp (firstBlank_ne_none (.inr hat))
    obtain ⟨-, hlast, -⟩ := firstBlank_le hn
    have hcr : s[j + 1]? = some cr := getElem?_of_prefix_drop hat (j := 1) (by decide)
    refine ⟨n, hn, fun he => ?_⟩
    rw [hcr, Option.getD_some, if_pos rfl] at he
    rw [← he, show j + 2 - 1 = j + 1 from rfl, hcr] at hlast
    cases hlast
  | none =>
    have h2 : strstr [lf, lf] s = some k := by simpa [h1] using h
    have hat := strstr_spec h2
    obtain ⟨n, hn⟩ := Option.ne_none_iff_exists'.mp (firstBlank_ne_none (.inl hat))
    have hlf : s[k + 1]? = some lf := getElem?_of_prefix_drop hat (j := 1) (by decide)
    refine ⟨n, hn, fun he => ?_⟩
    rw [hlf, Option.getD_some, if_neg (by decide)] at he
    obtain ⟨i, ⟨hi, hp⟩ | ⟨-, hp⟩⟩ := firstBlank_spec hn
    · obtain ⟨k', hk', hs⟩ := strstr_least hp
      rw [h2] at hs
      cases hs
      omega
    · obtain ⟨k', -, hs⟩ := strstr_least hp
      rw [h1] at hs
      cases hs

/-- What the server searches is the text up to the first NUL. -/
lemma firstBlank_of_cstr (h : firstBlank (cstr s) = some n) :
    firstBlank s = some n ∧ 0 ∉ s.take n := by
  have hpre : cstr s <+: s := List.takeWhile_prefix _
  obtain ⟨t, ht⟩ := hpre
  have hn := firstBlank_le h
  refine ⟨ht ▸ firstBlank_append h t, fun hz => ?_⟩
  rw [← ht, List.take_append_of_le_length hn.1] at hz
  have := List.mem_takeWhile_imp (List.mem_of_mem_take hz)
  simp at this

/-- A line end stands behind any line that starts a header. -/
lemma startsWithCase_of_prefix (hpre : s <+: t) (hs : lf ∈ s) (hpat : lf ∉ pat.map tolower) :
    startsWithCase pat s ↔ startsWithCase pat t := by
  obtain ⟨u, rfl⟩ := hpre
  unfold startsWithCase
  by_cases hlen : pat.length ≤ s.length
  · rw [List.take_append_of_le_length hlen]
  · rw [List.take_of_length_le (by omega), List.take_append, List.take_of_length_le (by omega)]
    have hlf : lf ∈ s.map tolower := List.mem_map.mpr ⟨lf, hs, by decide⟩
    constructor <;> intro h <;> refine absurd ?_ hpat <;> rw [← beq_iff_eq.mp h]
    · exact hlf
    · rw [List.map_append]
      exact List.mem_append_left _ hlf

end Text

/-! ### Whose bytes they are -/

def Event.child : Event → Bytes
  | .data bs => bs
  | _ => []

def Event.server : Event → Bytes
  | .queued bs => bs
  | _ => []

/-- What was passed on of the output of the child. -/
def fromChild (t : List Event) : Bytes := t.flatMap Event.child

/-- What the server wrote of its own. -/
def fromServer (t : List Event) : Bytes := t.flatMap Event.server

@[simp] lemma fromChild_snoc (t : List Event) (e : Event) :
    fromChild (t ++ [e]) = fromChild t ++ e.child := by
  simp [fromChild]

lemma Event.child_of_quiet {e : Event} (h : e.quiet) : e.child = [] := by
  cases e with
  | data bs => exact h.1 []
  | _ => rfl

lemma fromChild_append {t es : List Event} (h : ∀ e ∈ es, e.child = []) :
    fromChild (t ++ es) = fromChild t := by
  rw [fromChild, fromChild, List.flatMap_append, List.flatMap_eq_nil_iff.mpr h, List.append_nil]

lemma fromChild_replies {ka : Bool → Prop} {len : ℕ → Prop} {o o' : Out} (h : Out.Replies ka len o o') :
    fromChild o'.trace = fromChild o.trace := by
  obtain ⟨es, he, hes⟩ := h.adds
  rw [he]
  refine fromChild_append fun e h => ?_
  have := hes e h
  cases e <;> first | rfl | exact this.elim

lemma Refused.child {c d : Request} (h : Refused c d) : fromChild d.trace = fromChild c.trace := by
  obtain ⟨o, code, rfl, -, ho⟩ := h
  exact fromChild_replies ho

namespace Request

lemma file_of_beyond {c d : Request} (h : d.beyond = c.beyond) : d.file = c.file := by
  simp only [beyond, Prod.mk.injEq] at h
  exact h.2.2.2.2

lemma pokeNul_cgiStatus (c : Request) (i : ℕ) : (c.pokeNul i).cgiStatus = c.cgiStatus := by
  unfold pokeNul
  split_ifs <;> rfl

lemma pokeNul_child (c : Request) (i : ℕ) : fromChild (c.pokeNul i).trace = fromChild c.trace := by
  unfold pokeNul
  split_ifs
  · rfl
  · have hnone : ∀ e ∈ [Event.wild], e.child = [] := by simp [Event.child]
    exact fromChild_append hnone

lemma writeFromPipe_child (c : Request) : fromChild c.writeFromPipe.1.trace = fromChild c.trace := by
  have hsent (bs : Bytes) : fromChild (c.popSock.log (.sent bs)).trace = fromChild c.trace :=
    fromChild_append (show ∀ e ∈ [Event.sent bs], e.child = [] by simp [Event.child])
  unfold writeFromPipe
  dsimp only
  split_ifs
  · rfl
  · rfl
  · split
    · rfl
    · rfl
    · rfl
    · split_ifs <;> exact hsent _

/-- What `read_from_pipe` reads counts as passed on, unless it is still looking for a header. -/
lemma readFromPipe_child (env : Env) {c : Request} (h : c.cgiStatus ≠ .parse)
    (hr : c.nextFile (bufferSize + 1 - c.headerEnd.off) ≠ .err) :
    ((c.readFromPipe env).1.file = c.file ∧
        fromChild (c.readFromPipe env).1.trace = fromChild c.trace) ∨
      ((c.readFromPipe env).1.file = c.file.tail ∧
        fromChild (c.readFromPipe env).1.trace =
          fromChild c.trace ++ (c.nextFile (bufferSize + 1 - c.headerEnd.off)).bytes) := by
  have hmode : c.popFile.cgiStatus ≠ .parse := h
  have hnil : fromChild c.trace = fromChild c.trace ++ [] := (List.append_nil _).symm
  unfold readFromPipe
  dsimp only
  split
  · exact .inl ⟨rfl, rfl⟩
  · refine .inr ?_
    split
    · next he => exact ⟨rfl, he ▸ hnil⟩
    · next he => exact ⟨rfl, he ▸ hnil⟩
    · next he => exact absurd he hr
    · next he =>
      unfold pipeEof
      dsimp only
      rw [if_neg hmode, he]
      exact ⟨file_of_beyond (pokeNul_beyond c.popFile _), (pokeNul_child _ _).trans hnil⟩
    · next bs he =>
      have hstore : (c.popFile.pipeStore bs).file = c.popFile.file :=
        file_of_beyond (pokeNul_beyond _ _)
      have hchild : fromChild (c.popFile.pipeStore bs).trace = fromChild c.trace := pokeNul_child _ _
      unfold pipeData
      dsimp only
      rw [if_pos (by rw [pipeStore, pokeNul_cgiStatus]; exact hmode), he]
      refine ⟨(file_of_beyond (writeFromPipe_beyond _)).trans hstore, (writeFromPipe_child _).trans ?_⟩
      rw [Request.log, fromChild_snoc, hchild]
      rfl

end Request

/-- While the output is passed on, every round takes from the pipe what it passes on. -/
lemma Relay.step_child {s : Relay} (h : s.req.Relaying) (r : RelayRound) :
    fromChild (s.step r).req.trace ++ (s.step r).rest = fromChild s.req.trace ++ s.rest := by
  unfold Relay.step
  split_ifs
  · rfl
  dsimp only
  generalize henv : ({ r.env with file := [r.read.answer s.rest], sock := [r.write] } : Env) = env
  have hfile : (s.req.arm env).file = [r.read.answer s.rest] := by
    subst henv
    rfl
  have hnext : (s.req.arm env).nextFile (bufferSize + 1 - s.req.headerEnd.off) =
      (r.read.answer s.rest).fit (bufferSize + 1 - s.req.headerEnd.off) := by
    rw [Request.nextFile, hfile]
    rfl
  have hstep : ((s.req.serveOnce env).1.file ≠ [] ∧
        fromChild (s.req.serveOnce env).1.trace = fromChild s.req.trace) ∨
      ((s.req.serveOnce env).1.file = [] ∧ fromChild (s.req.serveOnce env).1.trace =
        fromChild s.req.trace ++
          ((r.read.answer s.rest).fit (bufferSize + 1 - s.req.headerEnd.off)).bytes) := by
    obtain ⟨-, hs⟩ | ⟨-, hs⟩ := Request.serveOnce_relaying env h.piped h.empty
    · rw [hs]
      obtain ⟨h1, h2⟩ | ⟨h1, h2⟩ := Request.readFromPipe_child env (c := s.req.arm env) h.mode
        fun he => r.read.fit_ne_err s.rest _ (hnext.symm.trans he)
      · exact .inl ⟨by simp [h1, hfile], h2⟩
      · exact .inr ⟨by simp [h1, hfile], hnext ▸ h2⟩
    · rw [hs]
      refine .inl ⟨?_, Request.writeFromPipe_child _⟩
      simp [Request.file_of_beyond (Request.writeFromPipe_beyond _), hfile]
  have hterm : ((s.req.serveOnce env).1.heedSigterm r.env).file = (s.req.serveOnce env).1.file := by
    unfold Request.heedSigterm
    split_ifs <;> rfl
  rw [hterm, Request.heedSigterm_trace]
  obtain ⟨h1, h2⟩ | ⟨h1, h2⟩ := hstep
  · rw [if_neg h1, h2]
    rfl
  · rw [if_pos h1, h2, List.append_assoc, r.read.fit_answer]

/-! ### The search for the header -/

/-- The text with its `Status: ` rewritten. -/
def rewritten (out : Bytes) : Bytes := text "HTTP/1.0 " ++ out.drop 8

lemma rewritten_take_append {out : Bytes} {m : ℕ} (h : 8 ≤ m) :
    rewritten (out.take m) ++ out.drop m = rewritten out := by
  have hsplit : (out.take m).drop 8 ++ out.drop m = out.drop 8 := by
    have hdrop := List.take_append_drop (m - 8) (out.drop 8)
    rw [List.drop_drop, Nat.add_sub_cancel' h] at hdrop
    rw [List.drop_take, hdrop]
  rw [rewritten, rewritten, List.append_assoc, hsplit]

/-- How many bytes of output the server looks at: the upper part of the buffer. -/
def headRoom : ℕ := bufferSize + 1 - bufferSize / 2

namespace Request

/-- The state in which `init_cgi` leaves a HEAD request whose child's header is parsed. -/
structure HeadStart (c : Request) : Prop where
  status : c.status = .pipeRead
  method : c.method = .head
  version : c.httpVersion ≠ .http09
  mode : c.cgiStatus = .parse
  line : c.headerLine = ⟨.buffer, bufferSize / 2⟩
  last : c.headerEnd = ⟨.buffer, bufferSize / 2⟩
  size : c.buffer.length = bufferSize + 1
  start : c.bufferStart = 0
  empty : c.bufferEnd = 0

lemma startPipe_headStart (env : Env) {c : Request} (hc : c.cgiType = .cgi) (hm : c.method = .head)
    (hv : c.httpVersion ≠ .http09) (hsize : c.buffer.length = bufferSize + 1)
    (h0 : c.bufferStart = 0 ∧ c.bufferEnd = 0) : (c.startPipe env).HeadStart := by
  unfold startPipe
  constructor <;> simp [hc, hm, hv, hsize, h0]

/-- The first `m` bytes of the output were read. -/
structure Reading (d c : Request) (out : Bytes) (m : ℕ) : Prop where
  status : d.status = .pipeRead
  method : d.method = .head
  version : d.httpVersion ≠ .http09
  mode : d.cgiStatus = .parse
  line : d.headerLine = ⟨.buffer, bufferSize / 2⟩
  last : d.headerEnd = ⟨.buffer, bufferSize / 2 + m⟩
  size : d.buffer.length = bufferSize + 1
  start : d.bufferStart = 0
  empty : d.bufferEnd = 0
  room : m ≤ headRoom
  got : m ≤ out.length
  held : slice d.buffer (bufferSize / 2) (bufferSize / 2 + m) = out.take m
  sent : sentBytes d.trace = sentBytes c.trace
  child : fromChild d.trace = fromChild c.trace

/-- They hold no header. -/
structure Waits (d c : Request) (out : Bytes) (m : ℕ) : Prop extends Reading d c out m where
  missing : findBlankLine (cstr (out.take m)) = none

/-- The answers of the pipe and the socket and the keep-alive state do not count. -/
lemma Waits.with {d c : Request} {out : Bytes} {m : ℕ} (h : d.Waits c out m) (sock : List WriteRes)
    (link : Link) (k : KaStatus) :
    Waits { d with sock := sock, toLink := link, keepalive := k } c out m :=
  ⟨⟨h.status, h.method, h.version, h.mode, h.line, h.last, h.size, h.start, h.empty, h.room, h.got,
    h.held, h.sent, h.child⟩, h.missing⟩

lemma HeadStart.waits {c : Request} (h : c.HeadStart) (out : Bytes) : Waits c c out 0 where
  status := h.status
  method := h.method
  version := h.version
  mode := h.mode
  line := h.line
  last := h.last
  size := h.size
  start := h.start
  empty := h.empty
  room := Nat.zero_le _
  got := Nat.zero_le _
  held := by simp
  missing := rfl
  sent := rfl
  child := rfl

/-- The string behind the terminator is the text of the window. -/
lemma pokeNul_window {d : Request} {a i : ℕ} (hsize : d.buffer.length = bufferSize + 1)
    (hi : i ≤ bufferSize + 1) (ha : a ≤ i) :
    ∃ es uri buf, d.pokeNul i = { d with trace := d.trace ++ es, buffer := buf, requestUri := uri } ∧
      sentBytes (d.trace ++ es) = sentBytes d.trace ∧ fromChild (d.trace ++ es) = fromChild d.trace ∧
      buf.length = bufferSize + 1 ∧ slice buf a i = slice d.buffer a i ∧
      cstr (buf.drop a) = cstr (slice d.buffer a i) := by
  obtain ⟨es, uri, buf, he, hes, hlen, hslice, hterm⟩ := pokeNul_spec hsize hi
  refine ⟨es, uri, buf, he, ?_, fromChild_append fun e h => Event.child_of_quiet (hes e h), hlen,
    hslice a, ?_⟩
  · rw [sentBytes, sentBytes, List.flatMap_append,
      List.flatMap_eq_nil_iff.mpr fun e h => (hes e h).2, List.append_nil]
  · rw [← hslice a, slice, cstr, cstr, ← List.take_takeWhile]
    exact (List.take_of_length_le (hterm a ha)).symm

lemma sendRRequestOk_eq (env : Env) (d : Request) :
    ∃ o, d.sendRRequestOk env = { d with toOut := o, responseStatus := 200 } ∧
      Out.Replies (fun _ => True) (fun _ => True) d.toOut o := by
  unfold sendRRequestOk
  dsimp only
  split_ifs
  · exact ⟨d.toOut, rfl, .refl _⟩
  · exact ⟨_, rfl, Out.writes_replies _ _ (fun _ _ => trivial) fun _ _ => trivial⟩
  · exact ⟨_, rfl, Out.writes_replies _ _ (fun _ _ => trivial) fun _ _ => trivial⟩

/-- The branch for a plain header: the text up to `e` or nothing is passed on. -/
lemma cgiOk_head (env : Env) {d : Request} {e : ℕ} (hm : d.method = .head) (hb : d.toOut.BufOk)
    (he : e ≤ bufferSize + 1) :
    (d.cgiOk env e).2 = .done ∧ ∃ x, fromChild (d.cgiOk env e).1.trace = fromChild d.trace ++ x ∧
      (x = [] ∨ x.length = e - d.headerLine.off) := by
  obtain ⟨o, ho, hrep⟩ := sendRRequestOk_eq env d
  have hsize : o.buffer.length = bufferSize + 1 :=
    (hrep.sound False ⟨hb, fun h => h.elim, fun h => h.elim⟩).size
  have hchild := fromChild_replies hrep
  unfold cgiOk
  rw [ho]
  dsimp only
  rw [if_pos hm]
  split
  · refine ⟨rfl, [], ?_, .inl rfl⟩
    rw [(sendRError_refused env _).child, List.append_nil, ← hchild]
    refine fromChild_append fun e he => ?_
    rw [List.mem_singleton.mp he]
    rfl
  · refine ⟨if_pos hm, slice o.buffer d.headerLine.off e, ?_, .inr (length_slice (by omega))⟩
    have hflush (o' : Out) : Out.Replies (fun _ => True) (fun _ => True) o' o'.reqFlush.1 :=
      Out.reqFlush_replies o'
    refine (fromChild_replies (hflush _)).trans ?_
    show fromChild (o.trace ++ [.data (slice o.buffer d.headerLine.off e)]) = _
    rw [fromChild_snoc, hchild]
    rfl

/-- A header that is missing or does not start with `Status: ` ends the request, and
what is passed on never ends with the first blank line. -/
lemma processCgiHeader_head (env : Env) {d : Request} {w : Bytes} (hm : d.method = .head)
    (hv : d.httpVersion ≠ .http09) (hb : d.toOut.BufOk)
    (hw : cstr (d.buffer.drop d.headerLine.off) = w)
    (hs : findBlankLine w = none ∨ ¬ startsWithCase (text "Status: ") w)
    (hl : ¬ startsWithCase (text "Location: ") w) :
    (d.processCgiHeader env).2 = .done ∧
      ∃ x, fromChild (d.processCgiHeader env).1.trace = fromChild d.trace ++ x ∧
        (x = [] ∨ ∃ n, firstBlank w = some n ∧ x.length ≠ n) := by
  have hmode : ∃ g, (if d.cgiStatus = .done then d else { d with cgiStatus := .buffer }) =
      { d with cgiStatus := g } := by
    split_ifs with hg
    · exact ⟨.done, by rw [← hg]⟩
    · exact ⟨.buffer, rfl⟩
  obtain ⟨g, hg⟩ := hmode
  unfold processCgiHeader
  rw [hg]
  dsimp only
  rw [hw]
  split
  · exact ⟨rfl, [], by rw [(sendRBadGateway_refused env _).child, List.append_nil], .inl rfl⟩
  · next k hk =>
    obtain ⟨n, hn, hne⟩ := blankLineEnd_ne hk
    have hend : d.headerLine.off + blankLineEnd w k ≤ bufferSize + 1 := by
      have h1 := (findBlankLine_spec hk).2
      have h2 : w.length ≤ (d.buffer.drop d.headerLine.off).length := by
        rw [← hw]
        exact (List.takeWhile_prefix _).length_le
      have h3 := hb.size
      rw [List.length_drop] at h2
      omega
    rw [if_neg hv, if_neg (hs.resolve_left (by simp [hk])), if_neg hl]
    obtain ⟨h1, x, hx, h2⟩ := cgiOk_head env (d := { d with cgiStatus := g })
      (e := d.headerLine.off + blankLineEnd w k) hm hb hend
    refine ⟨h1, x, hx, h2.imp_right fun hlen => ⟨n, hn, ?_⟩⟩
    rw [hlen]
    simpa using hne

/-- The branch for a `Status: ` header: the line is rewritten in place and everything
read so far waits for the client. -/
lemma processCgiHeader_status (env : Env) {d : Request} {w : Bytes} {m : ℕ}
    (hp : d.status = .pipeRead) (hv : d.httpVersion ≠ .http09) (hmode : d.cgiStatus = .done)
    (hline : d.headerLine = ⟨.buffer, bufferSize / 2⟩)
    (hlast : d.headerEnd = ⟨.buffer, bufferSize / 2 + m⟩)
    (hsize : d.buffer.length = bufferSize + 1) (h0 : d.bufferEnd = 0) (hm : m ≤ headRoom) (h8 : 8 ≤ m)
    (hw : cstr (d.buffer.drop (bufferSize / 2)) = w) (hk : findBlankLine w ≠ none)
    (hs : startsWithCase (text "Status: ") w) :
    (d.processCgiHeader env).2 = .more ∧ (d.processCgiHeader env).1.Relaying ∧
      (d.processCgiHeader env).1.Ready ∧ (d.processCgiHeader env).1.file = d.file ∧
      sentBytes (d.processCgiHeader env).1.trace = sentBytes d.trace ∧
      (d.processCgiHeader env).1.cgiText = rewritten d.cgiText ∧
      fromChild (d.processCgiHeader env).1.trace = fromChild d.trace ++ rewritten d.cgiText := by
  have h9 := cgiNames.2.2.1
  have hhalf : bufferSize / 2 = 2048 := rfl
  have hfull : bufferSize = 4096 := rfl
  unfold headRoom at hm
  have hstore : (store d.buffer (bufferSize / 2 - 1) (text "HTTP/1.0 ")).length = bufferSize + 1 := by
    rw [length_store _ (by omega), hsize, h9]
    omega
  have htext : slice (store d.buffer (bufferSize / 2 - 1) (text "HTTP/1.0 ")) (bufferSize / 2 - 1)
      d.headerEnd.off = rewritten d.cgiText := by
    have hself := slice_store_self (m := d.buffer) (a := bufferSize / 2 - 1) (text "HTTP/1.0 ") (by omega)
    have hafter := slice_store_after (m := d.buffer) (a := bufferSize / 2 - 1) (b := bufferSize / 2 + 8)
      (c := bufferSize / 2 + m) (text "HTTP/1.0 ") (by omega)
    rw [h9, show bufferSize / 2 - 1 + 9 = bufferSize / 2 + 8 from rfl] at hself
    have hoff : d.headerEnd.off = bufferSize / 2 + m := by rw [hlast]
    rw [cgiText, hline, hoff, ← slice_append_slice (b := bufferSize / 2 + 8) (by omega) (by omega),
      hself, hafter, rewritten, slice, slice, List.drop_take, List.drop_drop, Nat.sub_sub]
  obtain ⟨k, hk⟩ := Option.ne_none_iff_exists'.mp hk
  unfold processCgiHeader
  rw [if_pos hmode]
  dsimp only
  rw [hline, hw, hk]
  dsimp only
  rw [if_neg hv, if_pos hs]
  have hend : d.headerEnd.off = bufferSize / 2 + m := by rw [hlast]
  generalize hnew : ({ d with
    headerLine := ⟨.buffer, bufferSize / 2 - 1⟩
    buffer := store d.buffer (bufferSize / 2 - 1) (text "HTTP/1.0 ") } : Request) = e
  have hetext : e.cgiText = rewritten d.cgiText := by
    rw [← htext, ← hnew]
    rfl
  have htrace : e.trace = d.trace := by rw [← hnew]
  refine ⟨rfl, ?_, .inl ?_, ?_, ?_, ?_, ?_⟩
  · rw [← hnew]
    refine ⟨.inl hp, ?_, rfl, ?_, ?_, hstore, h0⟩
    · show d.cgiStatus ≠ .parse
      simp [hmode]
    · show bufferSize / 2 - 1 ≤ d.headerEnd.off
      omega
    · show d.headerEnd.off ≤ bufferSize + 1
      omega
  · rw [← hnew]
    show bufferSize / 2 - 1 < d.headerEnd.off
    omega
  · rw [← hnew]
    rfl
  · show sentBytes (e.trace ++ [.data e.cgiText]) = _
    rw [sentBytes_snoc, htrace]
    exact List.append_nil _
  · exact hetext
  · show fromChild (e.trace ++ [.data e.cgiText]) = _
    rw [fromChild_snoc, htrace, hetext]
    rfl

end Request

/-! ### The answer -/

/-- What a client is to get of the output of a child: the text up to the end of the
first blank line, with its `Status: ` rewritten. -/
def headReply (out : Bytes) : Bytes :=
  match firstBlank out with
  | none => []
  | some n => if startsWithCase (text "Status: ") out then rewritten (out.take n) else out.take n

/-- `c` was answered with the header of the child, behind the status line and the headers
of the server unless the child gives the status itself. -/
structure HeadAnswered (c d : Request) (out : Bytes) : Prop where
  child : fromChild d.trace = fromChild c.trace ++ headReply out
  stream : ∃ own, sentBytes d.trace ++ d.pending = sentBytes c.trace ++ own ++ headReply out ∧
    if startsWithCase (text "Status: ") out then own = []
    else fromServer d.trace = fromServer c.trace ++ own ∧
      httpVerString c.httpVersion ++ text " 200 OK\r\n" <+: own

/-- The output is a header with a `Status: ` that the server can see to its end. -/
structure HeadOnly (out : Bytes) : Prop where
  status : startsWithCase (text "Status: ") out
  blank : firstBlank out = some out.length
  room : out.length ≤ headRoom
  terminated : 0 ∉ out

section Answer

variable {c : Request} {out w : Bytes} {m n : ℕ}

lemma window_isPrefix (out : Bytes) (m : ℕ) : cstr (out.take m) <+: out :=
  (List.takeWhile_prefix _).trans (List.take_prefix m out)

lemma startsWithCase_mono {pat s t : Bytes} (hpre : s <+: t) (h : startsWithCase pat s) :
    startsWithCase pat t := by
  obtain ⟨u, rfl⟩ := hpre
  have hlen := Request.startsWithCase_length h
  unfold startsWithCase at h ⊢
  rwa [List.take_append_of_le_length hlen]

lemma status_iff (hpre : w <+: out) (hk : findBlankLine w ≠ none) :
    startsWithCase (text "Status: ") w ↔ startsWithCase (text "Status: ") out := by
  obtain ⟨k, hk⟩ := Option.ne_none_iff_exists'.mp hk
  exact startsWithCase_of_prefix hpre (List.mem_of_getElem? (findBlankLine_spec hk).1) (by decide +kernel)

lemma firstBlank_of_prefix (hpre : w <+: out) (h : firstBlank w = some n) : firstBlank out = some n := by
  obtain ⟨u, rfl⟩ := hpre
  exact firstBlank_append h u

lemma HeadOnly.found (h : HeadOnly out) (hgot : m ≤ out.length) (hend : m = out.length ∨ m = headRoom) :
    findBlankLine (cstr (out.take m)) ≠ none := by
  have hroom := h.room
  obtain rfl : m = out.length := by omega
  rw [List.take_length, cstr_of_not_mem h.terminated]
  intro hnone
  have := findBlankLine_eq_none hnone
  simp [h.blank] at this

lemma headReply_ne {x : Bytes} (hn : firstBlank out = some n) (hpre : w <+: out)
    (hs : findBlankLine w = none ∨ ¬ startsWithCase (text "Status: ") out)
    (hx : x = [] ∨ ∃ n, firstBlank w = some n ∧ x.length ≠ n) : x ≠ headReply out := by
  obtain ⟨hle, -, h2⟩ := firstBlank_le hn
  unfold headReply
  rw [hn]
  dsimp only
  rintro rfl
  obtain hx | ⟨k, hk, hx⟩ := hx
  · have h9 := cgiNames.2.2.1
    have := congrArg List.length hx
    split_ifs at this
    · simp [rewritten, h9] at this
    · rw [List.length_take_of_le hle, List.length_nil] at this
      omega
  · have hblank := firstBlank_of_prefix hpre hk
    rw [hn] at hblank
    cases hblank
    obtain hs | hs := hs
    · rw [findBlankLine_eq_none hs] at hk
      cases hk
    · rw [if_neg hs, List.length_take_of_le hle] at hx
      exact hx rfl

/-- A header that is missing or has no `Status: ` is not what reaches the client. -/
lemma cut_ne (env : Env) {e : Request} (hn : firstBlank out = some n)
    (hloc : ¬ startsWithCase (text "Location: ") out) (hm : e.method = .head)
    (hv : e.httpVersion ≠ .http09) (hb : e.toOut.BufOk)
    (hline : e.headerLine = ⟨.buffer, bufferSize / 2⟩)
    (hchild : fromChild e.trace = fromChild c.trace)
    (hw : cstr (e.buffer.drop (bufferSize / 2)) = cstr (out.take m))
    (hs : findBlankLine (cstr (out.take m)) = none ∨ ¬ startsWithCase (text "Status: ") out) :
    (e.processCgiHeader env).2 = .done ∧
      fromChild (e.processCgiHeader env).1.trace ≠ fromChild c.trace ++ headReply out := by
  have hpre := window_isPrefix out m
  obtain ⟨h1, x, hx, h2⟩ := Request.processCgiHeader_head env hm hv hb (by rw [hline, hw])
    (hs.imp_right fun h h' => h (startsWithCase_mono hpre h')) fun h' => hloc (startsWithCase_mono hpre h')
  refine ⟨h1, fun he => headReply_ne hn hpre hs h2 ?_⟩
  rw [hx, hchild] at he
  exact List.append_cancel_left he

end Answer

/-- The header was found and has a `Status: `; all that was read waits for the client. -/
structure Request.Passes (d c : Request) (out : Bytes) (m : ℕ) : Prop where
  relaying : d.Relaying
  ready : d.Ready
  low : 8 ≤ m
  sent : sentBytes d.trace = sentBytes c.trace
  held : d.cgiText = rewritten (out.take m)
  child : fromChild d.trace = fromChild c.trace ++ rewritten (out.take m)
  status : startsWithCase (text "Status: ") out
  found : ∃ n, firstBlank out = some n ∧ n ≤ headRoom ∧ 0 ∉ out.take n

/-- The request was ended and the client got something else than the header. -/
structure Request.Cut (d c : Request) (out : Bytes) : Prop where
  only : ¬ HeadOnly out
  child : fromChild d.trace ≠ fromChild c.trace ++ headReply out

/-- How far a HEAD request is with the output of its child. -/
inductive HeadPhase (c : Request) (out : Bytes) (s : Relay) : Prop
  | waits {m : ℕ} (ret : s.ret ≠ .done) (eof : s.eof = false) (rest : s.rest = out.drop m)
      (waits : s.req.Waits c out m)
  | passes (status : startsWithCase (text "Status: ") out)
      (found : ∃ n, firstBlank out = some n ∧ n ≤ headRoom ∧ 0 ∉ out.take n)
      (ok : s.Ok (sentBytes c.trace) (rewritten out))
      (child : fromChild s.req.trace ++ s.rest = fromChild c.trace ++ rewritten out)
  | cut (ret : s.ret = .done) (cut : s.req.Cut c out)

section HeadPhase

variable {c : Request} {out : Bytes} {n : ℕ}

/-- More output behind what was read. -/
lemma Request.Reading.store {d : Request} {m : ℕ} (h : d.Reading c out m) {bs : Bytes}
    (hpre : bs <+: out.drop m) (hlen : m + bs.length ≤ headRoom) :
    (d.pipeStore bs).Reading c out (m + bs.length) ∧
      cstr ((d.pipeStore bs).buffer.drop (bufferSize / 2)) = cstr (out.take (m + bs.length)) ∧
      (d.pipeStore bs).file = d.file := by
  have hlast : d.headerEnd.off = bufferSize / 2 + m := by rw [h.last]
  have hsize := h.size
  have hroom := h.room
  have hhalf : bufferSize / 2 ≤ bufferSize := by decide
  unfold headRoom at hroom hlen
  have hstore : (Memory.store d.buffer d.headerEnd.off bs).length = bufferSize + 1 := by
    rw [length_store bs (by omega), hsize]
    omega
  have htake : out.take (m + bs.length) = out.take m ++ bs := by
    rw [List.take_add, ← List.prefix_iff_eq_take.mp hpre]
  obtain ⟨es, uri, buf, he, hes, hec, hbuf, hslice, hstr⟩ := pokeNul_window (d := { d with
    buffer := Memory.store d.buffer d.headerEnd.off bs
    headerEnd := { d.headerEnd with off := d.headerEnd.off + bs.length } })
    (a := bufferSize / 2) (i := d.headerEnd.off + bs.length) hstore (by omega) (by omega)
  have hdef : d.pipeStore bs = { d with
      trace := d.trace ++ es, buffer := buf, requestUri := uri,
      headerEnd := { d.headerEnd with off := d.headerEnd.off + bs.length } } := he
  have htext : slice (Memory.store d.buffer d.headerEnd.off bs) (bufferSize / 2)
      (d.headerEnd.off + bs.length) = out.take (m + bs.length) := by
    rw [slice_store_append bs (by omega) (by omega), hlast, h.held, htake]
  rw [hdef]
  refine ⟨⟨h.status, h.method, h.version, h.mode, h.line, ?_, hbuf, h.start, h.empty, ?_, ?_, ?_,
    hes.trans h.sent, hec.trans h.child⟩, ?_, rfl⟩
  · show Ptr.mk d.headerEnd.area (d.headerEnd.off + bs.length) = _
    rw [h.last, Nat.add_assoc]
  · unfold headRoom
    exact hlen
  · have := hpre.length_le
    have hgot := h.got
    rw [List.length_drop] at this
    omega
  · show slice buf (bufferSize / 2) (bufferSize / 2 + (m + bs.length)) = _
    rw [← Nat.add_assoc, ← hlast, hslice, htext]
  · show cstr (buf.drop (bufferSize / 2)) = _
    rw [hstr, htext]

lemma Request.Reading.bufOk {d : Request} {m : ℕ} (h : d.Reading c out m) : d.toOut.BufOk :=
  ⟨by rw [h.start, h.empty], by rw [h.empty]; exact Nat.zero_le _, h.size⟩

/-- New output: either there is no header yet, or it is passed on, or the request ends. -/
lemma Request.Waits.data (env : Env) {d : Request} {m : ℕ} (h : d.Waits c out m)
    (hn : firstBlank out = some n) (hloc : ¬ startsWithCase (text "Location: ") out) {bs : Bytes}
    (hpre : bs <+: out.drop m) (hlen : m + bs.length ≤ headRoom) :
    (d.pipeData env bs).1.file = d.file ∧
      ((d.pipeData env bs).2 ≠ .done ∧ (d.pipeData env bs).1.Waits c out (m + bs.length) ∨
        (d.pipeData env bs).2 ≠ .done ∧ (d.pipeData env bs).1.Passes c out (m + bs.length) ∨
        (d.pipeData env bs).2 = .done ∧ (d.pipeData env bs).1.Cut c out) := by
  obtain ⟨hread, hstr, hfile⟩ := h.store hpre hlen
  unfold pipeData
  dsimp only
  generalize d.pipeStore bs = e at hread hstr hfile ⊢
  generalize m + bs.length = m at hread hstr ⊢
  have hlook : cstr (e.buffer.drop e.headerLine.off) = cstr (out.take m) := by rw [hread.line, hstr]
  rw [if_neg (not_not.mpr hread.mode), hlook]
  split
  · next hnone => exact ⟨hfile, .inl ⟨by simp, hread, hnone⟩⟩
  · next k hk =>
    refine ⟨(file_of_beyond (processCgiHeader_beyond env { e with cgiStatus := .done })).trans hfile,
      .inr ?_⟩
    have hsome : findBlankLine (cstr (out.take m)) ≠ none := by simp [hk]
    have hiff := status_iff (window_isPrefix out m) hsome
    by_cases hs : startsWithCase (text "Status: ") out
    · have hw := hiff.mpr hs
      have h8 := cgiNames.2.1
      have hlow : 8 ≤ m := by
        have h1 := startsWithCase_length hw
        have h2 : (cstr (out.take m)).length ≤ (out.take m).length := (List.takeWhile_prefix _).length_le
        rw [List.length_take] at h2
        omega
      have hheld : cgiText { e with cgiStatus := .done } = out.take m := by
        rw [← hread.held]
        show slice e.buffer e.headerLine.off e.headerEnd.off = _
        rw [hread.line, hread.last]
      obtain ⟨h1, h2, h3, -, h4, h5, h6⟩ := processCgiHeader_status env
        (d := { e with cgiStatus := .done }) hread.status hread.version rfl hread.line hread.last hread.size hread.empty hread.room hlow hstr
        hsome hw
      rw [hheld] at h5 h6
      obtain ⟨j, hj, -⟩ := blankLineEnd_ne hk
      obtain ⟨h7, h9⟩ := firstBlank_of_cstr hj
      have hroom := hread.room
      have hjm : j ≤ m := (firstBlank_le h7).1.trans (List.length_take_le _ _)
      rw [List.take_take, Nat.min_eq_left hjm] at h9
      refine .inl ⟨by simp [h1], h2, h3, hlow, h4.trans hread.sent, h5, ?_, hs, j, ?_, by omega, h9⟩
      · rw [h6]
        exact congrArg (· ++ _) hread.child
      · exact firstBlank_of_prefix (List.take_prefix m out) h7
    · obtain ⟨h1, h2⟩ := cut_ne env (e := { e with cgiStatus := .done }) hn hloc hread.method
        hread.version hread.bufOk hread.line hread.child hstr (.inr hs)
      exact .inr ⟨h1, fun ho => hs ho.status, h2⟩

lemma Request.pokeNul_set (d : Request) (i : ℕ) (st : Status) (g : CgiStatus) :
    ({ d with status := st, cgiStatus := g } : Request).pokeNul i =
      { d.pokeNul i with status := st, cgiStatus := g } := by
  unfold pokeNul
  split_ifs <;> rfl

/-- No header in all there is, or in all there is room for, ends the request. -/
lemma Request.Waits.over (env : Env) {d : Request} {m : ℕ} (h : d.Waits c out m)
    (hn : firstBlank out = some n) (hloc : ¬ startsWithCase (text "Location: ") out)
    (hend : m = out.length ∨ m = headRoom) (st : Status) (g : CgiStatus) {e : Request}
    (he : e = { d with status := st, cgiStatus := g }.pokeNul d.headerEnd.off) :
    (e.processCgiHeader env).2 = .done ∧ (e.processCgiHeader env).1.Cut c out ∧
      (e.processCgiHeader env).1.file = d.file := by
  have hroom := h.room
  have hhalf : bufferSize / 2 ≤ bufferSize := by decide
  unfold headRoom at hroom
  have hlast : d.headerEnd.off = bufferSize / 2 + m := by rw [h.last]
  obtain ⟨es, uri, buf, hpoke, hes, hec, hbuf, -, hstr⟩ := pokeNul_window
    (d := { d with status := st, cgiStatus := g }) (a := bufferSize / 2) (i := d.headerEnd.off) h.size
    (by omega) (by omega)
  have hheld : slice d.buffer (bufferSize / 2) d.headerEnd.off = out.take m := by
    rw [hlast, h.held]
  have hfile : (e.processCgiHeader env).1.file = d.file := by
    rw [file_of_beyond (processCgiHeader_beyond env e), he]
    exact file_of_beyond (pokeNul_beyond _ _)
  rw [hpoke] at he
  have hlook : cstr (e.buffer.drop (bufferSize / 2)) = cstr (out.take m) := by
    rw [he]
    exact hstr.trans (congrArg cstr hheld)
  have hok : e.toOut.BufOk := by
    rw [he]
    exact ⟨h.bufOk.start_le, h.bufOk.end_le, hbuf⟩
  have hchild : fromChild e.trace = fromChild c.trace := by
    rw [he]
    exact hec.trans h.child
  obtain ⟨h1, h2⟩ := cut_ne env hn hloc (by rw [he]; exact h.method) (by rw [he]; exact h.version) hok
    (by rw [he]; exact h.line) hchild hlook (.inl h.missing)
  exact ⟨h1, ⟨fun ho => ho.found h.got hend h.missing, h2⟩, hfile⟩

/-- One call of `read_from_pipe` before the header was found. -/
lemma Request.Waits.read (env : Env) {d : Request} {m : ℕ} (h : d.Waits c out m)
    (hn : firstBlank out = some n) (hloc : ¬ startsWithCase (text "Location: ") out) (r : PipeRead)
    {got : ReadRes} (hfile : d.file = [r.answer (out.drop m)])
    (hgot : got = (r.answer (out.drop m)).fit (bufferSize + 1 - d.headerEnd.off)) :
    ((d.readFromPipe env).2 ≠ .done ∧ (d.readFromPipe env).1.file = [] ∧ got ≠ .eof ∧
        (d.readFromPipe env).1.Waits c out (m + got.bytes.length)) ∨
      ((d.readFromPipe env).2 ≠ .done ∧ (d.readFromPipe env).1.file = [] ∧ got ≠ .eof ∧
        (d.readFromPipe env).1.Passes c out (m + got.bytes.length)) ∨
      ((d.readFromPipe env).2 = .done ∧ (d.readFromPipe env).1.Cut c out) := by
  have hlast : d.headerEnd.off = bufferSize / 2 + m := by rw [h.last]
  have hroom := h.room
  have hhalf : bufferSize / 2 ≤ bufferSize := by decide
  unfold headRoom at hroom
  have hnext : d.nextFile (bufferSize + 1 - d.headerEnd.off) = got := by
    rw [nextFile, hfile, hgot]
    rfl
  have hpop : d.popFile.Waits c out m := h.with d.sock { d.toLink with file := d.file.tail } d.keepalive
  have hempty : d.popFile.file = [] := by
    rw [popFile, hfile]
    rfl
  unfold readFromPipe
  dsimp only
  split
  · next hfull =>
    rw [if_pos h.mode]
    obtain ⟨h1, h2, -⟩ := h.over env hn hloc (.inr (by unfold headRoom; omega)) d.status .buffer rfl
    exact .inr (.inr ⟨h1, h2⟩)
  · next hspace =>
    split
    · next he =>
      rw [hnext] at he
      exact .inl ⟨by simp, hempty, by simp [he], by simpa [he, ReadRes.bytes] using hpop⟩
    · next he =>
      rw [hnext] at he
      exact .inl ⟨by simp, hempty, by simp [he], by simpa [he, ReadRes.bytes] using hpop⟩
    · next he =>
      rw [hnext, hgot] at he
      exact absurd he (r.fit_ne_err _ _)
    · next he =>
      rw [hnext, hgot] at he
      have hrest := PipeRead.fit_eof (by omega) he
      have hm : m = out.length := by
        have h1 := h.got
        have h2 := congrArg List.length hrest
        rw [List.length_drop, List.length_nil] at h2
        omega
      obtain ⟨h1, h2, -⟩ := hpop.over env hn hloc (.inl hm) .pipeWrite .done rfl
      rw [pokeNul_set] at h1 h2
      unfold pipeEof
      dsimp only
      rw [if_pos hpop.mode]
      exact .inr (.inr ⟨h1, h2⟩)
    · next bs he =>
      rw [hnext] at he
      subst he
      have hsplit := r.fit_answer (out.drop m) (bufferSize + 1 - d.headerEnd.off)
      rw [← hgot] at hsplit
      have hbs := (fit_data hgot.symm).1
      obtain ⟨hf, hcase⟩ := hpop.data env hn hloc ⟨_, hsplit⟩
        (by show m + bs.length ≤ headRoom; unfold headRoom; omega)
      rw [hempty] at hf
      exact hcase.imp (fun h => ⟨h.1, hf, by simp, h.2⟩)
        (Or.imp_left fun h => ⟨h.1, hf, by simp, h.2⟩)

/-- One round keeps track of the header. -/
lemma HeadPhase.step {s : Relay} (hs : HeadPhase c out s) (hn : firstBlank out = some n)
    (hloc : ¬ startsWithCase (text "Location: ") out) (r : RelayRound) : HeadPhase c out (s.step r) := by
  cases hs with
  | waits ret eof rest waits =>
    rename_i m
    unfold Relay.step
    rw [if_neg ret]
    dsimp only
    generalize henv : ({ r.env with file := [r.read.answer s.rest], sock := [r.write] } : Env) = env
    generalize hgot : (r.read.answer s.rest).fit (bufferSize + 1 - s.req.headerEnd.off) = got
    have harm : (s.req.arm env).Waits c out m :=
      waits.with env.sock (s.req.arm env).toLink s.req.keepalive
    have hfile : (s.req.arm env).file = [r.read.answer (out.drop m)] := by
      rw [← henv, ← rest]
      rfl
    have hserve : s.req.serveOnce env = (s.req.arm env).readFromPipe env := by
      obtain ⟨-, hs⟩ | ⟨hw, -⟩ := Request.serveOnce_relaying env (.inl waits.status) waits.empty
      · exact hs
      · rw [waits.status] at hw
        cases hw
    have hread := harm.read env hn hloc r.read hfile (show got = _ by rw [← hgot, rest]; rfl)
    rw [hserve]
    generalize (s.req.arm env).readFromPipe env = p at hread ⊢
    obtain ⟨k, hk⟩ := p.1.heedSigterm_eq r.env
    rw [hk]
    have hbeq : got ≠ .eof → (got == .eof) = false := beq_eq_false_iff_ne.mpr
    obtain ⟨h1, h2, h3, h4⟩ | ⟨h1, h2, h3, h4⟩ | ⟨h1, h2⟩ := hread
    · rw [if_pos (by exact h2), eof, hbeq h3, rest, List.drop_drop]
      exact .waits h1 rfl rfl (h4.with p.1.sock p.1.toLink k)
    · rw [if_pos (by exact h2), eof, hbeq h3, rest, List.drop_drop]
      have hr := h4.relaying
      refine .passes h4.status h4.found ⟨?_, ?_, .inr h4.ready, by simp, fun hd => absurd hd h1, ?_⟩ ?_
      · exact ⟨hr.piped, hr.mode, hr.area, hr.le, hr.bound, hr.size, hr.empty⟩
      · show sentBytes p.1.trace ++ p.1.cgiText ++ _ = _
        rw [h4.sent, h4.held, List.append_assoc, rewritten_take_append h4.low]
      · show _ <+: sentBytes p.1.trace
        rw [h4.sent]
      · show fromChild p.1.trace ++ _ = _
        rw [h4.child, List.append_assoc, rewritten_take_append h4.low]
    · exact .cut h1 ⟨h2.only, h2.child⟩
  | passes status found ok child =>
    exact .passes status found (ok.step r) ((Relay.step_child ok.relaying r).trans child)
  | cut ret cut =>
    have hstay : s.step r = s := if_pos ret
    rw [hstay]
    exact .cut ret cut

lemma HeadPhase.run {s : Relay} (hs : HeadPhase c out s) (hn : firstBlank out = some n)
    (hloc : ¬ startsWithCase (text "Location: ") out) (rounds : List RelayRound) :
    HeadPhase c out (rounds.foldl Relay.step s) := by
  induction rounds generalizing s with
  | nil => exact hs
  | cons r rounds ih => exact ih (hs.step hn hloc r)

end HeadPhase

lemma rewritten_take_inj {out : Bytes} {n : ℕ} (hn : firstBlank out = some n)
    (hs : startsWithCase (text "Status: ") out) (h : rewritten out = rewritten (out.take n)) :
    n = out.length := by
  obtain ⟨h1, h2, -⟩ := firstBlank_le hn
  have h8 := cgiNames.2.1
  have hlf : lf ∉ (text "Status: ").map tolower := by decide +kernel
  -- the header does not end inside the name of its first field
  have hlow : 8 ≤ n - 1 := by
    by_contra hlt
    refine hlf ?_
    rw [← beq_iff_eq.mp hs, h8]
    refine List.mem_map.mpr ⟨lf, List.mem_of_getElem? (i := n - 1) ?_, by decide⟩
    rw [List.getElem?_take_of_lt (by omega), h2]
  have hlen := congrArg List.length (List.append_cancel_left h)
  rw [List.length_drop, List.length_drop, List.length_take_of_le h1] at hlen
  omega

/-- A HEAD request for a CGI gets the header of the child if and only if the child gives
the status, ends its output with the header and the server can see its end. -/
theorem head_answered {c : Request} (h : c.HeadStart) {out : Bytes} (hblank : firstBlank out ≠ none)
    (hloc : ¬ startsWithCase (text "Location: ") out) (rounds : List RelayRound) :
    let s := rounds.foldl Relay.step { req := c, rest := out }
    s.ret = .done → (HeadAnswered c s.req out ↔ HeadOnly out) := by
  obtain ⟨n, hn⟩ := Option.ne_none_iff_exists'.mp hblank
  have hinit : HeadPhase c out { req := c, rest := out } := .waits (by simp) rfl rfl (h.waits out)
  have hrun := hinit.run hn hloc rounds
  intro s hret
  cases hrun with
  | waits ret => exact absurd hret ret
  | cut ret cut => exact ⟨fun ha => absurd ha.child cut.child, fun ho => absurd ho cut.only⟩
  | passes status found ok child =>
    obtain ⟨heof, hnil⟩ := ok.finished hret
    have hrest := ok.drained heof
    have hstream := ok.stream
    rw [hrest, List.append_nil, Request.relayed, hnil, List.append_nil] at hstream
    rw [hrest, List.append_nil] at child
    have hreply : headReply out = rewritten (out.take n) := by
      unfold headReply
      rw [hn]
      exact if_pos status
    constructor
    · intro ha
      obtain ⟨n', hn', hroom, hterm⟩ := found
      obtain rfl : n = n' := Option.some.inj (hn.symm.trans hn')
      have heq : n = out.length := by
        refine rewritten_take_inj hn status (List.append_cancel_left (child.symm.trans ?_))
        rw [ha.child, hreply]
      subst heq
      rw [List.take_length] at hterm
      exact ⟨status, hn, hroom, hterm⟩
    · intro ho
      have hall : headReply out = rewritten out := by
        obtain rfl : out.length = n := Option.some.inj (ho.blank.symm.trans hn)
        rw [hreply, List.take_length]
      refine ⟨by rw [hall]; exact child, [], ?_, by rw [if_pos status]⟩
      have hempty := ok.relaying.empty
      rw [hall, List.append_nil, hstream, Out.pending_eq_nil (by rw [hempty]; exact Nat.zero_le _),
        List.append_nil]

def headRequest : Request :=
  { status := .pipeRead, method := .head, httpVersion := .http10, cgiType := .cgi,
    headerLine := ⟨.buffer, bufferSize / 2⟩, headerEnd := ⟨.buffer, bufferSize / 2⟩,
    buffer := List.replicate (bufferSize + 1) 0 }

lemma headRequest_start : headRequest.HeadStart where
  status := rfl
  method := rfl
  version := by simp [headRequest]
  mode := rfl
  line := rfl
  last := rfl
  size := by simp [headRequest]
  start := rfl
  empty := rfl

/-- Pieces of ten bytes, all of which the client takes at once. -/
def headRounds : List RelayRound := List.replicate 6 ⟨tinyEnv, .chunk 9, .wrote 99, by simp⟩

theorem head_answered_status :
    HeadAnswered headRequest
      (headRounds.foldl Relay.step { req := headRequest, rest := text "Status: 200 OK\n\n" }).req
      (text "Status: 200 OK\n\n") := by
  have honly : HeadOnly (text "Status: 200 OK\n\n") :=
    ⟨by decide +kernel, by decide +kernel, by decide +kernel, by decide +kernel⟩
  refine (head_answered headRequest_start ?_ ?_ headRounds ?_).mpr honly
  · rw [honly.blank]
    simp
  · decide +kernel
  · decide +kernel

/-- The blank line behind a plain header does not reach the client. -/
theorem head_loses_blank_line :
    headRequest.HeadStart ∧ firstBlank (text "X: y\n\n") = some 6 ∧
      ¬ startsWithCase (text "Location: ") (text "X: y\n\n") ∧
      (headRounds.foldl Relay.step { req := headRequest, rest := text "X: y\n\n" }).ret = .done ∧
      fromChild (headRounds.foldl Relay.step { req := headRequest, rest := text "X: y\n\n" }).req.trace =
        text "X: y\n" ∧
      ¬ HeadAnswered headRequest
        (headRounds.foldl Relay.step { req := headRequest, rest := text "X: y\n\n" }).req
        (text "X: y\n\n") := by
  have hchild : fromChild
      (headRounds.foldl Relay.step { req := headRequest, rest := text "X: y\n\n" }).req.trace =
        text "X: y\n" := by decide +kernel
  refine ⟨headRequest_start, by decide +kernel, by decide +kernel, by decide +kernel, hchild,
    fun ha => ?_⟩
  have hreply := ha.child
  rw [hchild] at hreply
  have hne : text "X: y\n" ≠ fromChild headRequest.trace ++ headReply (text "X: y\n\n") := by decide +kernel
  exact hne hreply

end Boa
