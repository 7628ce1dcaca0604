import Boa.Body
import Boa.InFile

/-! The body of a response of several parts: whether the header of every part finds room
behind what is still in the buffer. -/
namespace Boa
open Memory History

/-! ### Text that fits and text that does not -/

/-- A call that writes a given text or nothing. -/
def Msg.plain : Msg → Bool
  | .raw _ | .ka _ | .len _ => true
  | _ => false

def Msg.bytes : Msg → Bytes
  | .raw bs => bs
  | _ => []

/-- What a sequence of such calls writes. -/
def msgText (ms : List Msg) : Bytes := ms.flatMap Msg.bytes

lemma msgText_append (ms ms' : List Msg) : msgText (ms ++ ms') = msgText ms ++ msgText ms' :=
  List.flatMap_append

/-- How often `req_write` found no room. -/
def lost (t : List Event) : ℕ := t.count .noRoom

lemma lost_snoc {t : List Event} {e : Event} (he : e ≠ .noRoom) : lost (t ++ [e]) = lost t :=
  History.count_snoc he

lemma lost_mono {K : Event → Prop} {t t' : List Event} (h : Adds K t t') : lost t ≤ lost t' := by
  obtain ⟨es, rfl, -⟩ := h
  rw [lost, lost, List.count_append]
  exact Nat.le_add_right _ _

namespace Out

variable {o : Out}

/-- `o'` is `o` with `bs` written behind it. -/
structure Wrote (o : Out) (bs : Bytes) (o' : Out) : Prop extends BufOk o' where
  status : o'.status = o.status
  sock : o'.sock = o.sock
  first : o'.bufferStart = o.bufferStart
  last : o'.bufferEnd = o.bufferEnd + bs.length
  out : produced o'.trace = produced o.trace ++ bs
  kept : lost o'.trace = lost o.trace

lemma Wrote.trans {o' o'' : Out} {bs bs' : Bytes} (h : Wrote o bs o') (h' : Wrote o' bs' o'') :
    Wrote o (bs ++ bs') o'' := by
  refine ⟨h'.toBufOk, h'.status.trans h.status, h'.sock.trans h.sock, h'.first.trans h.first, ?_, ?_,
    h'.kept.trans h.kept⟩
  · rw [h'.last, h.last, List.length_append, Nat.add_assoc]
  · rw [h'.out, h.out, List.append_assoc]

lemma writeMsg_wrote (hb : o.BufOk) (hs : ¬ .done < o.status) {m : Msg} (hm : m.plain)
    (hroom : o.bufferEnd + m.bytes.length ≤ bufferSize) : Wrote o m.bytes (o.writeMsg m) := by
  have hnote (e : Event) (he : e.quiet) (hne : e ≠ .noRoom) : Wrote o [] (o.log e) := by
    refine ⟨⟨hb.start_le, hb.end_le, hb.size⟩, rfl, rfl, rfl, rfl, ?_, lost_snoc hne⟩
    rw [List.append_nil, log, produced_snoc, he.1]
  cases m with
  | raw bs =>
    show Wrote o bs (o.reqWrite bs)
    by_cases hnil : bs = []
    · subst hnil
      exact ⟨by rw [reqWrite, if_pos (.inl rfl)]; exact hb, by simp [reqWrite], by simp [reqWrite],
        by simp [reqWrite], by simp [reqWrite], by simp [reqWrite], by simp [reqWrite]⟩
    · have he : o.reqWrite bs = o.append .queued bs := by
        unfold reqWrite
        rw [if_neg (by simp [hnil, hs]), if_neg (by exact not_lt.mpr hroom)]
      rw [he]
      refine ⟨append_bufOk hb _ ?_, rfl, rfl, rfl, rfl, ?_, lost_snoc (by simp)⟩
      · have : o.bufferEnd + bs.length ≤ bufferSize := hroom
        omega
      · simp [append, produce]
  | ka b =>
    have he : o.writeMsg (.ka b) = o.log (.kaPhrase b) := if_neg hs
    rw [he]
    exact hnote _ ⟨fun _ => rfl, rfl⟩ (by simp)
  | len n =>
    have he : o.writeMsg (.len n) = o.log (.contentLength n) := if_neg hs
    rw [he]
    exact hnote _ ⟨fun _ => rfl, rfl⟩ (by simp)
  | _ => simp [Msg.plain] at hm

/-- Text for which there is room is written. -/
lemma writes_wrote (hb : o.BufOk) (hs : ¬ .done < o.status) {ms : List Msg} (hms : ∀ m ∈ ms, m.plain)
    (hroom : o.bufferEnd + (msgText ms).length ≤ bufferSize) : Wrote o (msgText ms) (o.writes ms) := by
  induction ms generalizing o with
  | nil => exact ⟨hb, rfl, rfl, rfl, rfl, (List.append_nil _).symm, rfl⟩
  | cons m ms ih =>
    have htext : msgText (m :: ms) = m.bytes ++ msgText ms := rfl
    rw [htext, List.length_append] at hroom
    have h1 := writeMsg_wrote hb hs (hms m (by simp)) (by omega)
    have h2 := ih h1.toBufOk (by rw [h1.status]; exact hs) (fun m' hm' => hms m' (by simp [hm']))
      (by rw [h1.last]; omega)
    exact h1.trans h2

/-- Text for which there is no room kills the request. -/
lemma writes_lost (hb : o.BufOk) (hs : ¬ .done < o.status) {ms : List Msg} (hms : ∀ m ∈ ms, m.plain)
    (hroom : bufferSize < o.bufferEnd + (msgText ms).length) :
    lost o.trace < lost (o.writes ms).trace ∧ (o.writes ms).status = .dead := by
  induction ms generalizing o with
  | nil =>
    have hend := hb.end_le
    have hlen : (msgText []).length = 0 := rfl
    omega
  | cons m ms ih =>
    have htext : msgText (m :: ms) = m.bytes ++ msgText ms := rfl
    rw [htext, List.length_append] at hroom
    have hm := hms m (by simp)
    by_cases hfit : o.bufferEnd + m.bytes.length ≤ bufferSize
    · have h1 := writeMsg_wrote hb hs hm hfit
      have h2 := ih h1.toBufOk (by rw [h1.status]; exact hs) (fun m' hm' => hms m' (by simp [hm']))
        (by rw [h1.last]; omega)
      rwa [h1.kept] at h2
    · have hend := hb.end_le
      have hdead : o.writeMsg m = { o.log .noRoom with status := .dead } := by
        cases m with
        | raw bs =>
          have hne : bs ≠ [] := by
            rintro rfl
            exact hfit (by simpa [Msg.bytes] using hend)
          show o.reqWrite bs = _
          unfold reqWrite
          rw [if_neg (by simp [hne, hs]), if_pos (by exact not_le.mp hfit)]
        | _ => exact absurd (by simpa [Msg.bytes] using hend) hfit
      have hrest : Replies (fun _ => True) (fun _ => True) (o.writeMsg m) ((o.writeMsg m).writes ms) :=
        writes_replies _ ms (fun _ _ => trivial) fun _ _ => trivial
      have hmore := lost_mono hrest.adds
      rw [hdead] at hrest hmore
      have hone : lost (o.trace ++ [.noRoom]) = lost o.trace + 1 := by simp [lost]
      refine ⟨?_, ?_⟩
      · have hstep : lost (o.trace ++ [.noRoom]) ≤ _ := hmore
        rw [hone] at hstep
        show lost o.trace < lost ((o.writeMsg m).writes ms).trace
        rw [hdead]
        exact hstep
      · show ((o.writeMsg m).writes ms).status = .dead
        rw [hdead]
        exact hrest.status.elim id id

end Out

/-! ### The parts -/

/-- The separator in front of a part and its header. -/
def Request.partHead (env : Env) (c : Request) (r : Range) : Bytes :=
  text "\r\n--THIS_STRING_SEPARATES\r\n" ++ msgText (c.printContentType env) ++
    text "Content-Range: bytes " ++ simpleItoa r.start ++ text "-" ++ simpleItoa r.stop ++
    text "/" ++ simpleItoa c.filesize ++ crlf ++ crlf

def closingSeparator : Bytes := text "\r\n--THIS_STRING_SEPARATES--\r\n"

lemma closingSeparator_fits : closingSeparator.length ≤ bufferSize := by decide +kernel

/-- The body of a response with a part of `D` for each range. -/
def partsText (head : Range → Bytes) (D : Bytes) : List Range → Bytes
  | [] => closingSeparator
  | r :: rest => head r ++ slice D r.start (r.stop + 1) ++ partsText head D rest

/-- Behind the body bytes of each part that are still in the buffer there is room for the
header of the next one. -/
def PartsFit (held : Range → ℕ) (head : Range → Bytes) : List Range → Prop
  | r :: q :: rest => held r + (head q).length ≤ bufferSize ∧ PartsFit held head (q :: rest)
  | _ => True

/-- How the file goes to the client. -/
inductive Way
  | mapped | sendfile | shuffle

/-- What is in the buffer when the last byte of a range has been taken: `io_shuffle` reads
all but 256 bytes of a buffer at a time, the other two ways do not use it. -/
def Way.held : Way → Range → ℕ
  | .shuffle, r => (r.bytes - 1) % (bufferSize - 256) + 1
  | _, _ => 0

/-- The request is on this way with the file `D`. -/
def Way.On (cfg : Config) (D : Bytes) (c : Request) : Way → Prop
  | .mapped => c.status = .write ∧ c.dataMem = some D
  | .sendfile => c.status = .ioShuffle ∧ c.dataFd ≠ 0 ∧ cfg.haveSendfile
  | .shuffle => c.status = .ioShuffle ∧ c.dataFd ≠ 0 ∧ ¬ cfg.haveSendfile

/-- How many bytes are still to be sent. -/
def bytesLeft (rs : List Range) : ℕ := (rs.map fun r => r.stop + 1 - r.start).sum

/-- The next `k` writes on the socket take all they are given. -/
def Accepts (k : ℕ) (sock : List WriteRes) : Prop :=
  k ≤ sock.length ∧ ∀ w ∈ sock, ∃ n, w = .wrote n ∧ maxFileMmap ≤ n

lemma Accepts.mono {k k' : ℕ} {sock : List WriteRes} (h : Accepts k sock) (hk : k' ≤ k) : Accepts k' sock :=
  ⟨hk.trans h.1, h.2⟩

lemma Accepts.next {k : ℕ} {o : Out} (h : Accepts (k + 1) o.sock) :
    ∃ n, o.nextWrite = .wrote n ∧ maxFileMmap ≤ n ∧ Accepts k o.sock.tail := by
  obtain ⟨hlen, hall⟩ := h
  unfold Out.nextWrite
  cases hs : o.sock with
  | nil => simp [hs] at hlen
  | cons w ws =>
    rw [hs] at hlen hall
    obtain ⟨n, rfl, hn⟩ := hall w (by simp)
    exact ⟨n, rfl, hn, Nat.le_of_succ_le_succ hlen, fun w' hw' => hall w' (List.mem_of_mem_tail hw')⟩

/-- Everything in the buffer is sent. -/
structure Out.Drained (o o' : Out) : Prop extends BufOk o' where
  empty : o'.bufferEnd = 0
  status : o'.status = o.status
  out : produced o'.trace = produced o.trace
  kept : lost o'.trace = lost o.trace

/-- On a socket that accepts everything `req_flush` empties the buffer. -/
lemma Out.reqFlush_drained {o : Out} (hb : o.BufOk) (hs : ¬ .done < o.status) {k : ℕ}
    (hacc : Accepts (k + 1) o.sock) :
    Drained o o.reqFlush.1 ∧ o.reqFlush.2 = .left 0 ∧ Accepts k o.reqFlush.1.sock := by
  obtain ⟨n, hn, hbig, htail⟩ := hacc.next
  have hstart := hb.start_le
  have hend := hb.end_le
  have hsettle (p : Out) (he : p.bufferStart = p.bufferEnd) :
      p.settle = { p with bufferStart := 0, bufferEnd := 0 } := if_pos he
  obtain ⟨-, hlate⟩ | ⟨-, hp, he⟩ | ⟨-, -, hw, -⟩ | ⟨-, -, hw, -⟩ | ⟨-, -, n', hw, he⟩ := reqFlush_cases o hb
  · exact absurd hlate hs
  · have hlen := pending_length hb
    rw [hp, List.length_nil] at hlen
    rw [he, hsettle o (by omega)]
    exact ⟨⟨⟨le_rfl, Nat.zero_le _, hb.size⟩, rfl, rfl, rfl, rfl⟩, rfl, hacc.mono (Nat.le_succ k)⟩
  · rw [hn] at hw
    cases hw
  · rw [hn] at hw
    simp at hw
  · rw [hn] at hw
    cases hw
    have hmax : maxFileMmap = 102400 := rfl
    have hbuf : bufferSize = 4096 := rfl
    have hall : (o.accept (min n (o.bufferEnd - o.bufferStart))).bufferStart =
        (o.accept (min n (o.bufferEnd - o.bufferStart))).bufferEnd := by
      show o.bufferStart + min n (o.bufferEnd - o.bufferStart) = o.bufferEnd
      omega
    rw [he, hsettle _ hall]
    refine ⟨⟨⟨le_rfl, Nat.zero_le _, hb.size⟩, rfl, rfl, ?_, lost_snoc nofun⟩, rfl, htail⟩
    simp [accept, produce]

lemma partHead_eq {env : Env} {c : Request} (h : 1 < c.numranges) (r : Range) :
    msgText (c.printPartialContentContinue env r ++ [.raw crlf]) = c.partHead env r := by
  unfold Request.printPartialContentContinue Request.partHead Request.printContentRange
  rw [if_pos h]
  simp [msgText, Msg.bytes]

lemma printContentType_plain (env : Env) (c : Request) : ∀ m ∈ c.printContentType env, m.plain := by
  unfold Request.printContentType
  dsimp only
  cases env.cfg.defaultCharset with
  | none => simp [Msg.plain]
  | some cs => by_cases h : startsWithCase (text "text") (getMimeType env.cfg c.requestUri) <;> simp [h, Msg.plain]

lemma partHead_plain (env : Env) (c : Request) (r : Range) :
    ∀ m ∈ c.printPartialContentContinue env r ++ [.raw crlf], m.plain := by
  unfold Request.printPartialContentContinue Request.printContentRange
  intro m hm
  simp only [List.mem_append] at hm
  obtain ((hm | hm) | hm) | hm := hm
  · split_ifs at hm <;> simp at hm
    rw [hm]
    rfl
  · exact printContentType_plain env c m hm
  all_goals
    simp at hm
    obtain rfl | rfl | rfl | rfl | rfl | rfl | rfl := hm <;> rfl

/-- A round in which the socket accepts everything and no call fails. -/
structure Env.Open (cfg : Config) (D : Bytes) (env : Env) (c : Request) : Prop where
  cfg : env.cfg = cfg
  sock : Accepts 3 env.sock
  sigbus : env.sigbus = false
  bufsize : 0 < env.systemBufsize
  disk : c.status = .ioShuffle → env.lseekOk = true ∧ ∀ r ∈ c.ranges.head?,
    env.file.head? = some (.data (D.drop r.start)) ∧ env.sendfile.head? = some (.sent (D.drop r.start))

/-- The state of a response of several parts between two calls: `r` is being sent and `rest`
is to follow. `whole` is all the response text and `n` the writes lost before. -/
structure Sending (w : Way) (cfg : Config) (D : Bytes) (head : Range → Bytes) (whole : Bytes) (n : ℕ)
    (c : Request) (r : Range) (rest : List Range) : Prop extends Out.BufOk c.toOut where
  method : c.method = .get
  multi : c.responseStatus = 206 ∧ 1 < c.numranges
  heads : ∀ env : Env, env.cfg = cfg → ∀ q, c.partHead env q = head q
  kept : lost c.trace = n
  way : w.On cfg D c
  ranges : c.ranges = r :: rest
  le : r.start ≤ r.stop + 1 ∧ r.stop < D.length
  inside : ∀ q ∈ rest, q.start ≤ q.stop ∧ q.stop < D.length
  out : produced c.trace ++ slice D r.start (r.stop + 1) ++ partsText head D rest = whole

/-- All parts are with the client. -/
structure Sent (whole : Bytes) (n : ℕ) (c : Request) : Prop extends Out.BufOk c.toOut where
  status : c.status = .done
  empty : c.bufferEnd = 0
  kept : lost c.trace = n
  out : produced c.trace = whole

/-- Something was lost for lack of room. -/
structure Lost (n : ℕ) (c : Request) : Prop where
  lost : n < lost c.trace
  late : 6 ≤ c.status.rank

section Parts

variable {w : Way} {cfg : Config} {D : Bytes} {head : Range → Bytes} {whole : Bytes} {n m : ℕ}
  {c : Request} {r : Range} {rest : List Range} {env : Env} {fits : Prop}

/-- What a call leaves behind, when the parts fit if and only if `fits`. -/
def Parted (w : Way) (cfg : Config) (D : Bytes) (head : Range → Bytes) (whole : Bytes) (n : ℕ)
    (fits : Prop) (m : ℕ) (p : Request × Ret) : Prop :=
  (p.2 = .more ∧ ∃ q rest, Sending w cfg D head whole n p.1 q rest ∧ q.start ≤ q.stop ∧
      (fits ↔ PartsFit w.held head (q :: rest)) ∧ bytesLeft (q :: rest) ≤ m) ∨
    (p.2 = .more ∧ fits ∧ Sent whole n p.1) ∨ (¬ fits ∧ Lost n p.1)

lemma Way.On.of_status {d : Request} (h : w.On cfg D c) (hs : d.status = c.status)
    (hd : (d.dataMem, d.dataFd) = (c.dataMem, c.dataFd)) : w.On cfg D d := by
  obtain ⟨hm, hf⟩ := Prod.mk.injEq .. ▸ hd
  cases w <;> simp only [Way.On, hs, hm, hf] at h ⊢ <;> exact h

lemma Way.On.alive (h : w.On cfg D c) : ¬ .done < c.status ∧ c.status < .timedOut := by
  cases w with
  | mapped => rw [h.1]; decide
  | sendfile => rw [h.1]; decide
  | shuffle => rw [h.1]; decide

lemma Sending.alive (h : Sending w cfg D head whole n c r rest) : ¬ .done < c.status := h.way.alive.1

/-- The separator and header of the next part go out, or are lost. -/
lemma Sending.next {q : Range} (h : Sending w cfg D head whole n c r (q :: rest))
    (hend : r.start = r.stop + 1) (henv : env.cfg = cfg)
    (hfits : fits ↔ c.bufferEnd + (head q).length ≤ bufferSize ∧ PartsFit w.held head (q :: rest)) :
    Parted w cfg D head whole n fits (bytesLeft (q :: rest)) (c.completeResponse env) := by
  have hnil : slice D r.start (r.stop + 1) = [] := slice_eq_nil hend.ge
  obtain ⟨ms, he, htext, hplain⟩ : ∃ ms, c.completeResponse env =
      ({ c with ranges := q :: rest, toOut := c.toOut.writes ms }, .more) ∧ msgText ms = head q ∧
        ∀ m ∈ ms, m.plain := by
    refine ⟨c.printPartialContentContinue env q ++ [.raw crlf], ?_,
      (partHead_eq h.multi.2 q).trans (h.heads env henv q), partHead_plain env c q⟩
    unfold Request.completeResponse
    rw [h.ranges]
    dsimp only
    rw [if_pos h.multi]
    rfl
  rw [he]
  by_cases hroom : c.bufferEnd + (head q).length ≤ bufferSize
  · have hw := Out.writes_wrote h.toBufOk h.alive hplain (by rw [htext]; exact hroom)
    rw [htext] at hw
    have hq := h.inside q (by simp)
    refine .inl ⟨rfl, q, rest, ⟨hw.toBufOk, h.method, h.multi, h.heads, hw.kept.trans h.kept, ?_, rfl,
      ⟨hq.1.trans (Nat.le_succ _), hq.2⟩, fun q' hq' => h.inside q' (by simp [hq']), ?_⟩, hq.1,
      hfits.trans (and_iff_right hroom), le_rfl⟩
    · exact h.way.of_status hw.status rfl
    · show produced (c.toOut.writes ms).trace ++ _ ++ _ = _
      have hout := h.out
      rw [hnil, List.append_nil] at hout
      rw [hw.out, ← hout, partsText]
      simp only [List.append_assoc]
  · obtain ⟨h1, h2⟩ := Out.writes_lost h.toBufOk h.alive hplain (by rw [htext]; exact not_le.mp hroom)
    refine .inr (.inr ⟨fun hf => hroom (hfits.mp hf).1, ?_, ?_⟩)
    · rw [← h.kept]
      exact h1
    · show 6 ≤ (c.toOut.writes ms).status.rank
      rw [h2]
      decide

/-- The closing separator goes out. -/
lemma Sending.finish (h : Sending w cfg D head whole n c r []) (hend : r.start = r.stop + 1) (hfits : fits)
    (hroom : c.bufferEnd + closingSeparator.length ≤ bufferSize) (hacc : Accepts 1 c.sock) :
    Parted w cfg D head whole n fits m (c.completeResponse env) := by
  have hnil : slice D r.start (r.stop + 1) = [] := slice_eq_nil hend.ge
  have he : c.completeResponse env = ({ c with
      ranges := [], toOut := { c.toOut.writes Request.printPartialContentDone with status := .done }.reqFlush.1 },
      .more) := by
    unfold Request.completeResponse
    rw [h.ranges]
    dsimp only
    rw [if_pos h.multi]
    rfl
  have htext : msgText Request.printPartialContentDone = closingSeparator := List.append_nil _
  have hplain : ∀ m ∈ Request.printPartialContentDone, m.plain := by
    simp [Request.printPartialContentDone, Msg.plain]
  have hw := Out.writes_wrote h.toBufOk h.alive hplain (by rw [htext]; exact hroom)
  rw [htext] at hw
  have hd := (Out.reqFlush_drained (o := { c.toOut.writes Request.printPartialContentDone with status := .done })
    ⟨hw.start_le, hw.end_le, hw.size⟩ (show ¬ Status.done < .done by decide) (k := 0) (by rw [hw.sock]; exact hacc)).1
  rw [he]
  refine .inr (.inl ⟨rfl, hfits, hd.toBufOk, hd.status, hd.empty, hd.kept.trans (hw.kept.trans h.kept), ?_⟩)
  have hout := h.out
  rw [hnil, List.append_nil] at hout
  exact hd.out.trans (hw.out.trans hout)

lemma Parted.mono {m' : ℕ} {p : Request × Ret} (h : Parted w cfg D head whole n fits m p) (hm : m ≤ m') :
    Parted w cfg D head whole n fits m' p :=
  h.imp_left fun ⟨h1, q, rest, h2, h3, h4, h5⟩ => ⟨h1, q, rest, h2, h3, h4, h5.trans hm⟩

/-- `complete_response`, with what is held back still in the buffer. -/
lemma Sending.complete {q : Range} (h : Sending w cfg D head whole n c r rest) (hend : r.start = r.stop + 1)
    (henv : env.cfg = cfg) (hfits : fits ↔ PartsFit w.held head (q :: rest)) (hheld : w.held q = c.bufferEnd)
    (hroom : c.bufferEnd + closingSeparator.length ≤ bufferSize) (hacc : Accepts 1 c.sock)
    (hm : bytesLeft rest ≤ m) : Parted w cfg D head whole n fits m (c.completeResponse env) := by
  cases rest with
  | nil => exact h.finish hend (hfits.mpr trivial) hroom hacc
  | cons q' rest =>
    refine (h.next hend henv ?_).mono hm
    rw [← hheld]
    exact hfits

/-- The answers that are still due do not count. -/
lemma Sending.with (h : Sending w cfg D head whole n c r rest) (sock : List WriteRes) (link : Link)
    (hlink : link.requestUri = c.requestUri) :
    Sending w cfg D head whole n { c with sock := sock, toLink := link } r rest := by
  refine ⟨⟨h.start_le, h.end_le, h.size⟩, h.method, h.multi, fun env he q => ?_, h.kept,
    h.way.of_status rfl rfl, h.ranges, h.le, h.inside, h.out⟩
  rw [← h.heads env he q]
  unfold Request.partHead Request.printContentType
  rw [hlink]

lemma partsFit_congr {q : Range} (h : w.held q = w.held r) :
    PartsFit w.held head (q :: rest) ↔ PartsFit w.held head (r :: rest) := by
  cases rest with
  | nil => exact Iff.rfl
  | cons q' rest =>
    unfold PartsFit
    rw [h]

lemma bytesLeft_cons (r : Range) (rest : List Range) :
    bytesLeft (r :: rest) = r.stop + 1 - r.start + bytesLeft rest := rfl

lemma Range.bytes_of_le (h : r.start ≤ r.stop) (hstop : r.stop < 2 ^ 63) :
    r.bytes = r.stop + 1 - r.start := by
  unfold Range.bytes
  omega

/-- `k` bytes of the range go out past the buffer. -/
lemma Sending.sendDirect (h : Sending w cfg D head whole n c r rest) {k : ℕ} (hk : r.start + k ≤ r.stop + 1) :
    Sending w cfg D head whole n ((c.sendDirect (slice D r.start (r.start + k))).moveRange r rest k)
      { r with start := r.start + k } rest := by
  refine ⟨⟨h.start_le, h.end_le, h.size⟩, h.method, h.multi, h.heads, ?_, h.way.of_status rfl rfl, rfl,
    ⟨hk, h.le.2⟩, h.inside, ?_⟩
  · show lost ((c.trace ++ [.data _]) ++ [.sent _]) = n
    rw [lost_snoc (e := .sent _) nofun, lost_snoc (e := .data _) nofun, h.kept]
  · show produced ((c.trace ++ [.data _]) ++ [.sent _]) ++ slice D (r.start + k) (r.stop + 1) ++ _ = _
    rw [produced_snoc, produced_snoc, ← h.out, ← slice_append_slice (Nat.le_add_right r.start k) hk]
    simp only [produce, List.append_assoc]

/-- `process_get`. -/
lemma processGet_parted (h : Sending .mapped cfg D head whole n c r rest) (hlive : r.start ≤ r.stop)
    (hsize : D.length < 2 ^ 63) (h0 : c.bufferEnd = 0) (henv : env.cfg = cfg) (hbus : env.sigbus = false)
    (hbuf : 0 < env.systemBufsize) (hacc : Accepts 2 c.sock)
    (hfits : fits ↔ PartsFit (Way.held .mapped) head (r :: rest)) (hm : bytesLeft (r :: rest) ≤ m + 1) :
    Parted .mapped cfg D head whole n fits m (c.processGet env) := by
  obtain ⟨k, hk, hbig, htail⟩ := hacc.next
  obtain ⟨hle, hlt⟩ := h.le
  have hmax : maxFileMmap = 102400 := rfl
  have hbytes : r.bytes = r.stop + 1 - r.start := Range.bytes_of_le hlive (by omega)
  have hmem : c.dataMem = some D := h.way.2
  unfold Request.processGet
  rw [if_neg (by simp [h.method]), h.ranges]
  dsimp only
  rw [hbus, if_neg (by decide), hk, hmem, hbytes]
  dsimp only [Option.getD_some]
  generalize hj : min k (min (r.stop + 1 - r.start) env.systemBufsize) = j
  have hj1 : 1 ≤ j ∧ r.start + j ≤ r.stop + 1 := by omega
  have hpop : Sending .mapped cfg D head whole n c.popSock r rest := h.with c.sock.tail c.toLink rfl
  have hsent := hpop.sendDirect hj1.2
  rw [bytesLeft_cons] at hm
  have hroom : c.bufferEnd + closingSeparator.length ≤ bufferSize := by
    rw [h0, Nat.zero_add]
    exact closingSeparator_fits
  split_ifs with hall
  · exact hsent.complete (q := r) hall.symm henv hfits h0.symm hroom htail (by omega)
  · refine .inl ⟨rfl, _, rest, hsent, ?_, hfits.trans (partsFit_congr rfl), ?_⟩
    · show r.start + j ≤ r.stop
      omega
    · rw [bytesLeft_cons]
      show r.stop + 1 - (r.start + j) + _ ≤ m
      omega

lemma length_slice_of_lt {k : ℕ} (hk : r.start + k ≤ r.stop + 1) (hlt : r.stop < D.length) :
    (slice D r.start (r.start + k)).length = k := by
  rw [length_slice (by omega), Nat.add_sub_cancel_left]

/-- `io_shuffle_sendfile`. -/
lemma ioShuffleSendfile_parted (h : Sending .sendfile cfg D head whole n c r rest) (hlive : r.start ≤ r.stop)
    (hsize : D.length < 2 ^ 63) (h0 : c.bufferEnd = 0) (henv : env.cfg = cfg)
    (hbuf : 0 < env.systemBufsize) (hacc : Accepts 1 c.sock)
    (hdisk : c.sendfile.head? = some (.sent (D.drop r.start)))
    (hfits : fits ↔ PartsFit (Way.held .sendfile) head (r :: rest)) (hm : bytesLeft (r :: rest) ≤ m + 1) :
    Parted .sendfile cfg D head whole n fits m (c.ioShuffleSendfile env) := by
  obtain ⟨hle, hlt⟩ := h.le
  have hbytes : r.bytes = r.stop + 1 - r.start := Range.bytes_of_le hlive (by omega)
  have hoff : ∀ i, i ≤ r.stop + 1 → offNegative i = false := by
    intro i hi
    unfold offNegative
    simp only [Bool.not_eq_false', decide_eq_true_eq]
    omega
  unfold Request.ioShuffleSendfile
  rw [if_neg (by simp [h.method]), h.ranges]
  dsimp only
  rw [hbytes, hoff _ hle, if_neg (by omega), if_neg (by decide)]
  generalize hj : min (r.stop + 1 - r.start) env.systemBufsize = j
  have hj1 : 1 ≤ j ∧ r.start + j ≤ r.stop + 1 := by omega
  have hnext : c.nextSend j = .sent (slice D r.start (r.start + j)) := by
    unfold Request.nextSend
    cases hs : c.sendfile with
    | nil => simp [hs] at hdisk
    | cons s ss =>
      obtain rfl : s = .sent (D.drop r.start) := by simpa [hs] using hdisk
      rw [slice, Nat.add_sub_cancel_left]
      rfl
  have hlen := length_slice_of_lt hj1.2 hlt
  have hpop : Sending .sendfile cfg D head whole n c.popSend r rest :=
    h.with c.sock c.popSend.toLink rfl
  have hsent := hpop.sendDirect hj1.2
  rw [bytesLeft_cons] at hm
  have hroom : c.bufferEnd + closingSeparator.length ≤ bufferSize := by
    rw [h0, Nat.zero_add]
    exact closingSeparator_fits
  rw [hnext]
  have hne : slice D r.start (r.start + j) ≠ [] := List.ne_nil_of_length_pos (by omega)
  generalize slice D r.start (r.start + j) = bs at hlen hsent hne
  cases bs with
  | nil => exact absurd rfl hne
  | cons b bs =>
    dsimp only
    rw [hlen, hoff _ hj1.2, if_neg (by decide)]
    unfold Request.sentRange
    rw [hsent.ranges]
    dsimp only
    split_ifs with hall
    · exact hsent.complete (q := r) (by show r.start + j = r.stop + 1; omega) henv hfits h0.symm hroom hacc
        (by omega)
    · refine .inl ⟨rfl, _, rest, hsent, ?_, hfits.trans (partsFit_congr rfl), ?_⟩
      · show r.start + j ≤ r.stop
        omega
      · rw [bytesLeft_cons]
        show r.stop + 1 - (r.start + j) + _ ≤ m
        omega

/-- `k` bytes of the range go into the buffer. -/
lemma Sending.bufferData (h : Sending w cfg D head whole n c r rest) {k b : ℕ}
    (hk : r.start + k ≤ r.stop + 1) (hroom : c.bufferEnd + k ≤ bufferSize) {d : Request}
    (hd : d = { c.bufferData (slice D r.start (r.start + k)) with
      ranges := { r with start := r.start + k } :: rest, bytesWritten := b }) :
    Sending w cfg D head whole n d { r with start := r.start + k } rest ∧ d.bufferEnd = c.bufferEnd + k := by
  have hlen := length_slice_of_lt hk h.le.2
  subst hd
  refine ⟨⟨Out.append_bufOk h.toBufOk .data (by omega), h.method, h.multi, h.heads, ?_,
    h.way.of_status rfl rfl, rfl, ⟨hk, h.le.2⟩, h.inside, ?_⟩, congrArg (c.bufferEnd + ·) hlen⟩
  · show lost (c.trace ++ [.data _]) = n
    rw [lost_snoc (e := .data _) nofun, h.kept]
  · show produced (c.trace ++ [.data _]) ++ slice D (r.start + k) (r.stop + 1) ++ _ = _
    rw [produced_snoc, ← h.out, ← slice_append_slice (Nat.le_add_right r.start k) hk]
    simp only [produce, List.append_assoc]

/-- The `restartwrite` part of `io_shuffle` empties the buffer. -/
lemma Sending.shuffleWrite (h : Sending w cfg D head whole n c r rest) (hpos : c.bufferStart < c.bufferEnd)
    (hacc : Accepts 1 c.sock) :
    ∃ d, c.shuffleWrite = (d, .more) ∧ Sending w cfg D head whole n d r rest := by
  obtain ⟨k, hk, hbig, -⟩ := hacc.next
  have hend := h.end_le
  have hmax : maxFileMmap = 102400 := rfl
  have hbuf : bufferSize = 4096 := rfl
  have hrestart : c.restartWrite = c := by
    unfold Request.restartWrite
    rw [dropWhile_of_ne fun w hw => ?_]
    obtain ⟨n, rfl, -⟩ := hacc.2 w hw
    exact nofun
  unfold Request.shuffleWrite
  dsimp only
  rw [if_neg (by omega), hrestart, hk]
  dsimp only
  rw [if_pos (by omega)]
  have hpop := h.with c.sock.tail c.toLink rfl
  refine ⟨_, rfl, ⟨le_rfl, Nat.zero_le _, h.size⟩, h.method, h.multi, h.heads, ?_, h.way.of_status rfl rfl,
    h.ranges, h.le, h.inside, ?_⟩
  · show lost (c.trace ++ [.sent _]) = n
    rw [lost_snoc (e := .sent _) nofun, h.kept]
  · show produced (c.trace ++ [.sent _]) ++ _ ++ _ = _
    rw [produced_snoc]
    exact h.out

/-- `io_shuffle`. -/
lemma ioShuffle_parted (h : Sending .shuffle cfg D head whole n c r rest) (hlive : r.start ≤ r.stop)
    (hsize : D.length < 2 ^ 63) (h0 : c.bufferEnd = 0) (henv : env.cfg = cfg) (hseek : env.lseekOk = true)
    (hacc : Accepts 1 c.sock) (hdisk : c.file.head? = some (.data (D.drop r.start)))
    (hfits : fits ↔ PartsFit (Way.held .shuffle) head (r :: rest)) (hm : bytesLeft (r :: rest) ≤ m + 1) :
    Parted .shuffle cfg D head whole n fits m (c.ioShuffle env) := by
  obtain ⟨hle, hlt⟩ := h.le
  have hbuf : bufferSize = 4096 := rfl
  have hbytes : r.bytes = r.stop + 1 - r.start := Range.bytes_of_le hlive (by omega)
  obtain ⟨hstatus, hfd, -⟩ := h.way
  unfold Request.ioShuffle
  rw [if_neg (by simp [h.method]), h.ranges]
  dsimp only
  rw [h0, hbytes]
  generalize hj : min (bufferSize - 0 - 256) (r.stop + 1 - r.start) = j
  have hj1 : 1 ≤ j ∧ r.start + j ≤ r.stop + 1 := by omega
  have hlen := length_slice_of_lt hj1.2 hlt
  have hne : slice D r.start (r.start + j) ≠ [] := List.ne_nil_of_length_pos (by omega)
  obtain ⟨ss, hs⟩ : ∃ ss, c.file = .data (D.drop r.start) :: ss := by
    cases hs : c.file with
    | nil => simp [hs] at hdisk
    | cons s ss => exact ⟨ss, by rw [show s = .data (D.drop r.start) by simpa [hs] using hdisk]⟩
  have hrestart : c.restartRead = c := by
    unfold Request.restartRead
    rw [hs, List.dropWhile_cons_of_neg (by simp), ← hs]
  have hnext : c.nextFile j = .data (slice D r.start (r.start + j)) := by
    have htake : (D.drop r.start).take j = slice D r.start (r.start + j) := by
      rw [slice, Nat.add_sub_cancel_left]
    rw [Request.nextFile, hs]
    simp only [List.head?_cons, Option.getD_some, ReadRes.fit, htake]
    rw [if_neg hne]
  rw [if_pos ⟨by omega, hfd⟩]
  unfold Request.shuffleRead
  rw [if_neg (by simp [hseek]), hrestart]
  dsimp only
  rw [hnext]
  dsimp only
  rw [hlen]
  have hpop : Sending .shuffle cfg D head whole n c.popFile r rest := h.with c.sock c.popFile.toLink rfl
  obtain ⟨hsent, hlast⟩ := hpop.bufferData (b := c.bytesWritten) hj1.2
    (show c.bufferEnd + j ≤ bufferSize by omega) rfl
  have hlast : _ = 0 + j := h0 ▸ hlast
  have hclose : closingSeparator.length ≤ 256 := by decide +kernel
  have hchunk : bufferSize - 256 = 3840 := rfl
  rw [bytesLeft_cons] at hm
  split_ifs with hall
  · refine hsent.complete (q := r) hall.symm henv hfits ?_ ?_ hacc (by omega)
    · rw [hlast, Way.held, hbytes, hchunk]
      omega
    · rw [hlast]
      omega
  · have hstart := h.start_le
    obtain ⟨d, he, hd⟩ := hsent.shuffleWrite (by rw [hlast]; show c.bufferStart < 0 + j; omega) hacc
    have hparted : Parted .shuffle cfg D head whole n fits m (d, .more) := by
      refine .inl ⟨rfl, _, rest, hd, ?_, hfits.trans (partsFit_congr ?_), ?_⟩
      · show r.start + j ≤ r.stop
        omega
      · have hmore : Range.bytes { r with start := r.start + j } = r.stop + 1 - (r.start + j) :=
          Range.bytes_of_le (by show r.start + j ≤ r.stop; omega) (by show r.stop < 2 ^ 63; omega)
        rw [Way.held, Way.held, hbytes, hmore, hchunk]
        omega
      · rw [bytesLeft_cons]
        show r.stop + 1 - (r.start + j) + _ ≤ m
        omega
    rw [← he] at hparted
    exact hparted

/-- The flush at the top of a round empties the buffer. -/
lemma Sending.flushFirst (h : Sending w cfg D head whole n c r rest) (hacc : Accepts 3 c.sock) :
    ∃ o, c.flushFirst = ({ c with toOut := o }, .more) ∧
      Sending w cfg D head whole n { c with toOut := o } r rest ∧ o.bufferEnd = 0 ∧ Accepts 2 o.sock := by
  unfold Request.flushFirst
  split_ifs with hcond
  · obtain ⟨hd, hleft, hsock⟩ := Out.reqFlush_drained h.toBufOk h.alive (k := 2) hacc
    refine ⟨c.toOut.reqFlush.1, ?_, ⟨hd.toBufOk, h.method, h.multi, h.heads, hd.kept.trans h.kept,
      h.way.of_status hd.status rfl, h.ranges, h.le, h.inside, ?_⟩, hd.empty, hsock⟩
    · generalize c.toOut.reqFlush = p at hleft
      obtain ⟨o, fl⟩ := p
      obtain rfl : fl = .left 0 := hleft
      rfl
    · show produced c.toOut.reqFlush.1.trace ++ _ ++ _ = _
      rw [hd.out]
      exact h.out
  · refine ⟨c.toOut, rfl, h, ?_, hacc.mono (by omega)⟩
    by_contra h0
    exact hcond ⟨h0, h.way.alive.2⟩

/-- One round of the response. -/
lemma Sending.serveOnce (h : Sending w cfg D head whole n c r rest) (hlive : r.start ≤ r.stop)
    (hsize : D.length < 2 ^ 63) (he : env.Open cfg D c)
    (hfits : fits ↔ PartsFit w.held head (r :: rest)) (hm : bytesLeft (r :: rest) ≤ m + 1) :
    Parted w cfg D head whole n fits m (c.serveOnce env) := by
  have harm := h.with env.sock (c.arm env).toLink rfl
  obtain ⟨o, hflush, hd, h0, hsock⟩ := harm.flushFirst he.sock
  have hdisk := he.disk
  rw [h.ranges] at hdisk
  unfold Request.serveOnce
  rw [show c.arm env = { c with sock := env.sock, toLink := (c.arm env).toLink } from rfl, hflush]
  dsimp only
  unfold Request.handle
  have hway := hd.way
  cases w with
  | mapped =>
    rw [hway.1]
    exact processGet_parted hd hlive hsize h0 he.cfg he.sigbus he.bufsize hsock hfits hm
  | sendfile =>
    obtain ⟨-, hfile⟩ := hdisk h.way.1
    rw [hway.1]
    dsimp only
    rw [he.cfg, if_pos hway.2.2]
    exact ioShuffleSendfile_parted hd hlive hsize h0 he.cfg he.bufsize (hsock.mono (by decide))
      (hfile r rfl).2 hfits hm
  | shuffle =>
    obtain ⟨hseek, hfile⟩ := hdisk h.way.1
    rw [hway.1]
    dsimp only
    rw [he.cfg, if_neg hway.2.2]
    exact ioShuffle_parted hd hlive hsize h0 he.cfg hseek (hsock.mono (by decide)) (hfile r rfl).1 hfits hm

/-- Behind the last part the request ends. -/
lemma Sent.serveOnce (h : Sent whole n c) (env : Env) :
    Sent whole n (c.serveOnce env).1 ∧ (c.serveOnce env).2 = .done := by
  have hstart := h.start_le
  have h0 := h.empty
  have hflush : (c.arm env).flushFirst = (c.arm env, .more) := if_neg fun hb => hb.1 h0
  have hbytes : (c.arm env).toOut.bytesToWrite = 0 := by
    show (2 ^ 32 + c.bufferEnd - c.bufferStart) % 2 ^ 32 = 0
    omega
  have hlive : ¬ .done < (c.arm env).status := by
    show ¬ .done < c.status
    rw [h.status]
    decide
  have hreq : (c.arm env).toOut.reqFlush =
      ({ (c.arm env).toOut with bufferStart := 0, bufferEnd := 0 }, .left 0) := by
    have hsettle : (c.arm env).toOut.settle = { (c.arm env).toOut with bufferStart := 0, bufferEnd := 0 } :=
      if_pos (show c.bufferStart = c.bufferEnd by omega)
    unfold Out.reqFlush
    rw [if_neg hlive, if_neg (by simp [hbytes]), hsettle]
  unfold Request.serveOnce
  rw [hflush]
  dsimp only
  unfold Request.handle
  rw [show (c.arm env).status = .done from h.status]
  dsimp only
  unfold Request.processDone
  rw [hreq]
  exact ⟨⟨⟨le_rfl, Nat.zero_le _, h.size⟩, h.status, rfl, h.kept, h.out⟩, rfl⟩

lemma Lost.serveOnce (h : Lost n c) (env : Env) : Lost n (c.serveOnce env).1 := by
  have hlater : Later c (c.serveOnce env).1 := Request.serveOnce_later h.late
  exact ⟨h.lost.trans_le (lost_mono hlater.adds), hlater.late h.late⟩

/-! ### The first part -/

/-- What is in the buffer when the last byte of the first range has been taken, behind a
header of `l` bytes: a mapped file is copied next to it if more than 256 bytes are free. -/
def Way.firstHeld (l : ℕ) : Way → Range → ℕ
  | .mapped, r => if 256 < bufferSize - l ∧ l + r.bytes ≤ bufferSize then l + r.bytes else 0
  | w, r => w.held r

/-- The copy next to the header. -/
lemma Sending.startTransfer {q : Range} (h : Sending w cfg D head whole n c r (q :: rest))
    (hlive : r.start ≤ r.stop) (hsmall : w = .mapped → D.length ≤ maxFileMmap) (hsize : D.length < 2 ^ 63)
    (hmem : w ≠ .mapped → c.dataMem = none) (henv : env.cfg = cfg) (hbus : env.sigbus = false)
    (hfits : fits ↔ w.firstHeld c.bufferEnd r + (head q).length ≤ bufferSize ∧
      PartsFit w.held head (q :: rest)) :
    Parted w cfg D head whole n fits (bytesLeft (r :: q :: rest)) (c.startTransfer env) := by
  obtain ⟨hle, hlt⟩ := h.le
  have hmax : maxFileMmap = 102400 := rfl
  have hend := h.end_le
  have hbytes : r.bytes = r.stop + 1 - r.start := Range.bytes_of_le hlive (by omega)
  have hidle (hheld : w.firstHeld c.bufferEnd r = w.held r) :
      Parted w cfg D head whole n fits (bytesLeft (r :: q :: rest)) (c, .more) := by
    rw [hheld] at hfits
    exact .inl ⟨rfl, r, q :: rest, h, hlive, hfits, le_rfl⟩
  unfold Request.startTransfer Request.firstChunk
  rw [if_neg (by simp [h.method]), h.ranges]
  cases w with
  | mapped =>
    have hfile := hsmall rfl
    rw [h.way.2]
    dsimp only
    rw [hbytes, Nat.mod_eq_of_lt (by omega), hbus]
    generalize hj : min (bufferSize - c.bufferEnd) (r.stop + 1 - r.start) = j
    by_cases hfree : 256 < bufferSize - c.bufferEnd
    · rw [if_pos hfree, if_neg (by decide)]
      obtain ⟨hsent, hlast⟩ := h.bufferData (k := j) (b := c.bytesWritten + j) (by omega) (by omega) rfl
      split_ifs with hall
      · -- all of the first range is in the buffer
        have hheld : Way.firstHeld c.bufferEnd .mapped r = c.bufferEnd + j := by
          rw [Way.firstHeld, hbytes, if_pos ⟨hfree, by omega⟩, hall]
        rw [hheld, ← hlast] at hfits
        refine (hsent.next ?_ henv hfits).mono ?_
        · show r.start + j = r.stop + 1
          omega
        · rw [bytesLeft_cons r]
          exact Nat.le_add_left _ _
      · have hheld : Way.firstHeld c.bufferEnd .mapped r = 0 := by
          rw [Way.firstHeld, hbytes, if_neg (by omega)]
        rw [hheld] at hfits
        refine .inl ⟨rfl, _, q :: rest, hsent, ?_, hfits, ?_⟩
        · show r.start + j ≤ r.stop
          omega
        · rw [bytesLeft_cons, bytesLeft_cons r]
          show r.stop + 1 - (r.start + j) + _ ≤ _
          omega
    · rw [if_neg hfree]
      exact hidle (if_neg fun hc => hfree hc.1)
  | sendfile =>
    rw [hmem nofun]
    exact hidle rfl
  | shuffle =>
    rw [hmem nofun]
    exact hidle rfl

end Parts

/-! ### The whole response -/

/-- The request while it writes the header of the response. -/
def Request.answering (c : Request) (f : File) : Request :=
  { c with filesize := f.size, lastModified := f.mtime, responseStatus := 206 }

/-- The header of the response, up to the first separator. -/
def Request.partialContentHead (env : Env) (c : Request) : Bytes :=
  msgText (c.statusLine " 206 Partial Content\r\n" ++ c.printHttpHeaders env ++ c.printLastModified env) ++
    text "Content-Type: multipart/byteranges; boundary=THIS_STRING_SEPARATES\r\n" ++ crlf

def Way.of (env : Env) (f : File) : Way :=
  if maxFileMmap < f.size ∨ !env.mapped then (if env.cfg.haveSendfile then .sendfile else .shuffle)
  else .mapped

/-- The header fits into the buffer, and so does the header of each further part behind
what is there of the part before. -/
def PartsRoom (w : Way) (l : ℕ) (head : Range → Bytes) : List Range → Prop
  | r :: q :: rest => l + (head r).length ≤ bufferSize ∧
      w.firstHeld (l + (head r).length) r + (head q).length ≤ bufferSize ∧
      PartsFit w.held head (q :: rest)
  | _ => False

/-- A GET that has answered nothing yet, for two or more ranges of the file `f`. -/
structure AsksParts (f : File) (c : Request) : Prop extends Out.BufOk c.toOut where
  method : c.method = .get
  status : c.status = .write
  empty : c.bufferEnd = 0
  unmapped : c.dataMem = none
  counted : c.Counted
  parts : 2 ≤ (fixupRanges f.size c.ranges).length

/-- The rounds of the request from `r₀` on. -/
inductive OpenRounds (cfg : Config) (D : Bytes) (r₀ : Request × Ret) : ℕ → Request × Ret → Prop
  | start : OpenRounds cfg D r₀ 0 r₀
  | serve {n : ℕ} {r : Request × Ret} (h : OpenRounds cfg D r₀ n r) (hr : r.2 ≠ .done) (env : Env)
      (he : env.Open cfg D r.1) :
      OpenRounds cfg D r₀ (n + 1) ((r.1.serveOnce env).1.heedSigterm env, (r.1.serveOnce env).2)

/-- `d` has produced the header and every part, and nothing was lost. -/
structure PartsSent (env : Env) (c : Request) (f : File) (d : Request) : Prop where
  kept : lost d.trace = lost c.trace
  body : produced d.trace = produced c.trace ++ (c.answering f).partialContentHead env ++
    partsText ((c.answering f).partHead env) f.data (fixupRanges f.size c.ranges)

section Whole

variable {w : Way} {cfg : Config} {D : Bytes} {head : Range → Bytes} {whole : Bytes} {n m : ℕ}
  {c : Request} {r : Range} {rest : List Range} {env : Env} {fits : Prop} {f : File}

lemma partHead_congr {env' : Env} {d : Request} (he : env'.cfg = env.cfg) (hu : d.requestUri = c.requestUri)
    (hs : d.filesize = c.filesize) (q : Range) : d.partHead env' q = c.partHead env q := by
  unfold Request.partHead Request.printContentType
  rw [he, hu, hs]

lemma printHttpHeaders_plain (env : Env) (c : Request) : ∀ m ∈ c.printHttpHeaders env, m.plain := by
  unfold Request.printHttpHeaders Request.printKaPhrase
  cases env.cfg.hstsHeader <;> split_ifs <;> simp [Msg.plain]

/-- The text `send_r_partial_content` writes. -/
lemma sendRPartialContent_text {e : Request} (hnum : 1 < e.numranges) (r : Range) :
    ∃ ms, e.sendRPartialContent env r = { e with responseStatus := 206 }.writes ms ∧
      (∀ m ∈ ms, m.plain) ∧
      msgText ms = ({ e with responseStatus := 206 } : Request).partialContentHead env ++ e.partHead env r := by
  generalize hd : ({ e with responseStatus := 206 } : Request) = d
  have hnum' : 1 < d.numranges := by
    rw [← hd]
    exact hnum
  refine ⟨d.statusLine " 206 Partial Content\r\n" ++ d.printHttpHeaders env ++ d.printLastModified env ++
    [.raw (text "Content-Type: multipart/byteranges; boundary=THIS_STRING_SEPARATES\r\n"), .raw crlf] ++
    (d.printPartialContentContinue env r ++ [.raw crlf]), ?_, ?_, ?_⟩
  · unfold Request.sendRPartialContent
    rw [hd]
    dsimp only
    rw [if_pos hnum', List.append_assoc _ (d.printPartialContentContinue env r)]
  · intro m hm
    simp only [List.mem_append] at hm
    obtain ((((hm | hm) | hm) | hm) | hm) := hm
    · simp only [Request.statusLine, List.mem_cons, List.not_mem_nil, or_false] at hm
      obtain rfl | rfl := hm <;> rfl
    · exact printHttpHeaders_plain env d m hm
    · simp only [Request.printLastModified, List.mem_singleton] at hm
      rw [hm]
      rfl
    · simp only [List.mem_cons, List.not_mem_nil, or_false] at hm
      obtain rfl | rfl := hm <;> rfl
    · exact partHead_plain env d r m (List.mem_append.mpr hm)
  · rw [msgText_append, partHead_eq hnum', msgText_append, Request.partialContentHead, ← hd]
    simp only [msgText, List.flatMap_cons, List.flatMap_nil, Msg.bytes, List.append_assoc, List.append_nil]
    rfl

/-- What `d` has when its file is attached. -/
structure Attached (env : Env) (f : File) (d e : Request) : Prop extends Out.BufOk e.toOut where
  way : (Way.of env f).On env.cfg f.data e
  small : Way.of env f = .mapped → f.data.length ≤ maxFileMmap
  unmapped : Way.of env f ≠ .mapped → e.dataMem = none
  fixed : (e.method, e.numranges, e.ranges, e.requestUri, e.filesize, e.bufferEnd) =
    (d.method, d.numranges, d.ranges, d.requestUri, d.filesize, d.bufferEnd)
  out : produced e.trace = produced d.trace
  kept : lost e.trace = lost d.trace
  head : ({ e with responseStatus := 206 } : Request).partialContentHead env =
    ({ d with responseStatus := 206 } : Request).partialContentHead env

lemma attachData_attached {d : Request} (hb : d.toOut.BufOk) (hs : d.status = .write)
    (hmem : d.dataMem = none) (hsize : d.filesize = f.size) : Attached env f d (d.attachData env f) := by
  have hfd := f.fd_gt
  unfold Request.attachData
  split_ifs with hlarge <;> rw [hsize] at hlarge
  · have hway : Way.of env f = if env.cfg.haveSendfile then .sendfile else .shuffle := if_pos hlarge
    refine ⟨⟨hb.start_le, hb.end_le, hb.size⟩, ?_, fun hm => ?_, fun _ => hmem, rfl, rfl, rfl, rfl⟩
    · rw [hway]
      split_ifs with hsend
      · exact ⟨rfl, by show f.fd ≠ 0; omega, hsend⟩
      · exact ⟨rfl, by show f.fd ≠ 0; omega, hsend⟩
    · rw [hway] at hm
      split_ifs at hm
  · have hway : Way.of env f = .mapped := if_neg hlarge
    refine ⟨⟨hb.start_le, hb.end_le, hb.size⟩, ?_, fun _ => ?_, fun hm => absurd hway hm, rfl, ?_,
      lost_snoc (e := .closed f.fd) nofun, rfl⟩
    · rw [hway]
      exact ⟨hs, rfl⟩
    · exact not_lt.mp fun hlt => hlarge (.inl hlt)
    · exact produced_snoc _ _

/-- The response starts with its header, and with the first part if the file is mapped. -/
lemma AsksParts.starts (h : AsksParts f c) (hmod : c.notModified env f = false) (hbus : env.sigbus = false) :
    Parted (Way.of env f) env.cfg f.data ((c.answering f).partHead env)
      (produced c.trace ++ (c.answering f).partialContentHead env ++
        partsText ((c.answering f).partHead env) f.data (fixupRanges f.size c.ranges))
      (lost c.trace)
      (PartsRoom (Way.of env f) ((c.answering f).partialContentHead env).length
        ((c.answering f).partHead env) (fixupRanges f.size c.ranges))
      (bytesLeft (fixupRanges f.size c.ranges)) (c.serveRegular env f) := by
  have hwithin : ∀ r ∈ fixupRanges f.size c.ranges, r.start ≤ r.stop ∧ r.stop < f.size :=
    Request.fixupRanges_within
  have hparts := h.parts
  have hlen : (fixupRanges f.size c.ranges).length ≤ c.ranges.length := by
    unfold fixupRanges
    split_ifs
    · exact Nat.zero_le _
    · exact List.length_filterMap_le _ _
  have hnum : 1 < c.numranges := hparts.trans (hlen.trans h.counted)
  have hne : c.ranges ≠ [] := List.ne_nil_of_length_pos (by omega)
  have hpos : f.size ≠ 0 := by
    intro h0
    rw [fixupRanges, if_pos h0] at hparts
    simp at hparts
  obtain ⟨r, q, rest, hfix⟩ : ∃ r q rest, fixupRanges f.size c.ranges = r :: q :: rest := by
    cases hf : fixupRanges f.size c.ranges with
    | nil => simp [hf] at hparts
    | cons r rs =>
      cases rs with
      | nil => simp [hf] at hparts
      | cons q rest => exact ⟨r, q, rest, rfl⟩
  rw [hfix] at hwithin ⊢
  generalize hd : ({ c with filesize := f.size, lastModified := f.mtime, ranges := r :: q :: rest } : Request) = d
  have hatt : Attached env f d (d.attachData env f) := by
    rw [← hd]
    exact attachData_attached ⟨h.start_le, h.end_le, h.size⟩ h.status h.unmapped rfl
  have hserve : c.serveRegular env f = ((d.attachData env f).sendRPartialContent env r).startTransfer env := by
    unfold Request.serveRegular
    rw [hmod, if_neg (by decide)]
    dsimp only
    rw [if_neg hpos, if_pos hne]
    unfold Request.rangesFixup
    dsimp only
    rw [hfix, if_neg (by simp), hd]
    have hr : (d.attachData env f).ranges = r :: q :: rest := by
      rw [(attachData_fields env d f).1, ← hd]
    unfold Request.respond
    dsimp only
    rw [hr]
  have hdf : d.numranges = c.numranges ∧ d.ranges = r :: q :: rest ∧ d.requestUri = c.requestUri ∧
      d.filesize = f.size ∧ d.bufferEnd = 0 ∧ d.method = .get ∧ d.trace = c.trace := by
    rw [← hd]
    exact ⟨rfl, rfl, rfl, rfl, h.empty, h.method, rfl⟩
  have hhead : ({ d with responseStatus := 206 } : Request).partialContentHead env =
      (c.answering f).partialContentHead env := by
    rw [← hd]
    rfl
  obtain ⟨d1, d2, d3, d4, d5, d6, d7⟩ := hdf
  generalize d.attachData env f = e at hatt hserve
  obtain ⟨e1, e2, e3, e4, e5, e6⟩ : e.method = .get ∧ e.numranges = c.numranges ∧
      e.ranges = r :: q :: rest ∧ e.requestUri = c.requestUri ∧ e.filesize = f.size ∧ e.bufferEnd = 0 := by
    have := hatt.fixed
    simp only [Prod.mk.injEq, d1, d2, d3, d4, d5, d6] at this
    exact this
  have hehead : ∀ env' : Env, env'.cfg = env.cfg → ∀ q,
      e.partHead env' q = (c.answering f).partHead env q :=
    fun env' he q => partHead_congr (c := c.answering f) he e4 e5 q
  generalize hhd : (c.answering f).partHead env = head at hehead ⊢
  have hnum' : 1 < e.numranges := by
    rw [e2]
    exact hnum
  obtain ⟨ms, hms, hplain, htext⟩ : ∃ ms, e.sendRPartialContent env r = _ ∧ _ :=
    sendRPartialContent_text hnum' r
  rw [hatt.head, hhead, hehead env rfl r] at htext
  have hbuf : Out.BufOk ({ e with responseStatus := 206 } : Request).toOut := hatt.toBufOk
  rw [hserve, hms]
  by_cases hroom : ((c.answering f).partialContentHead env).length + (head r).length ≤ bufferSize
  · have hw := Out.writes_wrote hbuf hatt.way.alive.1 hplain
      (by rw [htext, List.length_append]; show e.bufferEnd + _ ≤ _; rw [e6, Nat.zero_add]; exact hroom)
    rw [htext] at hw
    have hr := hwithin r (by simp)
    have hsend : Sending (Way.of env f) env.cfg f.data head
        (produced c.trace ++ (c.answering f).partialContentHead env ++
          partsText head f.data (r :: q :: rest)) (lost c.trace)
        ({ e with responseStatus := 206 }.writes ms) r (q :: rest) := by
      refine ⟨hw.toBufOk, e1, ⟨rfl, hnum'⟩, hehead, ?_,
        hatt.way.of_status hw.status rfl, e3, ⟨hr.1.trans (Nat.le_succ _), hr.2⟩,
        fun q' hq' => hwithin q' (List.mem_cons_of_mem r hq'), ?_⟩
      · exact hw.kept.trans (hatt.kept.trans (by rw [d7]))
      · have hout : produced ({ e with responseStatus := 206 }.writes ms).trace = produced e.trace ++ _ := hw.out
        rw [hout, hatt.out, d7]
        simp only [partsText, List.append_assoc]
    have hlast : ({ e with responseStatus := 206 }.writes ms).bufferEnd =
        ((c.answering f).partialContentHead env).length + (head r).length := by
      have := hw.last
      rw [List.length_append] at this
      refine Eq.trans this ?_
      show e.bufferEnd + _ = _
      rw [e6, Nat.zero_add]
    refine hsend.startTransfer hr.1 hatt.small f.size_lt hatt.unmapped rfl hbus ?_
    rw [hlast]
    exact and_iff_right hroom
  · have hfull : bufferSize < e.bufferEnd + (msgText ms).length := by
      rw [htext, List.length_append, e6, Nat.zero_add]
      exact not_le.mp hroom
    obtain ⟨h1, h2⟩ := Out.writes_lost hbuf hatt.way.alive.1 hplain hfull
    have hzero : ({ e with responseStatus := 206 }.writes ms).bufferStart = 0 := by
      have hle := hatt.start_le
      rw [Request.writes_bufferStart]
      show e.bufferStart = 0
      omega
    have heff : Effect False _ _ :=
      Request.startTransfer_effect env ({ e with responseStatus := 206 }.writes ms) hzero
    refine .inr (.inr ⟨fun hf => hroom hf.1, ?_, heff.late ?_⟩)
    · have hsame : lost e.trace = lost c.trace := by rw [hatt.kept, d7]
      rw [← hsame]
      exact h1.trans_le (lost_mono heff.adds)
    · show 6 ≤ (e.toOut.writes ms).status.rank
      rw [show (e.toOut.writes ms).status = .dead from h2]
      decide

lemma Sending.heedSigterm (h : Sending w cfg D head whole n c r rest) (env : Env) :
    Sending w cfg D head whole n (c.heedSigterm env) r rest := by
  obtain ⟨k, hk⟩ := c.heedSigterm_eq env
  rw [hk]
  exact ⟨⟨h.start_le, h.end_le, h.size⟩, h.method, h.multi, h.heads, h.kept, h.way.of_status rfl rfl,
    h.ranges, h.le, h.inside, h.out⟩

lemma Sent.heedSigterm (h : Sent whole n c) (env : Env) : Sent whole n (c.heedSigterm env) := by
  obtain ⟨k, hk⟩ := c.heedSigterm_eq env
  rw [hk]
  exact ⟨⟨h.start_le, h.end_le, h.size⟩, h.status, h.empty, h.kept, h.out⟩

lemma Lost.heedSigterm (h : Lost n c) (env : Env) : Lost n (c.heedSigterm env) := by
  obtain ⟨k, hk⟩ := c.heedSigterm_eq env
  rw [hk]
  exact ⟨h.lost, h.late⟩

/-- Round by round: bytes go out until the last part is sent, or something is lost. -/
lemma OpenRounds.parted {r₀ p : Request × Ret} (hr : OpenRounds cfg D r₀ n p) {b lost : ℕ}
    (h₀ : Parted w cfg D head whole lost fits b r₀) (hsize : D.length < 2 ^ 63) :
    (p.2 = .more ∧ ∃ q rest, Sending w cfg D head whole lost p.1 q rest ∧ q.start ≤ q.stop ∧
        (fits ↔ PartsFit w.held head (q :: rest)) ∧ bytesLeft (q :: rest) + n ≤ b) ∨
      (fits ∧ Sent whole lost p.1 ∧ n ≤ b + 1 ∧ (p.2 ≠ .done → n ≤ b)) ∨ (¬ fits ∧ Lost lost p.1) := by
  induction hr with
  | start =>
    obtain ⟨h1, q, rest, h2, h3, h4, h5⟩ | ⟨h1, h2, h3⟩ | h := h₀
    · exact .inl ⟨h1, q, rest, h2, h3, h4, h5⟩
    · exact .inr (.inl ⟨h2, h3, Nat.zero_le _, fun _ => Nat.zero_le _⟩)
    · exact .inr (.inr h)
  | serve hprev hdone env he ih =>
    obtain ⟨-, q, rest, h2, h3, h4, h5⟩ | ⟨h1, h2, h3, h4⟩ | ⟨h1, h2⟩ := ih
    · rw [bytesLeft_cons] at h5
      have hround := h2.serveOnce h3 hsize he h4 (m := bytesLeft (q :: rest) - 1) (by omega)
      rw [bytesLeft_cons] at hround
      obtain ⟨k1, q', rest', k2, k3, k4, k5⟩ | ⟨k1, k2, k3⟩ | ⟨k1, k2⟩ := hround
      · exact .inl ⟨k1, q', rest', k2.heedSigterm env, k3, k4, by omega⟩
      · exact .inr (.inl ⟨k2, k3.heedSigterm env, by omega, fun _ => by omega⟩)
      · exact .inr (.inr ⟨k1, k2.heedSigterm env⟩)
    · obtain ⟨k1, k2⟩ := h2.serveOnce env
      exact .inr (.inl ⟨h1, k1.heedSigterm env, Nat.succ_le_succ (h4 hdone), fun hn => absurd k2 hn⟩)
    · exact .inr (.inr ⟨h1, (h2.serveOnce env).heedSigterm env⟩)

end Whole

/-- A response of several parts on a socket that accepts everything: it ends after so many
rounds with every part sent, if and only if the header fits and each further part header
finds room behind what is in the buffer of the part before. -/
theorem multipart_complete {f : File} {c : Request} {env : Env} (hc : AsksParts f c)
    (hmod : c.notModified env f = false) (hbus : env.sigbus = false) {n : ℕ} {p : Request × Ret}
    (hp : OpenRounds env.cfg f.data (c.serveRegular env f) n p) :
    let room := PartsRoom (.of env f) ((c.answering f).partialContentHead env).length
      ((c.answering f).partHead env) (fixupRanges f.size c.ranges)
    (room → n ≤ bytesLeft (fixupRanges f.size c.ranges) + 1) ∧
      (p.2 = .done → (PartsSent env c f p.1 ↔ room)) := by
  intro room
  have hrun := hp.parted (hc.starts hmod hbus) f.size_lt
  obtain ⟨h1, q, rest, h2, h3, h4, h5⟩ | ⟨h1, h2, h3, -⟩ | ⟨h1, h2⟩ := hrun
  · refine ⟨fun _ => by omega, fun hd => ?_⟩
    rw [h1] at hd
    cases hd
  · exact ⟨fun _ => h3, fun _ => ⟨fun _ => h1, fun _ => ⟨h2.kept, h2.out⟩⟩⟩
  · refine ⟨fun hr => absurd hr h1, fun _ => ⟨fun hs => ?_, fun hr => absurd hr h1⟩⟩
    have hlost := h2.lost
    rw [hs.kept] at hlost
    exact absurd hlost (lt_irrefl _)

/-- A request for two ranges, and a socket that takes all it is given. -/
def twoParts (stop : ℕ) : Request :=
  { Request.getRequest tinyEnv tinyPeer {} with
    method := .get
    status := .write
    httpVersion := .http11
    ranges := [⟨0, stop⟩, ⟨3, 3⟩]
    numranges := 2 }

def openEnv : Env := { tinyEnv with sock := List.replicate 3 (.wrote maxFileMmap) }

lemma openEnv_open {D : Bytes} {c : Request} (h : c.status ≠ .ioShuffle) : openEnv.Open tinyConfig D c where
  cfg := rfl
  sock := ⟨le_rfl, fun _ hw => ⟨_, List.eq_of_mem_replicate hw, le_rfl⟩⟩
  sigbus := rfl
  bufsize := by decide
  disk := fun hs => absurd hs h

lemma twoParts_asks {f : File} {stop : ℕ} (h : 2 ≤ (fixupRanges f.size [⟨0, stop⟩, ⟨3, 3⟩]).length) :
    AsksParts f (twoParts stop) where
  start_le := le_rfl
  end_le := Nat.zero_le _
  size := by
    have hsize : (Request.getRequest tinyEnv tinyPeer {}).buffer.length = bufferSize + 1 := by decide +kernel
    exact hsize
  method := rfl
  status := rfl
  empty := rfl
  unmapped := rfl
  counted := by simp [Request.Counted, twoParts]
  parts := h

/-- Two rounds after the start. -/
def twoRounds (f : File) (stop : ℕ) : Request × Ret :=
  let first := (((twoParts stop).serveRegular openEnv f).1.serveOnce openEnv).1.heedSigterm openEnv
  ((first.serveOnce openEnv).1.heedSigterm openEnv, (first.serveOnce openEnv).2)

theorem multipart_complete_two :
    (twoRounds tinyFile 1).2 = .done ∧ PartsSent openEnv (twoParts 1) tinyFile (twoRounds tinyFile 1).1 := by
  have hstart : OpenRounds tinyConfig tinyFile.data ((twoParts 1).serveRegular openEnv tinyFile) 0
    ((twoParts 1).serveRegular openEnv tinyFile) := .start
  have hone := hstart.serve (by decide +kernel) openEnv (openEnv_open (by decide +kernel))
  have htwo := hone.serve (by decide +kernel) openEnv (openEnv_open (by decide +kernel))
  have hdone : (twoRounds tinyFile 1).2 = .done := by decide +kernel
  refine ⟨hdone, ((multipart_complete (twoParts_asks (by decide +kernel)) (by decide +kernel) rfl htwo).2 hdone).mpr ?_⟩
  have hfix : fixupRanges tinyFile.size (twoParts 1).ranges = [⟨0, 1⟩, ⟨3, 3⟩] := by decide +kernel
  rw [hfix]
  exact ⟨by decide +kernel, by decide +kernel, trivial⟩

def longFile : File where
  fd := 5
  kind := .reg
  data := List.replicate 3800 97
  mtime := 7
  fd_gt := tinyFile.fd_gt
  size_lt := by rw [List.length_replicate]; decide

/-- The first round of a response whose first range ends a few bytes before the buffer. -/
def lostRound : Request × Ret :=
  let start := (twoParts 3749).serveRegular openEnv longFile
  ((start.1.serveOnce openEnv).1.heedSigterm openEnv, (start.1.serveOnce openEnv).2)

/-- The header of the second part finds no room. -/
theorem multipart_loses_part :
    AsksParts longFile (twoParts 3749) ∧ (twoParts 3749).notModified openEnv longFile = false ∧
      longFile.size ≤ maxFileMmap ∧
      OpenRounds tinyConfig longFile.data ((twoParts 3749).serveRegular openEnv longFile) 1 lostRound ∧
      lostRound.2 = .done ∧ lost lostRound.1.trace = 1 ∧
      ¬ PartsSent openEnv (twoParts 3749) longFile lostRound.1 := by
  have hstart : OpenRounds tinyConfig longFile.data ((twoParts 3749).serveRegular openEnv longFile) 0
    ((twoParts 3749).serveRegular openEnv longFile) := .start
  have hone := hstart.serve (by decide +kernel) openEnv (openEnv_open (by decide +kernel))
  have hlost : lost lostRound.1.trace = 1 := by decide +kernel
  refine ⟨twoParts_asks (by decide +kernel), by decide +kernel, by decide +kernel, hone, by decide +kernel,
    hlost, fun hs => ?_⟩
  have hnone : lost (twoParts 3749).trace = 0 := by decide +kernel
  have hkept := hs.kept
  rw [hlost, hnone] at hkept
  exact absurd hkept (by decide)

end Boa
