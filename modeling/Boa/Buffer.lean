import Boa.Types

/-! The output buffer of a request (buffer.c, escape.c): queueing text, with and
without escaping, and flushing to the client socket. -/
namespace Boa
open Memory

/-- `INT_TO_HEX` of a nibble. -/
def intToHex (x : ℕ) : UInt8 := if x > 9 then UInt8.ofNat (87 + x) else UInt8.ofNat (48 + x)

/-- The characters `build_needs_escape` clears in its bit table. -/
def unescaped : Bytes :=
  text "ABCDEFGHIJKLMNOPQRSTUVWXYZabcdefghijklmnopqrstuvwxyz0123456789-_.!~*'():@&=+$,/?"

def needsEscape (c : UInt8) : Bool := decide (128 ≤ c.toNat) || !unescaped.contains c

/-- The copy loop of `req_write_escape_http`: at most `left` bytes of room, never
starting a character with fewer than three of them. Returns what was written and
the unread rest of the message. -/
def escapeHttpLoop : ℕ → ℕ → Bytes → Bytes × Bytes
  | _, _, [] => ([], [])
  | left, skip, c :: msg =>
    if left < 3 then ([], c :: msg)
    else
      let skip := skip - 1
      let skip := if c = percent then 2 else skip
      if skip = 0 ∧ needsEscape c then
        let r := escapeHttpLoop (left - 3) skip msg
        (percent :: intToHex (c.toNat / 16) :: intToHex (c.toNat % 16) :: r.1, r.2)
      else
        let r := escapeHttpLoop (left - 1) skip msg
        (c :: r.1, r.2)

/-- The entity `req_write_escape_html` writes for a character. -/
def htmlEntity (c : UInt8) : Bytes :=
  if c = 62 then text "&gt;"
  else if c = 60 then text "&lt;"
  else if c = 38 then text "&amp;"
  else if c = 34 then text "&quot;"
  else [c]

/-- The copy loop of `req_write_escape_html`, with its guard band of six bytes. -/
def escapeHtmlLoop : ℕ → Bytes → Bytes × Bytes
  | _, [] => ([], [])
  | left, c :: msg =>
    if left < 6 then ([], c :: msg)
    else
      let r := escapeHtmlLoop (left - (htmlEntity c).length) msg
      (htmlEntity c ++ r.1, r.2)

/-- `req_write_escape_http` on a message that lies in `req->buffer` itself, from
address `inp` on: each character is read behind the output written before it. -/
def escapeHttpAt (mem : Bytes) (e : ℕ) : ℕ → ℕ → ℕ → Bytes → Bytes × Bytes
  | 0, _, _, out => (out, [])
  | fuel + 1, inp, skip, out =>
    let c := (store mem e out).getD inp 0
    if c = 0 then (out, [])
    else if bufferSize - e - out.length < 3 then (out, [c])
    else
      let skip := skip - 1
      let skip := if c = percent then 2 else skip
      let bs := if skip = 0 ∧ needsEscape c
        then [percent, intToHex (c.toNat / 16), intToHex (c.toNat % 16)] else [c]
      escapeHttpAt mem e fuel (inp + 1) skip (out ++ bs)

/-- `req_write_escape_html` on such a message. -/
def escapeHtmlAt (mem : Bytes) (e : ℕ) : ℕ → ℕ → Bytes → Bytes × Bytes
  | 0, _, out => (out, [])
  | fuel + 1, inp, out =>
    let c := (store mem e out).getD inp 0
    if c = 0 then (out, [])
    else if bufferSize - e - out.length < 6 then (out, [c])
    else escapeHtmlAt mem e fuel (inp + 1) (out ++ htmlEntity c)

namespace Out

def log (o : Out) (e : Event) : Out := { o with trace := o.trace ++ [e] }

/-- Copy `bs` behind the buffered bytes and record it. -/
def append (o : Out) (e : Bytes → Event) (bs : Bytes) : Out :=
  { o with
    buffer := store o.buffer o.bufferEnd bs
    bufferEnd := o.bufferEnd + bs.length
    trace := o.trace ++ [e bs] }

/-- `req_write`. Every caller ignores the value it returns. -/
def reqWrite (o : Out) (msg : Bytes) : Out :=
  if msg = [] ∨ .done < o.status then o
  else if bufferSize < o.bufferEnd + msg.length then { o.log .noRoom with status := .dead }
  else o.append .queued msg

/-- What `req_write_escape_http` and `req_write_escape_html` do after their copy
loop; neither looks at the status first. -/
def finishEscape (o : Out) (r : Bytes × Bytes) : Out :=
  let o := o.append .queued r.1
  if r.2 ≠ [] then { o.log .noRoom with status := .dead } else o

def reqWriteEscapeHttp (o : Out) (msg : Bytes) : Out :=
  o.finishEscape (escapeHttpLoop (bufferSize - o.bufferEnd) 0 msg)

def reqWriteEscapeHtml (o : Out) (msg : Bytes) : Out :=
  o.finishEscape (escapeHtmlLoop (bufferSize - o.bufferEnd) msg)

/-- `reset_output_buffer`. -/
def resetOutputBuffer (o : Out) : Out := { o with bufferEnd := 0 }

/-- `buffer_end - buffer_start` as the `unsigned` of `req_flush`. -/
def bytesToWrite (o : Out) : ℕ := (2 ^ 32 + o.bufferEnd - o.bufferStart) % 2 ^ 32

/-- The unsent bytes `buffer[buffer_start..buffer_end)`. -/
def pending (o : Out) : Bytes := slice o.buffer o.bufferStart o.bufferEnd

/-- Next answer of `write` on the client socket. -/
def nextWrite (o : Out) : WriteRes := o.sock.head?.getD .again

/-- The last two lines of `req_flush`: an emptied buffer starts again at 0. -/
def settle (o : Out) : Out :=
  if o.bufferStart = o.bufferEnd then { o with bufferStart := 0, bufferEnd := 0 } else o

/-- Return value of `req_flush`: -2, -1 or `buffer_end`. -/
inductive Flush
  | error | blocked | left (n : ℕ)
  deriving DecidableEq, Repr

def reqFlush (o : Out) : Out × Flush :=
  if .done < o.status then (o, .error)
  else if o.bytesToWrite ≠ 0 then
    match o.nextWrite with
    | .again => ({ o with sock := o.sock.tail }, .blocked)
    | .intr | .err =>
      ({ o with sock := o.sock.tail, bufferStart := 0, bufferEnd := 0, status := .dead }, .error)
    | .wrote n =>
      let n := min n o.bytesToWrite
      let o : Out := { o with
        sock := o.sock.tail
        bufferStart := o.bufferStart + n
        trace := o.trace ++ [.sent (slice o.buffer o.bufferStart (o.bufferStart + n))] }
      (o.settle, .left o.settle.bufferEnd)
  else (o.settle, .left o.settle.bufferEnd)

end Out

/-- One call of the response writers, on a text or on the string at an address of
`req->buffer`. `ka` and `len` are no calls: they record that the text before them, a
Connection line or a Content-Length line, is in the buffer. -/
inductive Msg
  | raw (bs : Bytes)
  | http (bs : Bytes)
  | html (bs : Bytes)
  | rawAt (p : ℕ)
  | httpAt (p : ℕ)
  | htmlAt (p : ℕ)
  | ka (alive : Bool)
  | len (n : ℕ)

def Out.writeMsg (o : Out) : Msg → Out
  | .raw bs => o.reqWrite bs
  | .http bs => o.reqWriteEscapeHttp bs
  | .html bs => o.reqWriteEscapeHtml bs
  | .rawAt p => o.reqWrite (cstr (o.buffer.drop p))
  | .httpAt p => o.finishEscape (escapeHttpAt o.buffer o.bufferEnd (bufferSize + 1) p 0 [])
  | .htmlAt p => o.finishEscape (escapeHtmlAt o.buffer o.bufferEnd (bufferSize + 1) p [])
  | .ka alive => if .done < o.status then o else o.log (.kaPhrase alive)
  | .len n => if .done < o.status then o else o.log (.contentLength n)

/-- A sequence of writer calls. -/
def Out.writes (o : Out) (ms : List Msg) : Out := ms.foldl Out.writeMsg o

def Request.writes (c : Request) (ms : List Msg) : Request := { c with toOut := c.toOut.writes ms }

def Request.reqFlush (c : Request) : Request := { c with toOut := c.toOut.reqFlush.1 }

end Boa
