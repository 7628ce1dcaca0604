import Boa.CgiHeader
import Boa.Read

/-! Moving data from a child or a file to the client (pipe.c). -/
namespace Boa
open Memory

namespace Request

/-- Next answer of `read` on `data_fd`. -/
def nextFile (c : Request) (room : ℕ) : ReadRes := (c.file.head?.getD .again).fit room

def popFile (c : Request) : Request := { c with file := c.file.tail }

/-- Store a NUL at an index of `req->buffer`. The array has `BUFFER_SIZE + 1` bytes
and is followed by `request_uri` in the request. -/
def pokeNul (c : Request) (i : ℕ) : Request :=
  if i ≤ bufferSize then { c with buffer := store c.buffer i [0] }
  else { c.log .wild with requestUri := [] }

/-- Both pointers back to the start of the buffer. -/
def resetWindow (c : Request) : Request :=
  { c with headerLine := ⟨.buffer, 0⟩, headerEnd := ⟨.buffer, 0⟩ }

/-- `write_from_pipe`. -/
def writeFromPipe (c : Request) : Request × Ret :=
  let toWrite := c.lineLength
  if toWrite = 0 then
    if c.cgiStatus = .done then (c, .done)
    else ({ c.resetWindow with status := .pipeRead }, .more)
  else
    match c.nextWrite with
    | .again => (c.popSock, .blocked)
    | .intr => (c.popSock, .more)
    | .err => ({ c.popSock with status := .dead }, .done)
    | .wrote n =>
      let n := min n toWrite
      let c := c.popSock.log (.sent (c.lineText n))
      let c : Request := { c with
        headerLine := { c.headerLine with off := c.headerLine.off + n }
        bytesWritten := c.bytesWritten + n }
      if n = toWrite then ({ c.resetWindow with status := .pipeRead }, .more) else (c, .more)

/-- End of file on the pipe. -/
def pipeEof (env : Env) (c : Request) : Request × Ret :=
  let parse := c.cgiStatus = .parse
  let c : Request := { c.pokeNul c.headerEnd.off with status := .pipeWrite, cgiStatus := .done }
  if parse then c.processCgiHeader env else (c, .more)

/-- Take the bytes that `read` put at `header_end` into the window. -/
def pipeStore (c : Request) (bs : Bytes) : Request :=
  let c : Request := { c with
    buffer := store c.buffer c.headerEnd.off bs
    headerEnd := { c.headerEnd with off := c.headerEnd.off + bs.length } }
  c.pokeNul c.headerEnd.off

/-- New data from the pipe. -/
def pipeData (env : Env) (c : Request) (bs : Bytes) : Request × Ret :=
  let c := c.pipeStore bs
  if c.cgiStatus ≠ .parse then (c.log (.data bs)).writeFromPipe
  else
    match findBlankLine (cstr (c.buffer.drop c.headerLine.off)) with
    | none => (c, .more)
    | some _ => { c with cgiStatus := .done }.processCgiHeader env

/-- `read_from_pipe`. It reads up to `BUFFER_SIZE - (header_end - buffer - 1)` bytes. -/
def readFromPipe (env : Env) (c : Request) : Request × Ret :=
  let toRead := bufferSize + 1 - c.headerEnd.off
  if toRead = 0 then
    if c.cgiStatus = .parse then
      ({ c with cgiStatus := .buffer }.pokeNul c.headerEnd.off).processCgiHeader env
    else ({ c with status := .pipeWrite }, .more)
  else
    match c.nextFile toRead with
    | .intr => (c.popFile, .more)
    | .again => (c.popFile, .blocked)
    | .err => ({ c.popFile with status := .dead }, .done)
    | .eof => c.popFile.pipeEof env
    | .data bs => c.popFile.pipeData env bs

/-- Repeat `write` on the client socket while it is interrupted. -/
def restartWrite (c : Request) : Request := { c with sock := c.sock.dropWhile (· = WriteRes.intr) }

/-- Repeat `read` on `data_fd` while it is interrupted. -/
def restartRead (c : Request) : Request := { c with file := c.file.dropWhile (· = ReadRes.intr) }

/-- The `restartwrite` part of `io_shuffle`. -/
def shuffleWrite (c : Request) : Request × Ret :=
  let toWrite := c.bufferEnd - c.bufferStart
  if toWrite = 0 then
    if c.dataFd = 0 then (c, .done)
    else ({ c with bufferStart := 0, bufferEnd := 0 }, .more)
  else
    let c := c.restartWrite
    match c.nextWrite with
    | .again | .intr => (c.popSock, .blocked)
    | .err => ({ c.popSock with status := .dead }, .done)
    | .wrote n =>
      let n := min n toWrite
      let c := c.popSock.log (.sent (slice c.buffer c.bufferStart (c.bufferStart + n)))
      let c : Request := { c with
        bufferStart := c.bufferStart + n
        bytesWritten := c.bytesWritten + n }
      if n = toWrite then ({ c with bufferStart := 0, bufferEnd := 0 }, .more) else (c, .more)

/-- The `restartread` part of `io_shuffle`. -/
def shuffleRead (env : Env) (c : Request) (r : Range) (rest : List Range) (toRead : ℕ) :
    Request × Ret :=
  if !env.lseekOk then ({ c.log .fileError with status := .dead }, .done)
  else
    let c := c.restartRead
    match c.nextFile toRead with
    | .again | .intr =>
      if c.bufferEnd - c.bufferStart = 0 then (c.popFile, .blocked) else c.popFile.shuffleWrite
    | .err => ({ c.popFile.log .fileError with status := .dead }, .done)
    | .eof =>
      { (c.popFile.log .fileEof).log (.closed c.dataFd) with dataFd := 0 }.shuffleWrite
    | .data bs =>
      let c : Request := { c.popFile.bufferData bs with
        ranges := { r with start := r.start + bs.length } :: rest }
      if r.stop + 1 = r.start + bs.length then c.completeResponse env else c.shuffleWrite

/-- `io_shuffle`. -/
def ioShuffle (env : Env) (c : Request) : Request × Ret :=
  if c.method = .head then c.completeResponse env
  else
    match c.ranges with
    | [] => (c.log .wild, .done)
    | r :: rest =>
      let toRead := min (bufferSize - c.bufferEnd - 256) r.bytes
      if 0 < toRead ∧ c.dataFd ≠ 0 then c.shuffleRead env r rest toRead else c.shuffleWrite

/-- Result of `sendfile`, cut to the length asked for. -/
def nextSend (c : Request) (want : ℕ) : SendRes :=
  match (c.sendfile.dropWhile (· = SendRes.intr)).head?.getD .again with
  | .sent bs => .sent (bs.take want)
  | r => r

def popSend (c : Request) : Request := { c with sendfile := (c.sendfile.dropWhile (· = SendRes.intr)).tail }

/-- The end of `io_shuffle_sendfile`. -/
def sentRange (env : Env) (c : Request) : Request × Ret :=
  match c.ranges with
  | [] => (c.log .wild, .done)
  | r :: _ => if r.stop + 1 ≤ r.start then c.completeResponse env else (c, .more)

/-- `io_shuffle_sendfile`; interrupted calls are repeated. -/
def ioShuffleSendfile (env : Env) (c : Request) : Request × Ret :=
  if c.method = .head then c.completeResponse env
  else
    match c.ranges with
    | [] => (c.log .wild, .done)
    | r :: rest =>
      let want := min r.bytes env.systemBufsize
      if want = 0 then c.sentRange env
      else if offNegative r.start then ({ c with status := .dead }, .done)
      else
        match c.nextSend want with
        | .nosys => c.popSend.ioShuffle env
        | .again | .intr | .sent [] => (c.popSend, .blocked)
        | .err => ({ c.popSend.log .fileError with status := .dead }, .done)
        | .sent bs =>
          let c := c.popSend.sendDirect bs
          if offNegative (r.start + bs.length) then ({ c with status := .dead }, .done)
          else (c.moveRange r rest bs.length).sentRange env

end Request
end Boa
