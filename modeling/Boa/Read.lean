import Boa.Header

/-! Reading a request from the client (read.c). -/
namespace Boa
open Memory

/-- Anything but CR, LF, TAB and US-ASCII without controls is illegal. -/
def illegalChar (uc : UInt8) : Bool :=
  uc != cr && uc != lf && uc != tab && (decide (uc.toNat < 32) || decide (127 < uc.toNat))

/-- The `switch` of `read_header`. -/
def nextStatus (s : Status) (uc : UInt8) : Status :=
  match s with
  | .readHeader => if uc = cr then .oneCr else if uc = lf then .oneLf else .readHeader
  | .oneCr => if uc = lf then .oneLf else if uc = cr then .oneCr else .readHeader
  | .oneLf => if uc = cr then .twoCr else if uc = lf then .bodyRead else .readHeader
  | .twoCr => if uc = lf then .bodyRead else if uc = cr then .twoCr else .readHeader
  | s => s

/-- `header_end` is set where a line end starts. -/
def marksEnd (s : Status) (uc : UInt8) : Bool := s = .readHeader && (uc == cr || uc == lf)

/-- What `read` returned, cut to the room there was; an empty answer is end of file. -/
def ReadRes.fit (r : ReadRes) (room : ℕ) : ReadRes :=
  match r with
  | .data bs => if bs.take room = [] then .eof else .data (bs.take room)
  | r => r

namespace Request

/-- Next answer of `read` on the client socket. -/
def nextClient (c : Request) (room : ℕ) : ReadRes := (c.client.head?.getD .again).fit room

def popClient (c : Request) : Request := { c with client := c.client.tail }

/-- Consume one legal character. -/
def advance (c : Request) (uc : UInt8) : Request :=
  { c with
    status := nextStatus c.status uc
    headerEnd := if marksEnd c.status uc then ⟨.clientStream, c.parsePos⟩ else c.headerEnd
    parsePos := c.parsePos + 1 }

/-- `*req->header_end = '\0'`. -/
def terminateLine (c : Request) : Request :=
  { c with clientStream := c.clientStream.set c.headerEnd.off 0 }

/-- `header_end - header_line`. -/
def lineLength (c : Request) : ℕ := c.headerEnd.off - c.headerLine.off

/-- `req->header_line = check`. -/
def startLine (c : Request) : Request := { c with headerLine := ⟨.clientStream, c.parsePos⟩ }

/-- The end of a line. `none` goes on with the next character. -/
def endLine (env : Env) (c : Request) : Request × Option Ret :=
  let c := c.terminateLine
  if maxHeaderLength ≤ c.lineLength then
    ((c.log (.reject (.headerTooLong c.lineLength))).sendRBadRequest env, some .done)
  else if c.logline then
    match c.processOptionLine env with
    | (c, false) => (c, some .done)
    | (c, true) => (c.startLine, none)
  else
    match c.processLogline env with
    | (c, false) => (c, some .done)
    | (c, true) =>
      if c.httpVersion = .http09 then
        let r := c.processHeaderEnd env
        (r.1, some r.2)
      else (c.startLine, none)

/-- The set-up of a POST body; part of it may have been read with the header. -/
def startBody (env : Env) (c : Request) : Request × Ret :=
  let c : Request := { c with
    headerLine := ⟨.clientStream, c.parsePos⟩
    headerEnd := ⟨.clientStream, c.clientStreamPos⟩
    status := .bodyWrite }
  match c.contentLength.bind boaAtoi with
  | none => (c.sendRBadRequest env, .done)
  | some n =>
    if env.cfg.singlePostLimit ≠ 0 ∧ env.cfg.singlePostLimit < n then
      (c.sendRBadRequest env, .done)
    else
      let c := { c with filesize := n, filepos := 0 }
      if n < c.lineLength then
        ({ c with headerEnd := ⟨.clientStream, c.headerLine.off + n⟩ }, .more)
      else (c, .more)

/-- The end of the header block. -/
def endHeader (env : Env) (c : Request) : Request × Ret :=
  match c.processHeaderEnd env with
  | (c, .done) => (c, .done)
  | (c, r) => if c.method = .post then c.startBody env else (c, r)

/-- One round of the loop of `read_header`. -/
def headerByte (env : Env) (c : Request) (uc : UInt8) : Request × Option Ret :=
  if illegalChar uc then ((c.log (.reject (.illegalChar uc))).sendRBadRequest env, some .done)
  else
    let c := c.advance uc
    if c.status = .oneLf then c.endLine env
    else if c.status = .bodyRead then
      let r := c.endHeader env
      (r.1, some r.2)
    else (c, none)

/-- The loop of `read_header` over the bytes not parsed yet. Only bytes behind the
parse position are ever changed, so they can be fixed beforehand. -/
def scanHeader (env : Env) : Request → Bytes → Request × Option Ret
  | c, [] => (c, none)
  | c, uc :: rest =>
    match c.headerByte env uc with
    | (c, some r) => (c, some r)
    | (c, none) => scanHeader env c rest

/-- The rest of `read_header`: the request is not complete, read more of it. -/
def readMore (c : Request) : Request × Ret :=
  let left := clientStreamSize - c.clientStreamPos
  if left < 1 then
    ({ c.log (.reject .streamFull) with responseStatus := 400, status := .dead }, .done)
  else
    match c.nextClient left with
    | .again => (c.popClient, .blocked)
    | .intr => (c.popClient, .more)
    | .err => ({ c.popClient with responseStatus := 400 }, .done)
    | .eof => ({ c.popClient.log .clientEof with responseStatus := 400 }, .done)
    | .data bs =>
      ({ c.popClient.log (.received bs) with clientStream := c.clientStream ++ bs }, .more)

/-- `read_header`. -/
def readHeader (env : Env) (c : Request) : Request × Ret :=
  match scanHeader env c (c.clientStream.drop c.parsePos) with
  | (c, some r) => (c, r)
  | (c, none) => if c.status < .bodyRead then c.readMore else (c, .more)

/-- Write at `header_end`, wherever that points. -/
def storeAtEnd (c : Request) (bs : Bytes) : Request :=
  match c.headerEnd.area with
  | .buffer => { c with buffer := store c.buffer c.headerEnd.off bs }
  | .clientStream => { c with clientStream := store c.clientStream c.headerEnd.off bs }

/-- The text between `header_line` and `header_end`, wherever they point. -/
def lineText (c : Request) (n : ℕ) : Bytes :=
  match c.headerLine.area with
  | .buffer => slice c.buffer c.headerLine.off (c.headerLine.off + n)
  | .clientStream => slice c.clientStream c.headerLine.off (c.headerLine.off + n)

/-- `read_body`. -/
def readBody (env : Env) (c : Request) : Request × Ret :=
  let toRead := min (c.filesize - c.filepos) (bufferSize - c.lineLength)
  if toRead = 0 then ({ c with status := .bodyWrite }, .more)
  else
    match c.nextClient toRead with
    | .again => (c.popClient, .blocked)
    | .intr | .err => ({ c.popClient.boaPerror env with responseStatus := 400 }, .done)
    | .eof => (c.popClient.sendRBadRequest env, .done)
    | .data bs =>
      let c := c.popClient.storeAtEnd bs
      ({ c with
        status := .bodyWrite
        headerEnd := { c.headerEnd with off := c.headerEnd.off + bs.length } }, .more)

/-- `write_body`. -/
def writeBody (env : Env) (c : Request) : Request × Ret :=
  let toWrite := min c.lineLength (c.filesize - c.filepos)
  if toWrite = 0 then
    let c := { c with headerLine := ⟨.buffer, 0⟩, headerEnd := ⟨.buffer, 0⟩ }
    if c.filesize ≤ c.filepos then c.initCgi env else ({ c with status := .bodyRead }, .more)
  else
    let res := c.post.head?.getD .again
    let c := { c with post := c.post.tail }
    match res with
    | .again => (c, .blocked)
    | .intr => (c, .more)
    | .err => (c.boaPerror env, .done)
    | .wrote n =>
      let n := min n toWrite
      let c := c.log (.posted (c.lineText n))
      ({ c with
        filepos := c.filepos + n
        headerLine := { c.headerLine with off := c.headerLine.off + n } }, .more)

end Request
end Boa
