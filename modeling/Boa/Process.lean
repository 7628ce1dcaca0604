import Boa.Pipe

/-! The life of a request (request.c): accepting, one round of `process_requests`
and `free_request`. -/
namespace Boa

/-- The three queues a request can be on. -/
inductive Place
  | ready | block | free
  deriving DecidableEq, Repr

/-- What `select` or `poll` finds out about a blocked request. -/
inductive Wake
  | ready | timedOut | dead
  deriving DecidableEq, Repr

/-- The addresses of a new connection, and whether it is one too many. -/
structure Peer where
  localIpAddr : Bytes
  remoteIpAddr : Bytes
  remotePort : ℕ
  tooMany : Bool := false

namespace Request

/-- `sanitize_request(req, 1)`, on a request object with any old contents. The
array `buffer` has `BUFFER_SIZE + 1` bytes. -/
def sanitizeNew (env : Env) (old : Request) : Request :=
  { buffer := old.buffer.takeD (bufferSize + 1) 0
    toLink := { old.toLink with kacount := env.cfg.kaMax, clientStream := [], past := [] } }

/-- `sanitize_request(req, 0)`: bytes that were read too far stay. -/
def sanitizeRequest (c : Request) : Request :=
  { buffer := c.buffer
    toLink := { c.toLink with
      clientStream := c.clientStream.drop c.parsePos
      past := c.past ++ [c.trace] } }

/-- The answers the system gives during one round. -/
def arm (env : Env) (c : Request) : Request :=
  { c with
    sock := env.sock
    client := env.client
    file := env.file
    sendfile := env.sendfile
    post := env.post }

/-- `get_request`, after `accept` and the calls on the new socket went well. -/
def getRequest (env : Env) (peer : Peer) (old : Request) : Request :=
  let c : Request := { (old.sanitizeNew env).arm env with
    localIpAddr := peer.localIpAddr
    remoteIpAddr := peer.remoteIpAddr
    remotePort := peer.remotePort }
  if peer.tooMany then
    let c := { c with httpVersion := .http10, method := .get }
    { c.sendRServiceUnavailable env with status := .done }
  else c

/-- A kept-alive request of which nothing was read is not logged. -/
def silent (env : Env) (c : Request) : Bool :=
  decide (c.kacount < env.cfg.kaMax) && !c.logline && decide (c.clientStreamPos = 0)

/-- The test of the keep-alive branch of `free_request`. -/
def reusable (c : Request) : Bool :=
  decide (c.status < .timedOut ∧ c.keepalive = .active ∧ c.responseStatus < 500 ∧
    c.responseStatus ≠ 0 ∧ 0 < c.kacount)

/-- Log the request and close its descriptors. -/
def release (env : Env) (c : Request) : Request :=
  let c := if c.status = .timedOut ∧ c.responseStatus = 0 then { c with responseStatus := 408 } else c
  let c := if c.silent env then c else c.log (.logged c.responseStatus c.bytesWritten)
  let c := if c.dataFd ≠ 0 then c.log (.closed c.dataFd) else c
  if c.postDataFd ≠ 0 then c.log (.closed c.postDataFd) else c

/-- `free_request` behind its flush: keep the connection or close it. -/
def endRequest (env : Env) (c : Request) : Request × Place :=
  let c := c.release env
  if c.reusable then
    let c := c.sanitizeRequest
    ({ c with kacount := c.kacount - 1 }, .block)
  else (c, .free)

/-- `free_request`. -/
def freeRequest (env : Env) (c : Request) : Request × Place :=
  if c.bufferEnd ≠ 0 ∧ c.status < .timedOut then
    let c : Request := { c with status := .done }
    match c.toOut.reqFlush with
    | (o, .error) => { c with toOut := { o with status := .dead } }.endRequest env
    | (o, .left (_ + 1)) => ({ c with toOut := o }, .ready)
    | (o, .left 0) | (o, .blocked) => { c with toOut := o }.endRequest env
  else c.endRequest env

/-- The `DONE` case of `process_requests`. -/
def processDone (c : Request) : Request × Ret :=
  match c.toOut.reqFlush with
  | (o, .error) => ({ c with toOut := { o with status := .dead } }, .done)
  | (o, .blocked) => ({ c with toOut := o }, .blocked)
  | (o, .left 0) => ({ c with toOut := o }, .done)
  | (o, .left (_ + 1)) => ({ c with toOut := o }, .more)

/-- The `switch` of `process_requests`. -/
def handle (env : Env) (c : Request) : Request × Ret :=
  match c.status with
  | .readHeader | .oneCr | .oneLf | .twoCr => c.readHeader env
  | .bodyRead => c.readBody env
  | .bodyWrite => c.writeBody env
  | .write => c.processGet env
  | .pipeRead => c.readFromPipe env
  | .pipeWrite => c.writeFromPipe
  | .ioShuffle => if env.cfg.haveSendfile then c.ioShuffleSendfile env else c.ioShuffle env
  | .done => c.processDone
  | .timedOut | .dead => ({ c.squashKa with bufferEnd := 0 }, .done)

/-- The flush at the top of the loop of `process_requests`. -/
def flushFirst (c : Request) : Request × Ret :=
  if c.bufferEnd ≠ 0 ∧ c.status < .timedOut then
    match c.toOut.reqFlush with
    | (o, .error) => ({ c with toOut := { o with status := .dead } }, .done)
    | (o, .blocked) => ({ c with toOut := o }, .blocked)
    | (o, .left _) => ({ c with toOut := o }, .more)
  else (c, .more)

/-- One round up to the return value that decides where the request goes. -/
def serveOnce (env : Env) (c : Request) : Request × Ret :=
  match (c.arm env).flushFirst with
  | (c, .more) => c.handle env
  | r => r

/-- `if (sigterm_flag) SQUASH_KA(current)`. -/
def heedSigterm (env : Env) (c : Request) : Request := if env.sigterm then c.squashKa else c

/-- One round of the loop of `process_requests`. -/
def processRequest (env : Env) (c : Request) : Request × Place :=
  let r := c.serveOnce env
  let c := r.1.heedSigterm env
  match r.2 with
  | .blocked => (c, .block)
  | .done => c.freeRequest env
  | .more => (c, .ready)

/-- `fdset_update` and `update_blocked` for a request that leaves the block list. -/
def wake (c : Request) : Wake → Request
  | .ready => c
  | .timedOut => { c with status := .timedOut }
  | .dead => { c with status := .dead }

end Request

/-- What can happen to a connection between two states. -/
inductive Label
  | accept (env : Env)
  | pass (env : Env)
  | wake (w : Wake)

/-- The states of one connection, on the ready list, on the block list or given
up; `P` restricts the steps of the run. -/
inductive Reach (P : Label → Request → Prop) : Request → Place → Prop
  | accept (env : Env) (peer : Peer) (old : Request) (hP : P (.accept env) old) :
      Reach P (old.getRequest env peer) .ready
  | pass {c : Request} (env : Env) (h : Reach P c .ready) (hP : P (.pass env) c) :
      Reach P (c.processRequest env).1 (c.processRequest env).2
  | wake {c : Request} (w : Wake) (h : Reach P c .block) (hP : P (.wake w) c) :
      Reach P (c.wake w) .ready

lemma Reach.mono {P Q : Label → Request → Prop} {c : Request} {p : Place} (h : Reach P c p)
    (hPQ : ∀ l c, P l c → Q l c) : Reach Q c p := by
  induction h with
  | accept env peer old hP => exact .accept env peer old (hPQ _ _ hP)
  | pass env h hP ih => exact .pass env ih (hPQ _ _ hP)
  | wake w h hP ih => exact .wake w ih (hPQ _ _ hP)

/-- Reachable with every step allowed. -/
def Reachable : Request → Place → Prop := Reach fun _ _ => True

end Boa
