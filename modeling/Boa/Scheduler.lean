import Boa.DList
import Boa.Process

/-! The queues of requests (queue.c) and the routines that move requests between them
(request.c, and the loops over `request_block` of select.c and poll.c). What the two
builds do differently is in `Watch`. -/
namespace Boa
open DList

def requestTimeout : ℕ := 60

/-- A descriptor: the listening socket, or one that belongs to a connection. -/
inductive Fd
  | server | conn (n : ℕ)
  deriving DecidableEq, Repr

/-- The set a descriptor is watched in: `BOA_READ` or `BOA_WRITE`. -/
inductive Dir
  | read | write
  deriving DecidableEq, Repr

/-- A request object with the fields of its connection. -/
structure Conn where
  req : Request
  fd : ℕ := 0
  timeLast : ℕ := 0
  pollfdId : ℕ := 0

/-- What the time-out tests read. -/
structure Clock where
  now : ℕ
  kaMax : ℕ
  kaTimeout : ℕ

/-- `sigterm_flag`: not caught, caught, and shutdown started. -/
inductive Sigterm
  | none | caught | started
  deriving DecidableEq, Repr

/-- The build: the macros `BOA_FD_SET` and `BOA_FD_CLR` on the watched descriptors `W`,
and what one round of `fdset_update` or `update_blocked` finds out about a request: its
new state and whether it goes to the ready list. -/
structure Watch (W : Type) where
  haveSendfile : Bool
  fdSet : W → Conn → ℕ → Dir → W × Conn
  fdClr : W → ℕ → Dir → W
  scan : Clock → W → Conn → W × Conn × Bool

/-- The heads of the three queues, the links and contents of the request objects, and the
global variables of the scheduler. -/
structure Sched (W : Type) where
  links : Links ℕ
  /-- `request_ready`, `request_block` and `request_free` -/
  heads : Place → Option ℕ
  /-- the request objects that exist -/
  objects : List ℕ
  conns : ℕ → Conn
  totalConnections : ℕ
  maxConnections : ℕ
  pendingRequests : Bool
  watch : W

/-- How an attempt to accept a connection ends. -/
inductive Accept
  /-- `accept` fails -/
  | nothing
  /-- the new socket is closed before there is a request object for it -/
  | refused
  /-- the new socket is closed and the request object given back -/
  | failed
  | ok (fd : ℕ) (peer : Peer)

/-- The descriptor that `block_request` watches and `ready_request` does not watch any more. -/
def Conn.target (haveSendfile : Bool) (c : Conn) : ℕ × Dir :=
  if c.req.bufferEnd ≠ 0 then (c.fd, .write)
  else
    match c.req.status with
    | .ioShuffle =>
      if !haveSendfile && c.req.bufferEnd == c.req.bufferStart then (c.req.dataFd, .read)
      else (c.fd, .write)
    | .write | .pipeWrite | .done => (c.fd, .write)
    | .pipeRead => (c.req.dataFd, .read)
    | .bodyWrite => (c.req.postDataFd, .write)
    | _ => (c.fd, .read)

/-- A keep-alive connection on which nothing was read is dropped early. -/
def Conn.timedOut (clock : Clock) (c : Conn) : Bool :=
  decide (c.timeLast + requestTimeout < clock.now) ||
    (decide (c.req.kacount < clock.kaMax) && decide (c.timeLast + clock.kaTimeout ≤ clock.now) &&
      !c.req.logline)

def Conn.setStatus (c : Conn) (s : Status) : Conn := { c with req := { c.req with status := s } }

namespace Sched

variable {W : Type} (M : Watch W) (σ : Sched W)

def setWatch (w : W) : Sched W := { σ with watch := w }

def setPending (b : Bool) : Sched W := { σ with pendingRequests := b }

def setConn (a : ℕ) (c : Conn) : Sched W := { σ with conns := Function.update σ.conns a c }

def enqueue (p : Place) (a : ℕ) : Sched W :=
  let r := DList.enqueue σ.links (σ.heads p) a
  { σ with links := r.1, heads := Function.update σ.heads p r.2 }

def dequeue (p : Place) (a : ℕ) : Sched W :=
  let r := DList.dequeue σ.links (σ.heads p) a
  { σ with links := r.1, heads := Function.update σ.heads p r.2 }

/-- `BOA_FD_SET` for the request `a`. -/
def fdSet (a : ℕ) (t : ℕ × Dir) : Sched W :=
  let r := M.fdSet σ.watch (σ.conns a) t.1 t.2
  { σ with watch := r.1, conns := Function.update σ.conns a r.2 }

def fdClr (t : ℕ × Dir) : Sched W := { σ with watch := M.fdClr σ.watch t.1 t.2 }

/-- `BOA_FD_CLR` behind `if (fd)`. -/
def fdClrOpen (t : ℕ × Dir) : Sched W := if t.1 ≠ 0 then σ.fdClr M t else σ

def blockRequest (a : ℕ) : Sched W :=
  ((σ.dequeue .ready a).enqueue .block a).fdSet M a ((σ.conns a).target M.haveSendfile)

def readyRequest (a : ℕ) : Sched W :=
  ((σ.dequeue .block a).enqueue .ready a).fdClr M ((σ.conns a).target M.haveSendfile)

/-- `new_request` before `sanitize_request`; `fresh` is what `malloc` returns. -/
def newRequest (fresh : ℕ) : Sched W × ℕ :=
  match σ.heads .free with
  | some a => (σ.dequeue .free a, a)
  | none => ({ σ with objects := fresh :: σ.objects }, fresh)

/-- `get_request`. -/
def getRequest (env : Env) (acc : Accept) (fresh : ℕ) : Sched W :=
  match acc with
  | .nothing => { σ with pendingRequests := false }
  | .refused => σ
  | .failed =>
    let (σ, a) := σ.newRequest fresh
    σ.enqueue .free a
  | .ok fd peer =>
    let (σ, a) := σ.newRequest fresh
    let total := σ.totalConnections + 1
    let tooMany := decide (σ.maxConnections < total)
    let σ := { σ with
      totalConnections := total
      pendingRequests := σ.pendingRequests && !tooMany }
    (σ.setConn a
      { req := (σ.conns a).req.getRequest env { peer with tooMany := tooMany }
        fd := fd
        timeLast := env.currentTime }).enqueue .ready a

/-- `if (pending_requests) get_request(server_sock)`. -/
def getPending (env : Env) (acc : Accept) (fresh : ℕ) : Sched W :=
  if σ.pendingRequests then σ.getRequest env acc fresh else σ

/-- The part of `free_request` that closes the descriptors of the answer. -/
def dropData (c : Request) : Sched W :=
  (σ.fdClrOpen M (c.dataFd, .read)).fdClrOpen M (c.postDataFd, .write)

/-- `free_request`: more to flush, kept alive, or closed. -/
def freeRequest (env : Env) (a : ℕ) : Sched W :=
  let c := σ.conns a
  let r := c.req.freeRequest env
  match r.2 with
  | .ready => σ.setConn a { c with req := r.1 }
  | .block =>
    let σ := (σ.dequeue .ready a).dropData M c.req
    -- `sanitize_request` clears `pollfd_id` too
    let σ := (σ.setConn a { c with req := r.1, pollfdId := 0 }).enqueue .block a
    (σ.fdSet M a (c.fd, .read)).fdClr M (c.fd, .write)
  | .free =>
    let σ := (σ.dequeue .ready a).dropData M c.req
    let σ := ((σ.setConn a { c with req := r.1 }).fdClr M (c.fd, .read)).fdClr M (c.fd, .write)
    { σ with totalConnections := σ.totalConnections - 1 }.enqueue .free a

/-- The loop body of `process_requests` up to the return value of the handler. -/
def handle (env : Env) (a : ℕ) : Sched W × Ret :=
  let c := σ.conns a
  let r := c.req.serveOnce env
  (σ.setConn a { c with req := r.1.heedSigterm env }, r.2)

/-- `current->time_last = current_time`. -/
def touch (env : Env) (a : ℕ) : Sched W :=
  σ.setConn a { σ.conns a with timeLast := env.currentTime }

/-- The end of the loop body, with the next `current`. -/
def dispatch (env : Env) (a : ℕ) (ret : Ret) : Sched W × Option ℕ :=
  match ret with
  | .blocked => (σ.blockRequest M a, σ.links.next a)
  | .done => ((σ.touch env a).freeRequest M env a, σ.links.next a)
  | .more => (σ.touch env a, σ.links.next a)

/-- One round of `fdset_update` or `update_blocked`, for `current = a`. -/
def updateRound (clock : Clock) (a : ℕ) : Sched W × Option ℕ :=
  let next := σ.links.next a
  let r := M.scan clock σ.watch (σ.conns a)
  let σ := { σ with watch := r.1 }.setConn a r.2.1
  (if r.2.2 then σ.readyRequest M a else σ, next)

/-- `free_requests`: the nodes of the free list are given back to the system. -/
def freeRequests : Sched W :=
  let freed := walk σ.links σ.objects.length (σ.heads .free)
  { σ with
    heads := Function.update σ.heads .free none
    objects := σ.objects.filter fun a => a ∉ freed }

end Sched

/-- Where the server is: in its main loop, at a request of the block list, or at a request
of the ready list before its handler, behind it, or behind the `get_request` that follows. -/
inductive Point
  | loop
  | updating (current : Option ℕ)
  | serving (current : Option ℕ)
  | handled (current : ℕ) (ret : Ret)
  | dispatching (current : ℕ) (ret : Ret)

/-- The point is in `process_requests`. -/
def Point.InProcess : Point → Prop
  | .serving _ | .handled _ _ | .dispatching _ _ => True
  | _ => False

/-- The steps of the server. `select`, `poll` and the signal handlers may do anything to
the watched descriptors; new connections are only reported while there is room, and a
reload may change the limit. -/
inductive SchedStep {W : Type} (M : Watch W) : Sched W × Point → Sched W × Point → Prop
  | watch (σ : Sched W) (w : W) : SchedStep M (σ, .loop) ({ σ with watch := w }, .loop)
  | pending (σ : Sched W) (b : Bool) (hb : b = true → σ.totalConnections ≤ σ.maxConnections) :
      SchedStep M (σ, .loop) ({ σ with pendingRequests := b }, .loop)
  | reload (σ : Sched W) (m : ℕ) :
      SchedStep M (σ, .loop) ({ σ.freeRequests with maxConnections := m }, .loop)
  | beginUpdate (σ : Sched W) : SchedStep M (σ, .loop) (σ, .updating (σ.heads .block))
  | update (σ : Sched W) (clock : Clock) (a : ℕ) :
      SchedStep M (σ, .updating (some a))
        ((σ.updateRound M clock a).1, .updating (σ.updateRound M clock a).2)
  | endUpdate (σ : Sched W) : SchedStep M (σ, .updating none) (σ, .loop)
  | beginServe (σ : Sched W) (env : Env) (acc : Accept) (fresh : ℕ) (hf : fresh ∉ σ.objects) :
      SchedStep M (σ, .loop)
        (σ.getPending env acc fresh, .serving ((σ.getPending env acc fresh).heads .ready))
  | handle (σ : Sched W) (env : Env) (a : ℕ) :
      SchedStep M (σ, .serving (some a)) ((σ.handle env a).1, .handled a (σ.handle env a).2)
  | accept (σ : Sched W) (env : Env) (acc : Accept) (fresh : ℕ) (hf : fresh ∉ σ.objects) (a : ℕ)
      (ret : Ret) :
      SchedStep M (σ, .handled a ret) (σ.getPending env acc fresh, .dispatching a ret)
  | dispatch (σ : Sched W) (env : Env) (a : ℕ) (ret : Ret) :
      SchedStep M (σ, .dispatching a ret)
        ((σ.dispatch M env a ret).1, .serving (σ.dispatch M env a ret).2)
  | endServe (σ : Sched W) : SchedStep M (σ, .serving none) (σ, .loop)

/-- A server that has just started. -/
def Sched.init {W : Type} (conns : ℕ → Conn) (links : Links ℕ) (maxConnections : ℕ) (w : W) :
    Sched W :=
  { links, conns, maxConnections, watch := w
    heads := fun _ => none
    objects := []
    totalConnections := 0
    pendingRequests := false }

/-- The states of the server; the flag says that `max_connections` never changed. -/
inductive SchedReach {W : Type} (M : Watch W) : Bool → Sched W × Point → Prop
  | init (conns : ℕ → Conn) (links : Links ℕ) (maxConnections : ℕ) (w : W) :
      SchedReach M true (.init conns links maxConnections w, .loop)
  | step {keep : Bool} {s t : Sched W × Point} (h : SchedReach M keep s) (hs : SchedStep M s t) :
      SchedReach M (keep && decide (t.1.maxConnections = s.1.maxConnections)) t

end Boa
