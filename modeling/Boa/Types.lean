import Boa.Bytes
import Boa.Memory

/-! The data of the server: the enumerations and constants of globals.h and
defines.h, the configuration, the request record, and what the system calls of
one scheduler pass answer. -/
namespace Boa

/-- `enum REQ_STATUS`, in the source's order. -/
inductive Status
  | readHeader | oneCr | oneLf | twoCr
  | bodyRead | bodyWrite
  | write
  | pipeRead | pipeWrite
  | ioShuffle
  | done
  | timedOut
  | dead
  deriving DecidableEq, Repr

/-- The numeric value of a status; the source compares statuses with `<`. -/
def Status.rank : Status → ℕ
  | .readHeader => 0 | .oneCr => 1 | .oneLf => 2 | .twoCr => 3
  | .bodyRead => 4 | .bodyWrite => 5 | .write => 6
  | .pipeRead => 7 | .pipeWrite => 8 | .ioShuffle => 9
  | .done => 10 | .timedOut => 11 | .dead => 12

instance : LT Status := ⟨fun a b => a.rank < b.rank⟩
instance : LE Status := ⟨fun a b => a.rank ≤ b.rank⟩
instance (a b : Status) : Decidable (a < b) := inferInstanceAs (Decidable (a.rank < b.rank))
instance (a b : Status) : Decidable (a ≤ b) := inferInstanceAs (Decidable (a.rank ≤ b.rank))

lemma Status.lt_def {a b : Status} : a < b ↔ a.rank < b.rank := Iff.rfl
lemma Status.le_def {a b : Status} : a ≤ b ↔ a.rank ≤ b.rank := Iff.rfl

/-- The four statuses in which `read_header` parses. -/
def Status.inHeader (s : Status) : Prop := s < .bodyRead

instance (s : Status) : Decidable s.inHeader := inferInstanceAs (Decidable (s < .bodyRead))

/-- `enum HTTP_VERSION`; a cleared request holds none of its values. -/
inductive Version
  | unset | http09 | http10 | http11
  deriving DecidableEq, Repr

/-- The values of `enum HTTP_METHOD` that are ever stored. -/
inductive Method
  | unset | get | head | post
  deriving DecidableEq, Repr

inductive KaStatus
  | inactive | active | stopped
  deriving DecidableEq, Repr

inductive CgiStatus
  | parse | buffer | done
  deriving DecidableEq, Repr

/-- `enum CGI_TYPE`, with the cleared value first. -/
inductive CgiType
  | none | nph | cgi
  deriving DecidableEq, Repr

inductive AliasType
  | alias | scriptalias | redirect
  deriving DecidableEq, Repr

def clientStreamSize : ℕ := 8192
def bufferSize : ℕ := 4096
def maxHeaderLength : ℕ := 1536
def maxPathLength : ℕ := 4096
def aliasHashtableSize : ℕ := 17
def cgiEnvMax : ℕ := 100
def maxFileMmap : ℕ := 100 * 1024

/-- Return values of the handlers: -1, 0 and 1. -/
inductive Ret
  | blocked | done | more
  deriving DecidableEq, Repr

/-- `struct range`; both ends are 64-bit `unsigned long`. -/
structure Range where
  start : ℕ
  stop : ℕ
  deriving DecidableEq, Repr

/-- `stop - start + 1` as an `unsigned long`. -/
@[irreducible] def Range.bytes (r : Range) : ℕ := (2 ^ 64 + r.stop + 1 - r.start) % 2 ^ 64

/-- The offset is negative as an `off_t`. -/
@[irreducible] def offNegative (n : ℕ) : Bool := !decide (n < 2 ^ 63)

/-- The value `-1` of an `unsigned long`. -/
def ulongMax : ℕ := 2 ^ 64 - 1

inductive Area
  | clientStream | buffer
  deriving DecidableEq, Repr

/-- `header_line` and `header_end` point into one of two arrays of the request. -/
structure Ptr where
  area : Area := .clientStream
  off : ℕ := 0
  deriving DecidableEq, Repr

/-- Text taken from a configuration file: `fgets` reads at most 1023 bytes of a
line, and neither the line end nor a NUL is part of an argument. -/
structure ConfText where
  val : Bytes
  short : val.length < 1024
  noLf : lf ∉ val
  noNul : 0 ∉ val

instance : Coe ConfText Bytes := ⟨ConfText.val⟩

/-- `struct alias`; `add_alias` refuses empty names. -/
structure Alias where
  fakename : ConfText
  realname : ConfText
  type : AliasType
  fake_ne : fakename.val ≠ []
  real_ne : realname.val ≠ []

/-- Broken-down time with the ranges `gmtime` promises, and the full year. -/
structure Tm where
  sec : Fin 61
  min : Fin 60
  hour : Fin 24
  mday : Fin 32
  mon : Fin 12
  wday : Fin 7
  year : ℤ

/-- The global server variables set by the configuration and by the build. -/
structure Config where
  haveSendfile : Bool := true
  gunzip : Bool := true
  accessControl : Bool := false
  kaMax : ℕ := 1000
  kaTimeout : ℕ := 10
  serverName : ConfText
  serverPort : ℕ := 80
  documentRoot : Option ConfText := none
  userDir : Option ConfText := none
  directoryIndex : Option ConfText := none
  dirmaker : Option ConfText := none
  cachedir : Option ConfText := none
  vhostRoot : Option ConfText := none
  defaultVhost : ConfText
  virtualhost : Bool := false
  useLangRewrite : Bool := false
  useCaudiumHack : Bool := false
  noRedirectPort : Bool := false
  concealServerIdentity : Bool := false
  hstsHeader : Option ConfText := none
  defaultType : ConfText
  defaultCharset : Option ConfText := none
  mimeTypes : List (ConfText × ConfText) := []
  aliasHashtable : List (List Alias) := []
  commonCgiEnv : List Bytes := []
  singlePostLimit : ℕ := 1024 * 1024
  accessRules : List (ConfText × Bool) := []
  maxConnections : ℕ := 1004

inductive Errno
  | enoent | eacces | other
  deriving DecidableEq, Repr

inductive Kind
  | dir | reg | other
  deriving DecidableEq, Repr

/-- An open file: its descriptor, what `fstat` says and what a mapping holds. The
standard descriptors are taken, so `open` never returns one of them, and the size is
an `off_t`. -/
structure File where
  fd : ℕ
  kind : Kind
  data : Bytes
  mtime : ℤ
  dev : ℕ := 0
  ino : ℕ := 0
  fd_gt : 2 < fd := by decide
  size_lt : data.length < 2 ^ 63 := by decide
  deriving DecidableEq, Repr

def File.size (f : File) : ℕ := f.data.length

structure FileSys where
  openFile : Bytes → Except Errno File
  stat : Bytes → Except Errno Kind
  /-- `access(path, R_OK|X_OK) == 0` -/
  access : Bytes → Bool

inductive ReadRes
  | data (bs : Bytes) | eof | again | intr | err
  deriving DecidableEq, Repr

/-- Result of `write`; a count above the length asked for is cut to it. -/
inductive WriteRes
  | wrote (n : ℕ) | again | intr | err
  deriving DecidableEq, Repr

/-- Result of `sendfile`, with the bytes of the file it moved to the socket. -/
inductive SendRes
  | sent (bs : Bytes) | again | intr | nosys | err
  deriving DecidableEq, Repr

/-- The two fields and the descriptor whose overwriting would lose a resource. -/
inductive Owned
  | postDataFd | pathname | scriptName
  deriving DecidableEq, Repr

inductive Reject
  | illegalChar (uc : UInt8) | headerTooLong (n : ℕ) | streamFull
  deriving DecidableEq, Repr

/-- What a request does, as seen by its client, its file system and a reader of
the source. -/
inductive Event
  /-- response text appended to `req->buffer` -/
  | queued (bs : Bytes)
  /-- body bytes put into `req->buffer`, taken from the pipe or handed to the socket -/
  | data (bs : Bytes)
  /-- unsent response text thrown away, to be replaced by an error response -/
  | withdrawn (bs : Bytes)
  /-- bytes the client socket accepted -/
  | sent (bs : Bytes)
  /-- bytes received on the client socket by `read_header` -/
  | received (bs : Bytes)
  /-- `print_ka_phrase` wrote `Connection: Keep-Alive` (or `close`) -/
  | kaPhrase (alive : Bool)
  /-- `print_content_length` or `send_r_partial_content` announced a length -/
  | contentLength (n : ℕ)
  | logline (line : Bytes)
  | optionLine (line : Bytes)
  | headerEnd
  | reject (why : Reject)
  /-- end of file on the client socket while a header was being read -/
  | clientEof
  /-- an owned field was assigned while it still held a value -/
  | overwrite (f : Owned)
  /-- the named file was chosen to answer the request -/
  | serve (path : Bytes)
  /-- the `.gz` form of the file is handed to gunzip -/
  | gunzip
  /-- `read` on the data file returned 0 in `io_shuffle` -/
  | fileEof
  /-- `lseek`, `read` or `sendfile` on the data file failed -/
  | fileError
  /-- `req_write` found no room in `req->buffer` -/
  | noRoom
  /-- an access outside its object -/
  | wild
  /-- bytes written to the temporary file of a POST -/
  | posted (bs : Bytes)
  | opened (fd : ℕ)
  | closed (fd : ℕ)
  /-- `log_access` with the response status and `bytes_written` -/
  | logged (status bytes : ℕ)
  deriving DecidableEq, Repr

/-- Everything outside the request that one pass of the scheduler depends on. -/
structure Env where
  cfg : Config
  fs : FileSys
  /-- `fnmatch(pattern, name, 0) == 0` -/
  fnmatch : Bytes → Bytes → Bool := fun _ _ => false
  getHomeDir : Bytes → Option Bytes := fun _ => none
  gmtime : ℤ → Tm
  currentTime : ℕ := 1
  /-- bytes other requests left in the static `pathname` of `init_script_alias` -/
  staticPathname : Bytes := []
  /-- the static `l4` of `init_get`: length of the first redirect's scheme, 0 before -/
  staticL4 : ℕ := 0
  systemBufsize : ℕ := 32768
  sigterm : Bool := false
  /-- touching the mapping raises SIGBUS -/
  sigbus : Bool := false
  /-- `find_mmap` succeeds -/
  mapped : Bool := true
  /-- descriptor from `create_temporary_file`, 0 on failure -/
  tempFd : ℕ := 0
  cloexecOk : Bool := true
  /-- read end from `pipe`, 0 on failure -/
  pipeFd : ℕ := 0
  nonblockOk : Bool := true
  forkOk : Bool := true
  /-- `chdir`, `opendir` and `fopen` in `index_directory` -/
  chdirErr : Option Errno := none
  opendirOk : Bool := true
  fopenOk : Bool := true
  dirEntries : List Bytes := []
  /-- the second `open` of a directory cache file -/
  reopen : Except Errno File := .error .other
  lseekOk : Bool := true
  /-- results of the successive calls on the client socket, the data descriptor
  and the temporary file; a list that runs out answers EAGAIN -/
  sock : List WriteRes := []
  client : List ReadRes := []
  file : List ReadRes := []
  sendfile : List SendRes := []
  post : List WriteRes := []

/-- The part of `struct request` that buffer.c works on, the remaining answers
of the client socket, and the events of the request so far. -/
structure Out where
  status : Status := .readHeader
  buffer : Bytes := []
  bufferStart : ℕ := 0
  bufferEnd : ℕ := 0
  sock : List WriteRes := []
  trace : List Event := []

/-- The part of `struct request` that `sanitize_request` does not clear, the
answers still due in this pass, and the events of earlier requests. -/
structure Link where
  localIpAddr : Bytes := []
  remoteIpAddr : Bytes := []
  remotePort : ℕ := 0
  kacount : ℕ := 0
  /-- the first `client_stream_pos` bytes of `client_stream` -/
  clientStream : Bytes := []
  requestUri : Bytes := []
  cgiEnv : List (Option Bytes) := []
  client : List ReadRes := []
  file : List ReadRes := []
  sendfile : List SendRes := []
  post : List WriteRes := []
  past : List (List Event) := []

/-- `struct request`. The defaults of the fields below are the zeroes that
`sanitize_request` writes. -/
structure Request extends Out, Link where
  keepalive : KaStatus := .inactive
  httpVersion : Version := .unset
  method : Method := .unset
  responseStatus : ℕ := 0
  cgiType : CgiType := .none
  cgiStatus : CgiStatus := .parse
  pathname : Option Bytes := none
  ranges : List Range := []
  numranges : ℕ := 0
  dataFd : ℕ := 0
  filesize : ℕ := 0
  filepos : ℕ := 0
  bytesWritten : ℕ := 0
  dataMem : Option Bytes := none
  logline : Bool := false
  headerLine : Ptr := {}
  headerEnd : Ptr := {}
  parsePos : ℕ := 0
  ifModifiedSince : Option Bytes := none
  lastModified : ℤ := 0
  cgiEnvIndex : ℕ := 0
  headerHost : Option Bytes := none
  headerUserAgent : Option Bytes := none
  headerReferer : Option Bytes := none
  headerForwardedFor : Option Bytes := none
  host : Option Bytes := none
  postDataFd : ℕ := 0
  pathInfo : Option Bytes := none
  pathTranslated : Option Bytes := none
  scriptName : Option Bytes := none
  queryString : Option Bytes := none
  contentType : Option Bytes := none
  contentLength : Option Bytes := none

/-- Append an event to the trace of the request. -/
def Request.log (c : Request) (e : Event) : Request := { c with trace := c.trace ++ [e] }

/-- `SQUASH_KA`. -/
def Request.squashKa (c : Request) : Request := { c with keepalive := .stopped }

/-- `client_stream_pos`. -/
def Request.clientStreamPos (c : Request) : ℕ := c.clientStream.length

/-- The string at `header_line`. -/
def Request.lineAt (c : Request) : Bytes := Memory.cstr (c.clientStream.drop c.headerLine.off)

end Boa
