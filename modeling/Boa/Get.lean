import Boa.Cgi
import Boa.Date
import Boa.Range

/-! Static files and directories (get.c, access.c). -/
namespace Boa
open Memory

/-- `access_allow`: the first matching rule decides. -/
def accessAllow (env : Env) (file : Bytes) : Bool :=
  match env.cfg.accessRules.find? (fun rule => env.fnmatch rule.1 file) with
  | some rule => rule.2
  | none => true

/-- The name `init_get` tries instead of `foo.ll.html`. -/
def langRewrite (path : Bytes) : Option Bytes :=
  let len := path.length
  let lower (b : UInt8) : Bool := decide (97 ≤ b.toNat ∧ b.toNat ≤ 122)
  if len < 6 ∨ path.drop (len - 5) ≠ text ".html" then none
  else if 8 < len ∧ path.getD (len - 8) 0 = dot ∧ lower (path.getD (len - 7) 0) ∧
      lower (path.getD (len - 6) 0) then some (path.take (len - 7) ++ text "html")
  else none

/-- `escape_string`. -/
def escapeString (name : Bytes) : Bytes :=
  name.flatMap fun c =>
    if needsEscape c then [percent, intToHex (c.toNat / 16), intToHex (c.toNat % 16)] else [c]

/-- The page `index_directory` writes to the cache file. -/
def indexText (uri : Bytes) (entries : List Bytes) : Bytes :=
  text "<HTML><HEAD>\n<TITLE>Index of " ++ uri ++ text "</TITLE>\n</HEAD>\n\n" ++
    text "<BODY>\n\n<H2>Index of " ++ uri ++ text "</H2>\n\n<PRE>\n" ++
    (entries.flatMap fun name =>
      if name = text "." then []
      else if name = text ".." then text " [DIR] <A HREF=\"../\">Parent Directory</A>\n"
      else if name = [] then []
      else text " <A HREF=\"" ++ escapeString name ++ text "\">" ++ name ++ text "</A>\n") ++
    text "</PRE>\n\n</BODY>\n</HTML>\n"

/-- `%d` of an `int`. -/
def printInt (n : ℤ) : Bytes := if n < 0 then 45 :: simpleItoa n.natAbs else simpleItoa n.natAbs

/-- The name of the cache file of a directory. -/
def cacheName (cachedir : Bytes) (dir : File) : Bytes :=
  cachedir ++ text "/dir." ++ printInt (BitVec.ofNat 32 dir.dev).toInt ++ text "." ++
    simpleItoa dir.ino

/-- What `get_dir` returns: -1, the value of `init_cgi`, or an open file with its name. -/
inductive DirResult
  | failed
  | started (r : Ret)
  | file (f : File) (path : Bytes)

namespace Request

/-- The current path; `translate_uri` has set it before any of this runs. -/
def path (c : Request) : Bytes := c.pathname.getD []

/-- A header that is not followed by a known body: gunzip and the directory maker. -/
def streamHeader (env : Env) (c : Request) (line : String) (tail : List Msg) : Request :=
  if c.httpVersion = .http09 then c
  else (c.writes (c.statusLine line ++ c.printHttpHeaders env ++ tail)).reqFlush

/-- `index_directory`; `false` is -1. -/
def indexDirectory (env : Env) (c : Request) : Request × Bool :=
  match env.chdirErr with
  | some .eacces => (c.sendRForbidden env, false)
  | some _ => (c.sendRBadRequest env, false)
  | none =>
    if !env.opendirOk then (c.sendRError env, false)
    else if !env.fopenOk then (c.boaPerror env, false)
    else ({ c with filesize := (indexText c.requestUri env.dirEntries).length }, true)

/-- `strcpy(req->request_uri, directory_index)`; `directory_index` may be null. -/
def useIndexName (env : Env) (c : Request) : Request :=
  match env.cfg.directoryIndex with
  | some index => { c with requestUri := index }
  | none => c.log .wild

/-- `get_cachedir_file` once the cache file is missing or stale. -/
def rebuildCache (env : Env) (c : Request) (dir : File) (name : Bytes) : Request × DirResult :=
  match c.indexDirectory env with
  | (c, false) => (c, .failed)
  | (c, true) =>
    match env.reopen with
    | .ok f => ((c.log (.opened f.fd)).useIndexName env, .file { f with mtime := dir.mtime } name)
    | .error _ => (c.boaPerror env, .failed)

/-- `get_cachedir_file`. -/
def getCachedirFile (env : Env) (c : Request) (cachedir : Bytes) (dir : File) :
    Request × DirResult :=
  let name := cacheName cachedir dir
  match env.fs.openFile name with
  | .error _ => c.rebuildCache env dir name
  | .ok f =>
    let c := c.log (.opened f.fd)
    if dir.mtime < f.mtime then (c.useIndexName env, .file { f with mtime := dir.mtime } name)
    else (c.log (.closed f.fd)).rebuildCache env dir name

/-- `get_dir` when there is no index file. -/
def makeDir (env : Env) (c : Request) (dir : File) : Request × DirResult :=
  if env.cfg.dirmaker.isSome then
    let c : Request := { c.squashKa with responseStatus := 200 }
    let c := c.streamHeader env " 200 OK\r\n"
      (c.printLastModified env ++ [.raw (text "Content-Type: text/html\r\n\r\n")])
    if c.method = .head then (c, .started .done)
    else
      let r := c.initCgi env
      (r.1, .started r.2)
  else
    match env.cfg.cachedir with
    | some cachedir => c.getCachedirFile env cachedir dir
    | none => (c.sendRForbidden env, .failed)

/-- `get_dir` when the `.gz` form of the index file was opened. -/
def gunzipIndex (env : Env) (c : Request) (f : File) (index gz : Bytes) : Request × DirResult :=
  let c := (c.log (.opened f.fd)).log (.closed f.fd)
  let c : Request := { c.squashKa with responseStatus := 200, pathname := some gz }
  let c := c.streamHeader env " 200 OK-GUNZIP\r\n"
    (c.printLastModified env ++ [.raw (text "Content-Type: "), .raw (getMimeType env.cfg index),
      .raw (text "\r\n\r\n")])
  if c.method = .head then (c, .started .done)
  else
    let r := ((c.log .gunzip).log (.serve gz)).initCgi env
    (r.1, .started r.2)

/-- `get_dir`. -/
def getDir (env : Env) (c : Request) (dir : File) : Request × DirResult :=
  match env.cfg.directoryIndex with
  | none => c.makeDir env dir
  | some index =>
    let name := c.path ++ index
    if maxPathLength < name.length + (if env.cfg.gunzip then 3 else 0) + 1 then
      (c.boaPerror env, .failed)
    else
      match env.fs.openFile name with
      | .ok f => ({ c.log (.opened f.fd) with requestUri := index }, .file f name)
      | .error .eacces => (c.sendRForbidden env, .failed)
      | .error .other => (c.sendRNotFound env, .failed)
      | .error .enoent =>
        if env.cfg.gunzip then
          match env.fs.openFile (name ++ text ".gz") with
          | .ok f => c.gunzipIndex env f index (name ++ text ".gz")
          | .error _ => c.makeDir env dir
        else c.makeDir env dir

/-- Count `n` bytes of the first range as written. -/
def moveRange (c : Request) (r : Range) (rest : List Range) (n : ℕ) : Request :=
  { c with
    bytesWritten := c.bytesWritten + n
    ranges := { r with start := r.start + n } :: rest }

/-- `memcpy` of file data behind the buffered text. -/
def bufferData (c : Request) (bs : Bytes) : Request := { c with toOut := c.toOut.append .data bs }

/-- Throw away the response text that was not sent. -/
def withdraw (c : Request) : Request :=
  let c := c.log (.withdrawn c.pending)
  { c with toOut := c.toOut.resetOutputBuffer }

/-- The first `memcpy` of a mapped file into `req->buffer`. -/
def firstChunk (env : Env) (c : Request) : Request × Ret :=
  match c.dataMem, c.ranges with
  | some mem, r :: rest =>
    let bytesFree := bufferSize - c.bufferEnd
    if 256 < bytesFree then
      let want := r.bytes % 2 ^ 32
      let n := min bytesFree want
      if env.sigbus then (c.withdraw.sendRError env, .done)
      else
        let c := (c.bufferData (slice mem r.start (r.start + n))).moveRange r rest n
        if n = want then c.completeResponse env else (c, .more)
    else (c, .more)
  | _, _ => (c, .more)

/-- Map the file or keep its descriptor, whichever way it will be sent. -/
def attachData (env : Env) (c : Request) (f : File) : Request :=
  if maxFileMmap < c.filesize ∨ !env.mapped then { c with dataFd := f.fd, status := .ioShuffle }
  else { c with dataMem := some f.data }.log (.closed f.fd)

/-- The rest of `init_get` after the transfer is set up. -/
def startTransfer (env : Env) (c : Request) : Request × Ret :=
  if c.method = .head then c.completeResponse env else c.firstChunk env

/-- `init_get` from the choice between a full and a partial response on. -/
def respond (env : Env) (c : Request) : Request × Ret :=
  match c.ranges with
  | r :: _ => (c.sendRPartialContent env r).startTransfer env
  | [] =>
    match { c with ranges := [⟨0, ulongMax⟩] }.rangesFixup env with
    | (c, false) => (c, .done)
    | (c, true) => (c.sendRRequestOk env).startTransfer env

/-- `!modified_since(..)` with a date given. -/
def notModified (env : Env) (c : Request) (f : File) : Bool :=
  match c.ifModifiedSince with
  | some date => modifiedSince env f.mtime date == some false
  | none => false

/-- `init_get` for an open regular file. -/
def serveRegular (env : Env) (c : Request) (f : File) : Request × Ret :=
  if c.notModified env f then ((c.sendRNotModified env).log (.closed f.fd), .done)
  else
    let c := { c with filesize := f.size, lastModified := f.mtime }
    if c.filesize = 0 then
      if c.httpVersion = .http11 then ((c.sendRNoContent env).log (.closed f.fd), .done)
      else ((c.sendRRequestOk env).log (.closed f.fd), .done)
    else if c.ranges ≠ [] then
      match c.rangesFixup env with
      | (c, false) => (c.log (.closed f.fd), .done)
      | (c, true) => (c.attachData env f).respond env
    else (c.attachData env f).respond env

/-- `init_get` for an open file with the name `path`. -/
def serveFile (env : Env) (c : Request) (f : File) (path : Bytes) : Request × Ret :=
  if f.kind ≠ .reg then ((c.sendRBadRequest env).log (.closed f.fd), .done)
  else (c.log (.serve path)).serveRegular env f

/-- The URL of a directory with its final `/`, as it is put together in a local buffer. -/
def directoryUrl (env : Env) (c : Request) : Bytes :=
  let scheme := if env.cfg.hstsHeader.isSome then text "https://" else text "http://"
  let l4 := if env.staticL4 = 0 then scheme.length else env.staticL4
  let port := if env.cfg.serverPort ≠ 80 ∧ !env.cfg.noRedirectPort
    then colon :: simpleItoa env.cfg.serverPort else []
  (scheme ++ [0]).take l4 ++ c.host.getD env.cfg.serverName ++ port ++ c.requestUri ++ [slash]

/-- The redirect of a directory named without its final `/`. -/
def redirectDirectory (env : Env) (c : Request) : Request :=
  let url := c.directoryUrl env
  if 3 * maxPathLength + 128 < url.length then c.boaPerror env else c.sendRMovedPerm env (cstr url)

/-- `init_get` for a directory. -/
def serveDirectory (env : Env) (c : Request) (dir : File) : Request × Ret :=
  let c := c.log (.closed dir.fd)
  if c.path.getLast? ≠ some slash then (c.redirectDirectory env, .done)
  else
    match c.getDir env dir with
    | (c, .failed) => (c, .done)
    | (c, .started r) => (c, r)
    | (c, .file f path) => c.serveFile env f path

/-- `init_get` once something was opened. -/
def serveOpened (env : Env) (c : Request) (f : File) : Request × Ret :=
  if env.cfg.accessControl ∧ !accessAllow env c.path then (c.sendRForbidden env, .done)
  else if f.kind = .dir then c.serveDirectory env f
  else c.serveFile env f c.path

/-- The response when nothing could be opened. -/
def openFailed (env : Env) (c : Request) (savedErrno : Errno) : Request :=
  match savedErrno with
  | .enoent => c.sendRNotFound env
  | .eacces => c.sendRForbidden env
  | .other => c.sendRBadRequest env

/-- The gunzip branch of `init_get`; `none` when there is no `.gz` file either. -/
def gunzipDocument (env : Env) (c : Request) : Option (Request × Ret) :=
  if maxPathLength < c.path.length + 4 then some (c.sendRBadRequest env, .done)
  else
    let gz := c.path ++ text ".gz"
    match env.fs.openFile gz with
    | .error _ => none
    | .ok f =>
      let c := (c.log (.opened f.fd)).log (.closed f.fd)
      let c : Request := { c with responseStatus := 200, pathname := some gz }
      let c := c.streamHeader env " 200 OK-GUNZIP\r\n"
        (c.printContentType env ++ c.printLastModified env ++ [.raw crlf])
      if c.method = .head then some (c, .done)
      else some (((c.log .gunzip).log (.serve gz)).initCgi env)

/-- The second `open` of `init_get`: the name without its language, or the old
name again. Returns the request and the new error if that fails too. -/
def openRewritten (env : Env) (c : Request) (e : Errno) : Request × Except Errno File :=
  if env.cfg.useLangRewrite ∧ e = .enoent then
    match langRewrite c.path with
    | none => (c, .error e)
    | some name =>
      match env.fs.openFile name with
      | .ok f => ({ c.log (.opened f.fd) with pathname := some name }, .ok f)
      | .error e => (c, .error e)
  else (c, .error e)

/-- `init_get`. -/
def initGet (env : Env) (c : Request) : Request × Ret :=
  match env.fs.openFile c.path with
  | .ok f => (c.log (.opened f.fd)).serveOpened env f
  | .error savedErrno =>
    match c.openRewritten env savedErrno with
    | (c, .ok f) => c.serveOpened env f
    | (c, .error e) =>
      if env.cfg.gunzip ∧ e = .enoent then
        match c.gunzipDocument env with
        | some r => r
        | none => (c.openFailed env savedErrno, .done)
      else (c.openFailed env savedErrno, .done)

/-- Take the next answer of the client socket. -/
def popSock (c : Request) : Request := { c with sock := c.sock.tail }

/-- Body bytes that go to the client past the buffer. -/
def sendDirect (c : Request) (bs : Bytes) : Request := (c.log (.data bs)).log (.sent bs)

/-- `process_get`. -/
def processGet (env : Env) (c : Request) : Request × Ret :=
  if c.method = .head then c.completeResponse env
  else
    match c.ranges with
    | [] => (c.log .wild, .done)
    | r :: rest =>
      let want := min r.bytes env.systemBufsize
      if env.sigbus then ({ c.log .fileError with status := .dead }, .done)
      else
        match c.nextWrite with
        | .again => (c.popSock, .blocked)
        | .intr | .err => ({ c.popSock with status := .dead }, .done)
        | .wrote n =>
          let bs := slice (c.dataMem.getD []) r.start (r.start + min n want)
          let c := (c.popSock.sendDirect bs).moveRange r rest (min n want)
          if r.stop + 1 = r.start + min n want then c.completeResponse env else (c, .more)

end Request
end Boa
