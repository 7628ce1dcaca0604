import Boa.Buffer

/-! The response texts (response.c): header printers, `complete_response` and the
`send_r_*` routines the server calls. -/
namespace Boa

def httpVerString : Version → Bytes
  | .http09 => text "HTTP/0.9"
  | .http10 => text "HTTP/1.0"
  | .http11 => text "HTTP/1.1"
  | .unset => text "HTTP/1.0"

def two (n : ℕ) : Bytes := [UInt8.ofNat (48 + n / 10), UInt8.ofNat (48 + n % 10)]

def monthTab : List Bytes :=
  ["Jan ", "Feb ", "Mar ", "Apr ", "May ", "Jun ",
   "Jul ", "Aug ", "Sep ", "Oct ", "Nov ", "Dec "].map text

def dayTab : List Bytes := ["Sun,", "Mon,", "Tue,", "Wed,", "Thu,", "Fri,", "Sat,"].map text

/-- The 29 characters `rfc822_time_buf` writes for a time in a year of four digits. -/
def rfc822Text (t : Tm) : Bytes :=
  dayTab.getD t.wday [] ++ [space] ++ two t.mday ++ [space] ++ monthTab.getD t.mon [] ++
    simpleItoa t.year.toNat ++ [space] ++ two t.hour ++ [colon] ++ two t.min ++ [colon] ++
    two t.sec ++ text " GMT"

/-- `rfc822_time_buf`: a zero time stands for the current one. -/
def rfc822TimeBuf (env : Env) (s : ℤ) : Bytes :=
  rfc822Text (env.gmtime (if s = 0 then env.currentTime else s))

/-- The text after the last `.` of a name. -/
def extension (name : Bytes) : Option Bytes :=
  if name.contains dot then some (name.reverse.takeWhile (· ≠ dot)).reverse else none

/-- `get_mime_type`, with the hash table as a first-match list. -/
def getMimeType (cfg : Config) (name : Bytes) : Bytes :=
  match extension name with
  | none | some [] => cfg.defaultType
  | some ext =>
    match cfg.mimeTypes.find? (fun p => p.1.val == ext) with
    | some p => p.2
    | none => cfg.defaultType

namespace Request

def printContentType (env : Env) (c : Request) : List Msg :=
  let mime := getMimeType env.cfg c.requestUri
  [.raw (text "Content-Type: "), .raw mime] ++
    (match env.cfg.defaultCharset with
      | some cs =>
        if startsWithCase (text "text") mime then [.raw (text "; charset="), .raw cs] else []
      | none => []) ++
    [.raw crlf]

def printContentLength (c : Request) : List Msg :=
  [.raw (text "Content-Length: "), .raw (simpleItoa c.filesize), .raw crlf,
    .len c.filesize]

def printLastModified (env : Env) (c : Request) : List Msg :=
  [.raw (text "Last-Modified: " ++ rfc822TimeBuf env c.lastModified ++ crlf)]

/-- The test of `print_ka_phrase`. -/
def keepsAlive (c : Request) : Bool :=
  decide (0 < c.kacount ∧ c.keepalive = .active ∧ c.responseStatus < 500)

def printKaPhrase (env : Env) (c : Request) : List Msg :=
  if c.keepsAlive then
    [.raw (text "Connection: Keep-Alive\r\nKeep-Alive: timeout="), .ka true,
      .raw (simpleItoa env.cfg.kaTimeout), .raw (text ", max="), .raw (simpleItoa c.kacount),
      .raw crlf]
  else [.raw (text "Connection: close\r\n"), .ka false]

def printHttpHeaders (env : Env) (c : Request) : List Msg :=
  [.raw (text "Date: " ++ rfc822TimeBuf env 0 ++ crlf)] ++
    (if env.cfg.concealServerIdentity then [] else [.raw (text "Server: Boa/0.94.101wk\r\n")]) ++
    (match env.cfg.hstsHeader with
      | some h => [.raw (text "Strict-Transport-Security: "), .raw h, .raw crlf]
      | none => []) ++
    [.raw (text "Accept-Ranges: bytes\r\n")] ++ c.printKaPhrase env

def printContentRange (c : Request) (r : Range) : List Msg :=
  [.raw (text "Content-Range: bytes "), .raw (simpleItoa r.start), .raw (text "-"),
    .raw (simpleItoa r.stop), .raw (text "/"), .raw (simpleItoa c.filesize), .raw crlf]

/-- `print_partial_content_continue`, for the first range of the request. -/
def printPartialContentContinue (env : Env) (c : Request) (r : Range) : List Msg :=
  (if 1 < c.numranges then [.raw (text "\r\n--THIS_STRING_SEPARATES\r\n")] else []) ++
    c.printContentType env ++ c.printContentRange r

def printPartialContentDone : List Msg := [.raw (text "\r\n--THIS_STRING_SEPARATES--\r\n")]

/-- `complete_response`. The request always holds a range here; without one the
source would follow a null pointer. -/
def completeResponse (env : Env) (c : Request) : Request × Ret :=
  match c.ranges with
  | [] => (c.log .wild, .done)
  | _ :: rest =>
    let c := { c with ranges := rest }
    if c.responseStatus = 206 ∧ 1 < c.numranges then
      match rest with
      | r :: _ => (c.writes (c.printPartialContentContinue env r ++ [.raw crlf]), .more)
      | [] => ({ c.writes printPartialContentDone with status := .done }.reqFlush, .more)
    else ({ c with status := .done }, .done)

def statusLine (c : Request) (line : String) : List Msg :=
  [.raw (httpVerString c.httpVersion), .raw (text line)]

def sendRRequestOk (env : Env) (c : Request) : Request :=
  let c := { c with responseStatus := 200 }
  if c.httpVersion = .http09 then c
  else
    c.writes (c.statusLine " 200 OK\r\n" ++ c.printHttpHeaders env ++
      (if c.cgiType = .none then
        c.printContentLength ++ c.printLastModified env ++ c.printContentType env ++ [.raw crlf]
      else []))

def sendRNoContent (env : Env) (c : Request) : Request :=
  let c := { c with responseStatus := 204 }
  if c.httpVersion = .http09 then c
  else
    c.writes (c.statusLine " 204 NO CONTENT\r\n" ++ c.printHttpHeaders env ++
      (if c.cgiType = .none then [.raw crlf] else []))

def sendRPartialContent (env : Env) (c : Request) (r : Range) : Request :=
  let c := { c with responseStatus := 206 }
  c.writes (c.statusLine " 206 Partial Content\r\n" ++ c.printHttpHeaders env ++
    c.printLastModified env ++
    (if 1 < c.numranges then
      [.raw (text "Content-Type: multipart/byteranges; boundary=THIS_STRING_SEPARATES\r\n"),
        .raw crlf]
    else
      [.raw (text "Content-Length: "), .raw (simpleItoa r.bytes), .raw crlf, .len r.bytes]) ++
    c.printPartialContentContinue env r ++ [.raw crlf])

def htmlType : List Msg := [.raw (text "Content-Type: text/html; charset=ISO-8859-1\r\n")]
def htmlTypeEnd : List Msg := [.raw (text "Content-Type: text/html; charset=ISO-8859-1\r\n\r\n")]

/-- The shape the error and redirect responses share: stop keep-alive, set the
status, write the header unless the request is HTTP/0.9, write the body unless it
is a HEAD, flush. -/
def sendR (env : Env) (c : Request) (code : ℕ) (line : String) (header body : List Msg) : Request :=
  let c := { c.squashKa with responseStatus := code }
  let c := if c.httpVersion ≠ .http09
    then c.writes (c.statusLine line ++ c.printHttpHeaders env ++ header) else c
  let c := if c.method ≠ .head then c.writes body else c
  c.reqFlush

def sendRMovedPerm (env : Env) (c : Request) (url : Bytes) : Request :=
  c.sendR env 301 " 301 Moved Permanently\r\n"
    (htmlType ++ [.raw (text "Location: "), .http url, .raw (text "\r\n\r\n")])
    [.raw (text "<HTML><HEAD><TITLE>301 Moved Permanently</TITLE></HEAD>\n<BODY>\n<H1>301 Moved</H1>The document has moved\n<A HREF=\""),
      .html url, .raw (text "\">here</A>.\n</BODY></HTML>\n")]

/-- `send_r_moved_temp`, for the calls that write its two arguments. -/
def movedTemp (env : Env) (c : Request) (http html moreHdr : Msg) : Request :=
  c.sendR env 302 " 302 Moved Temporarily\r\n"
    (htmlType ++ [.raw (text "Location: "), http, .raw crlf, moreHdr, .raw (text "\r\n\r\n")])
    [.raw (text "<HTML><HEAD><TITLE>302 Moved Temporarily</TITLE></HEAD>\n<BODY>\n<H1>302 Moved</H1>The document has moved\n<A HREF=\""),
      html, .raw (text "\">here</A>.\n</BODY></HTML>\n")]

def sendRMovedTemp (env : Env) (c : Request) (url moreHdr : Bytes) : Request :=
  c.movedTemp env (.http url) (.html url) (.raw moreHdr)

/-- `send_r_not_modified` writes its header to HTTP/0.9 clients too, and no body. -/
def sendRNotModified (env : Env) (c : Request) : Request :=
  let c := { c.squashKa with responseStatus := 304 }
  (c.writes (c.statusLine " 304 Not Modified\r\n" ++ c.printHttpHeaders env ++
    c.printContentType env ++ [.raw crlf])).reqFlush

def sendRBadRequest (env : Env) (c : Request) : Request :=
  c.sendR env 400 " 400 Bad Request\r\n" htmlTypeEnd
    [.raw (text "<HTML><HEAD><TITLE>400 Bad Request</TITLE></HEAD>\n<BODY><H1>400 Bad Request</H1>\nYour client has issued a malformed or illegal request.\n</BODY></HTML>\n")]

def sendRForbidden (env : Env) (c : Request) : Request :=
  c.sendR env 403 " 403 Forbidden\r\n" htmlTypeEnd
    [.raw (text "<HTML><HEAD><TITLE>403 Forbidden</TITLE></HEAD>\n<BODY><H1>403 Forbidden</H1>\nYour client does not have permission to get URL "),
      .html c.requestUri, .raw (text " from this server.\n</BODY></HTML>\n")]

def sendRNotFound (env : Env) (c : Request) : Request :=
  c.sendR env 404 " 404 Not Found\r\n" htmlTypeEnd
    [.raw (text "<HTML><HEAD><TITLE>404 Not Found</TITLE></HEAD>\n<BODY><H1>404 Not Found</H1>\nThe requested URL "),
      .html c.requestUri, .raw (text " was not found on this server.\n</BODY></HTML>\n")]

def invalidRangeBody : Bytes :=
  text "<HTML><HEAD><TITLE>416 Invalid Range</TITLE></HEAD>\n<BODY><H1>416 Invalid Range</H1>\n</BODY></HTML>\n"

def sendRInvalidRange (env : Env) (c : Request) : Request :=
  c.sendR env 416 " 416 Invalid Range\r\n"
    [.raw (text "Content-Length: "), .raw (simpleItoa invalidRangeBody.length),
      .raw (text "\r\nContent-Type: text/html; charset=ISO-8859-1\r\n\r\n")]
    [.raw invalidRangeBody]

def sendRError (env : Env) (c : Request) : Request :=
  c.sendR env 500 " 500 Server Error\r\n" htmlTypeEnd
    [.raw (text "<HTML><HEAD><TITLE>500 Server Error</TITLE></HEAD>\n<BODY><H1>500 Server Error</H1>\nThe server encountered an internal error and could not complete your request.\n</BODY></HTML>\n")]

/-- `send_r_not_implemented` writes its body whatever the method, which is not
known yet. -/
def sendRNotImplemented (env : Env) (c : Request) : Request :=
  let c := { c.squashKa with responseStatus := 501 }
  let c := if c.httpVersion ≠ .http09
    then c.writes (c.statusLine " 501 Not Implemented\r\n" ++ c.printHttpHeaders env ++ htmlTypeEnd)
    else c
  (c.writes [.raw (text "<HTML><HEAD><TITLE>501 Not Implemented</TITLE></HEAD>\n<BODY><H1>501 Not Implemented</H1>\nPOST to non-script is not supported in Boa.\n</BODY></HTML>\n")]).reqFlush

def sendRBadGateway (env : Env) (c : Request) : Request :=
  c.sendR env 502 " 502 Bad Gateway\r\n" htmlTypeEnd
    [.raw (text "<HTML><HEAD><TITLE>502 Bad Gateway</TITLE></HEAD>\n<BODY><H1>502 Bad Gateway</H1>\nThe CGI was not CGI/1.1 compliant.\n</BODY></HTML>\n")]

def serviceUnavailableBody : Bytes :=
  text "<HTML><HEAD><TITLE>503 Service Unavailable</TITLE></HEAD>\n<BODY><H1>503 Service Unavailable</H1>\nThere are too many connections in use right now.\nPlease try again later.\n</BODY></HTML>\n"

def sendRServiceUnavailable (env : Env) (c : Request) : Request :=
  c.sendR env 503 " 503 Service Unavailable\r\n"
    ([.raw (text "Content-Length: "), .raw (simpleItoa serviceUnavailableBody.length), .raw crlf] ++
      htmlTypeEnd)
    [.raw serviceUnavailableBody]

/-- `boa_perror`, less the line it logs. -/
def boaPerror (env : Env) (c : Request) : Request := c.sendRError env

end Request
end Boa
