import Boa.Response

/-! The header block a CGI writes (cgi_header.c). It lies in the upper half of
`req->buffer`, from `header_line` to `header_end`. -/
namespace Boa
open Memory

/-- The empty line that ends a header block: CRLF line ends are tried first. -/
def findBlankLine (buf : Bytes) : Option ℕ :=
  (strstr [lf, cr, lf] buf).orElse fun _ => strstr [lf, lf] buf

/-- Position of the final line end, counted from `buf`, for a blank line at `k`. -/
def blankLineEnd (buf : Bytes) (k : ℕ) : ℕ := k + (if buf.getD (k + 1) 0 = cr then 2 else 1)

/-- Length of the first line of `buf`, less the CRs at its end; it is looked for
behind the first ten bytes. -/
def locationEnd (buf : Bytes) : ℕ :=
  let n := 10 + ((buf.drop 10).takeWhile (· ≠ lf)).length
  n - ((buf.take n).reverse.takeWhile (· = cr)).length

namespace Request

/-- The text between `header_line` and `header_end`. -/
def cgiText (c : Request) : Bytes := slice c.buffer c.headerLine.off c.headerEnd.off

/-- The `Location:` branch with a URL. The terminator written behind the URL
splits the header block; what follows it goes out as further header lines. -/
def cgiLocation (env : Env) (c : Request) (buf : Bytes) : Request :=
  let e := c.headerLine.off + locationEnd buf
  let c := { c with buffer := store c.buffer e [0] }
  let gap := (slice c.buffer (e + 1) c.headerEnd.off).takeWhile (fun b => b = lf ∨ b = cr)
  let c2 := e + 1 + gap.length
  let more : Msg := if c2 = c.headerEnd.off then .raw [] else .rawAt c2
  c.movedTemp env (.httpAt (c.headerLine.off + 10)) (.htmlAt (c.headerLine.off + 10)) more

/-- Move the CGI's text down to the server's header and hand it over. -/
def cgiMerge (c : Request) : Request :=
  let c := { c with toOut := c.toOut.append .data c.cgiText }
  let p : Ptr := ⟨.buffer, c.bufferEnd⟩
  { c with headerLine := p, headerEnd := p }

/-- The branch for a header block that is neither `Status:` nor `Location:`. -/
def cgiOk (env : Env) (c : Request) (blankEnd : ℕ) : Request × Ret :=
  let c := c.sendRRequestOk env
  let c := if c.method = .head
    then { c with headerEnd := ⟨.buffer, blankEnd⟩, cgiStatus := .done } else c
  if bufferSize < c.bufferEnd + (c.headerEnd.off - c.headerLine.off) then
    let c := c.log (.withdrawn c.pending)
    let c := { c with bufferStart := 0, bufferEnd := 0 }
    (c.sendRError env, .done)
  else
    let c := c.cgiMerge.reqFlush
    (c, if c.method = .head then .done else .more)

/-- `process_cgi_header`. -/
def processCgiHeader (env : Env) (c : Request) : Request × Ret :=
  let c := if c.cgiStatus = .done then c else { c with cgiStatus := .buffer }
  let buf := cstr (c.buffer.drop c.headerLine.off)
  match findBlankLine buf with
  | none => (c.sendRBadGateway env, .done)
  | some k =>
    let blankEnd := c.headerLine.off + blankLineEnd buf k
    if c.httpVersion = .http09 then
      let c := { c with headerLine := ⟨.buffer, blankEnd⟩ }
      (c.log (.data c.cgiText), .more)
    else if startsWithCase (text "Status: ") buf then
      let p := c.headerLine.off - 1
      let c := { c with headerLine := ⟨.buffer, p⟩, buffer := store c.buffer p (text "HTTP/1.0 ") }
      (c.log (.data c.cgiText), .more)
    else if startsWithCase (text "Location: ") buf then
      let c := if buf.getD 10 0 = slash then c.sendRBadRequest env else c.cgiLocation env buf
      ({ c with status := .done }, .more)
    else c.cgiOk env blankEnd

end Request
end Boa
