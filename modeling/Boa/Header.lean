import Boa.Alias
import Boa.Get

/-! The request line, the header lines and the end of the header (request.c). -/
namespace Boa
open Memory

/-- The text behind `SERVER_METHOD "://"` of an absolute URL. -/
def absoluteUrl (s : Bytes) : Option Bytes :=
  if (text "http://").isPrefixOf s then some (s.drop 7) else none

/-- Host and path of an absolute URL; `none` if either is missing. -/
def splitHost (s : Bytes) : Option (Bytes × Bytes) :=
  let host := s.takeWhile (fun b => b ≠ slash ∧ b ≠ space)
  let rest := s.dropWhile (fun b => b ≠ slash ∧ b ≠ space)
  if host = [] ∨ rest.head? ≠ some slash then none else some (host, rest)

/-- The version field of a request line: `none` is a bad version. -/
def parseVersion (s : Bytes) : Option Version :=
  let v := s.dropWhile (· = space)
  if v = [] then some .http09
  else
    match scanHttpVersion v with
    | some (0, 9) => some .http09
    | some (1, 0) => some .http10
    | some (1, 1) => some .http11
    | _ => none

/-- The Caudium form `/(ll)/foo`, stripped of its first segment. -/
def stripCaudium (uri : Bytes) : Bytes :=
  match uri with
  | 47 :: 40 :: a :: b :: 41 :: 47 :: x :: rest =>
    if 97 ≤ a.toNat ∧ a.toNat ≤ 122 ∧ 97 ≤ b.toNat ∧ b.toNat ≤ 122 then 47 :: x :: rest else uri
  | _ => uri

namespace Request

/-- `process_logline` from the version field on. -/
def finishLogline (env : Env) (c : Request) (version : Bytes) : Request × Bool :=
  match parseVersion version with
  | none => (c.sendRBadRequest env, false)
  | some v =>
    let c : Request := { c with
      httpVersion := v
      keepalive := if v = .http11 then .active else c.keepalive }
    if c.method = .head ∧ v = .http09 then (c.sendRBadRequest env, false)
    else ({ c with cgiEnvIndex := env.cfg.commonCgiEnv.length }, true)

/-- `process_logline` behind the method; `rest` starts with the target. -/
def parseTarget (env : Env) (c : Request) (rest : Bytes) : Request × Bool :=
  let target := rest.takeWhile (· ≠ space)
  let version := rest.dropWhile (· ≠ space)
  if maxHeaderLength < target.length then (c.sendRBadRequest env, false)
  else
    match absoluteUrl target with
    | none => { c with requestUri := target }.finishLogline env version
    | some s =>
      match splitHost s with
      | none => (c.sendRBadRequest env, false)
      | some (host, uri) =>
        { c with requestUri := uri, headerHost := some host }.finishLogline env version

/-- The method a request line starts with. -/
def lineMethod (line : Bytes) : Option Method :=
  if (text "GET ").isPrefixOf line then some .get
  else if (text "HEAD ").isPrefixOf line then some .head
  else if (text "POST ").isPrefixOf line then some .post
  else none

/-- `process_logline`. -/
def processLogline (env : Env) (c : Request) : Request × Bool :=
  let line := c.lineAt
  let c : Request := { c.log (.logline line) with logline := true }
  if line.length < 5 then (c.sendRBadRequest env, false)
  else
    match lineMethod line with
    | none => (c.sendRNotImplemented env, false)
    | some m =>
      let rest := (line.drop (if m = .get then 4 else 5)).dropWhile (· = space)
      { c with method := m, httpVersion := .http10 }.parseTarget env rest

/-- The `RANGE` case of `process_option_line`; `none` goes on to `add_cgi_env`. -/
def rangeOption (env : Env) (c : Request) (value : Bytes) : Request × Option Bool :=
  if (c.ranges.head?.map Range.stop) = some (2 ^ 31 - 1) then (c, some true)
  else
    match c.rangeParse value with
    | (c, false) => (c.sendRInvalidRange env, some false)
    | (c, true) => (c, none)

/-- The `switch` of `process_option_line`; `none` falls through to `add_cgi_env`. -/
def optionSwitch (env : Env) (c : Request) (key value : Bytes) : Request × Option Bool :=
  if key = text "ACCEPT" then (c, some true)
  else if key = text "CONTENT_TYPE" ∧ c.contentType = none then
    ({ c with contentType := some value }, some true)
  else if key = text "CONTENT_LENGTH" ∧ c.contentLength = none then
    ({ c with contentLength := some value }, some true)
  else if key = text "CONNECTION" ∧ env.cfg.kaMax ≠ 0 ∧ c.keepalive ≠ .stopped then
    ({ c with keepalive :=
      if startsWithCase (text "Keep-Alive") value then .active else .stopped }, some true)
  else if key = text "HOST" ∧ c.headerHost = none then
    ({ c with headerHost := some value }, some true)
  else if key = text "IF_MODIFIED_SINCE" ∧ c.ifModifiedSince = none then
    ({ c with ifModifiedSince := some value }, some true)
  else if key = text "REFERER" then
    match { c with headerReferer := some value }.addCgiEnv (text "REFERER") value true with
    | (c, false) => (c, some false)
    | (c, true) => (c, none)
  else if key = text "RANGE" then c.rangeOption env value
  else if key = text "USER_AGENT" then
    let r := { c with headerUserAgent := some value }.addCgiEnv (text "USER_AGENT") value true
    (r.1, some r.2)
  else if key = text "X_FORWARDED_FOR" then ({ c with headerForwardedFor := some value }, some true)
  else (c, none)

/-- `process_option_line`. -/
def processOptionLine (env : Env) (c : Request) : Request × Bool :=
  let line := c.lineAt
  let c := c.log (.optionLine line)
  match line.dropWhile (· ≠ colon) with
  | [] => (c, false)
  | _ :: v =>
    let key := toUpper (line.takeWhile (· ≠ colon))
    let value := v.dropWhile (fun b => b = space ∨ b = tab)
    if value = [] then (c, true)
    else
      match c.optionSwitch env key value with
      | (c, some ok) => (c, ok)
      | (c, none) => c.addCgiEnv key value true

/-- `req->post_data_fd = create_temporary_file(..)`, with nothing closed before. -/
def setPostDataFd (c : Request) (fd : ℕ) : Request :=
  { (if c.postDataFd ≠ 0 then c.log (.overwrite .postDataFd) else c) with postDataFd := fd }

/-- The POST branch of `process_header_end`. -/
def openPostFile (env : Env) (c : Request) : Request × Ret :=
  let c := c.setPostDataFd env.tempFd
  if env.tempFd = 0 then (c.sendRError env, .done)
  else
    let c := c.log (.opened env.tempFd)
    if !env.cloexecOk then
      ({ (c.boaPerror env).log (.closed env.tempFd) with postDataFd := 0 }, .done)
    else (c, .more)

/-- `process_header_end` from `translate_uri` on. -/
def dispatchUri (env : Env) (c : Request) : Request × Ret :=
  match c.translateUri env with
  | (c, false) => (c.squashKa, .done)
  | (c, true) =>
    if c.method = .post then c.openPostFile env
    else if c.cgiType ≠ .none then c.initCgi env
    else { c with status := .write }.initGet env

/-- The host a VHostRoot request is for: lower case, without a port. -/
def virtualHost (cfg : Config) (c : Request) : Bytes :=
  (strlower (c.headerHost.getD cfg.defaultVhost)).takeWhile (· ≠ colon)

/-- The VHostRoot part of `process_header_end`; `false` is a bad host. -/
def acceptHost (env : Env) (c : Request) : Request × Bool :=
  if env.cfg.vhostRoot.isSome then
    let c := { c with host := some (c.virtualHost env.cfg) }
    if checkHost (c.host.getD []) = none then (c.sendRBadRequest env, false) else (c, true)
  else (c, true)

/-- `process_header_end` up to `translate_uri`: decode and clean the URI. -/
def acceptUri (env : Env) (c : Request) : Request × Bool :=
  if !c.logline then (c.sendRError env, false)
  else
    let (uri, query, legal) := unescapeUri c.requestUri
    let c := { c with requestUri := uri, queryString := query.or c.queryString }
    if !legal then (c.sendRBadRequest env, false)
    else
      let c := { c with requestUri := cleanPathname c.requestUri }
      if c.requestUri.head? ≠ some slash then (c.sendRBadRequest env, false)
      else
        let c := if env.cfg.useCaudiumHack
          then { c with requestUri := stripCaudium c.requestUri } else c
        c.acceptHost env

/-- `process_header_end`. -/
def processHeaderEnd (env : Env) (c : Request) : Request × Ret :=
  match (c.log .headerEnd).acceptUri env with
  | (c, false) => (c, .done)
  | (c, true) => c.dispatchUri env

end Request
end Boa
