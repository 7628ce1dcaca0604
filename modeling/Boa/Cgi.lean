import Boa.Response

/-! The CGI environment and the parent's side of starting a child (cgi.c). -/
namespace Boa
open Memory

/-- `env_gen_extra`, with the prefix its callers copy in front. -/
def envGenExtra (key value : Bytes) (httpPrefix : Bool) : Bytes :=
  (if httpPrefix then text "HTTP_" else []) ++ key ++ [61] ++ value

def Method.cgiName : Method → Bytes
  | .post => text "POST"
  | .head => text "HEAD"
  | .get => text "GET"
  | .unset => text "UNKNOWN"

namespace Request

/-- `add_cgi_env`. -/
def addCgiEnv (c : Request) (key value : Bytes) (httpPrefix : Bool) : Request × Bool :=
  if c.cgiEnvIndex < cgiEnvMax then
    ({ c with
      cgiEnv := store c.cgiEnv c.cgiEnvIndex [some (envGenExtra key value httpPrefix)]
      cgiEnvIndex := c.cgiEnvIndex + 1 }, true)
  else (c, false)

/-- A sequence of `my_add_cgi_env` calls; the first failure ends it. -/
def addCgiEnvs (c : Request) : List (Bytes × Bytes) → Request × Bool
  | [] => (c, true)
  | (key, value) :: kvs =>
    match c.addCgiEnv key value false with
    | (c, true) => c.addCgiEnvs kvs
    | (c, false) => (c, false)

/-- The variables `complete_env` adds, in its order. -/
def serverVariables (cfg : Config) (c : Request) : List (Bytes × Bytes) :=
  let opt (key : String) : Option Bytes → List (Bytes × Bytes)
    | some v => [(text key, v)]
    | none => []
  [(text "REQUEST_METHOD", c.method.cgiName)] ++
    opt "HTTP_HOST" c.headerHost ++
    [(text "SERVER_ADDR", c.localIpAddr), (text "SERVER_PROTOCOL", httpVerString c.httpVersion),
      (text "REQUEST_URI", c.requestUri)] ++
    opt "PATH_INFO" c.pathInfo ++
    opt "PATH_TRANSLATED" c.pathTranslated ++
    [(text "SCRIPT_NAME", c.scriptName.getD [])] ++
    opt "QUERY_STRING" c.queryString ++
    [(text "REMOTE_ADDR", c.remoteIpAddr), (text "REMOTE_PORT", simpleItoa c.remotePort)] ++
    (if c.method = .post then
      [(text "CONTENT_TYPE", c.contentType.getD cfg.defaultType)] ++
        opt "CONTENT_LENGTH" c.contentLength
    else [])

/-- `complete_env`. The index never passes `CGI_ENV_MAX`, so its last test holds. -/
def completeEnv (cfg : Config) (c : Request) : Request × Bool :=
  let c := { c with cgiEnv := store c.cgiEnv 0 (cfg.commonCgiEnv.map some) }
  match c.addCgiEnvs (c.serverVariables cfg) with
  | (c, false) => (c, false)
  | (c, true) =>
    if c.cgiEnvIndex < cgiEnvMax + 1 then
      ({ c with cgiEnv := store c.cgiEnv c.cgiEnvIndex [none] }, true)
    else (c, false)

/-- Pipes are used for a CGI and for a directory, not for NPH and gunzip. -/
def usesPipes (c : Request) : Bool :=
  c.cgiType = .cgi || (c.cgiType = .none && (c.pathname.getD []).getLast? == some slash)

/-- `close(req->post_data_fd)` of the parent. -/
def closePostData (c : Request) : Request :=
  if c.method = .post then { c.log (.closed c.postDataFd) with postDataFd := 0 } else c

/-- The window of `req->buffer` that takes the output of the child. -/
def startPipe (env : Env) (c : Request) : Request :=
  let p : Ptr := if c.cgiType = .cgi then ⟨.buffer, bufferSize / 2⟩ else ⟨.buffer, 0⟩
  { c with
    dataFd := env.pipeFd
    status := .pipeRead
    cgiStatus := if c.cgiType = .cgi then .parse else .buffer
    headerLine := p
    headerEnd := p
    filepos := 0 }

/-- `init_cgi` after the environment is complete. -/
def spawn (env : Env) (c : Request) : Request × Ret :=
  if c.usesPipes && env.pipeFd == 0 then (c, .done)
  else
    let c := if c.usesPipes then c.log (.opened env.pipeFd) else c
    if c.usesPipes && !env.nonblockOk then (c.log (.closed env.pipeFd), .done)
    else if !env.forkOk then
      let c := c.boaPerror env
      (if c.usesPipes then c.log (.closed env.pipeFd) else c, .done)
    else
      let c := c.closePostData
      if c.usesPipes then (c.startPipe env, .more) else (c, .done)

/-- `init_cgi`. -/
def initCgi (env : Env) (c : Request) : Request × Ret :=
  let c := c.squashKa
  if c.cgiType = .none then c.spawn env
  else
    match c.completeEnv env.cfg with
    | (c, false) => (c, .done)
    | (c, true) => c.spawn env

end Request
end Boa
