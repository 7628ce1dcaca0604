import Boa.Response
import Boa.Util

/-! Translation of a request URI to a path (alias.c). -/
namespace Boa
open Memory

/-- `sizeof` of the static path buffers of alias.c. -/
def pathBufferSize : ℕ := maxHeaderLength + 1

def cgiMimeType : Bytes := text "application/x-httpd-cgi"

/-- A signed `char` converted to `unsigned int`. -/
def charToUnsigned (c : UInt8) : ℕ := if 128 ≤ c.toNat then c.toNat + (2 ^ 32 - 256) else c.toNat

/-- `get_alias_hash_value`: the first character, then all others before a `/`. -/
def getAliasHashValue (file : Bytes) : ℕ :=
  match file with
  | [] => 0
  | c :: s =>
    ((s.takeWhile (· ≠ slash)).foldl (fun h b => (h + charToUnsigned b) % 2 ^ 32)
      (charToUnsigned c)) % aliasHashtableSize

/-- The test of `find_alias`: a prefix that ends in `/` or at a segment border. -/
def Alias.matchesUri (a : Alias) (uri : Bytes) : Bool :=
  a.fakename.val.isPrefixOf uri &&
    (a.fakename.val.getLastD 0 == slash ||
      match uri.drop a.fakename.val.length with
      | [] => true
      | b :: _ => b == slash)

def Config.aliasBucket (cfg : Config) (file : Bytes) : List Alias :=
  cfg.aliasHashtable.getD (getAliasHashValue file) []

/-- `find_alias`. -/
def findAlias (cfg : Config) (uri : Bytes) : Option Alias :=
  (cfg.aliasBucket uri).find? (·.matchesUri uri)

/-- The real name followed by what the URI has behind the fake name. -/
def Alias.expand (a : Alias) (uri : Bytes) : Bytes :=
  a.realname.val ++ uri.drop a.fakename.val.length

/-- What `stat` and `access` say about a script. -/
inductive ScriptCheck
  | missing | dir | refused | ok
  deriving DecidableEq, Repr

def FileSys.scriptCheck (fs : FileSys) (path : Bytes) : ScriptCheck :=
  match fs.stat path with
  | .error _ => .missing
  | .ok .dir => .dir
  | .ok .reg => if fs.access path then .ok else .refused
  | .ok .other => .refused

/-- How the component scan of `init_script_alias` ends: at a bad prefix, at the
`/` behind a script, or at the terminator. -/
inductive Scan
  | notFound | forbidden | slashAt (i : ℕ) | terminator
  deriving DecidableEq, Repr

/-- The `do` loop of `init_script_alias` over the bytes from index `i` on. The
prefix examined at a `/` is the string that ends there, or earlier at a NUL. -/
def scanComponents (fs : FileSys) (mem : Bytes) : ℕ → Bytes → Scan
  | _, [] => .terminator
  | i, c :: s =>
    if c = 0 then .terminator
    else if c = slash then
      match fs.scriptCheck (cstr (mem.take i)) with
      | .missing => .notFound
      | .refused => .forbidden
      | .ok => .slashAt i
      | .dir => scanComponents fs mem (i + 1) s
    else scanComponents fs mem (i + 1) s

namespace Request

/-- `req->pathname = strdup(..)`, with nothing freed before. -/
def setPathname (c : Request) (path : Bytes) : Request :=
  { (if c.pathname.isSome then c.log (.overwrite .pathname) else c) with pathname := some path }

/-- `req->script_name = strdup(..)`, with nothing freed before. -/
def setScriptName (c : Request) (name : Bytes) : Request :=
  { (if c.scriptName.isSome then c.log (.overwrite .scriptName) else c) with scriptName := some name }

/-- The prefix `vhost_root/ip/host/` of the VHostRoot branches. -/
def vhostPrefix (c : Request) (root : Bytes) : Bytes :=
  root ++ [slash] ++ c.localIpAddr ++ [slash] ++ c.host.getD [] ++ [slash]

/-- The path `init_script_alias` copies to its static buffer. -/
def scriptPath (cfg : Config) (c : Request) (a : Alias) : Bytes :=
  match cfg.vhostRoot with
  | some root => c.vhostPrefix root ++ a.expand c.requestUri
  | none => a.expand c.requestUri

/-- The search for `path_translated` among the aliases: `none` when the result
would not fit the buffer. -/
def translateByAlias (cfg : Config) (c : Request) (info : Bytes) : Option Request :=
  if c.pathTranslated.isSome then some c
  else
    match (cfg.aliasBucket info).find? (fun a => a.fakename.val.isPrefixOf info) with
    | none => some c
    | some a =>
      if pathBufferSize < (a.expand info).length + 1 then none
      else some { c with pathTranslated := some (a.expand info) }

/-- The rest of the `path_info` branch: aliases, then UserDir, then DocumentRoot. -/
def translatePathInfo (env : Env) (c : Request) (info : Bytes) : Request × Bool :=
  match c.translateByAlias env.cfg info with
  | none => (c.sendRBadRequest env, false)
  | some c =>
    if c.pathTranslated.isSome then (c, true)
    else
      match env.cfg.userDir, info.drop 1 with
      | some userDir, 126 :: name =>
        match env.getHomeDir (name.takeWhile (· ≠ slash)) with
        | none => (c.sendRNotFound env, false)
        | some home =>
          let path := home ++ [slash] ++ userDir.val ++ name.dropWhile (· ≠ slash)
          ({ c with pathTranslated := some path }, true)
      | _, _ =>
        match env.cfg.documentRoot with
        | some root => ({ c with pathTranslated := some (root.val ++ info) }, true)
        | none => (c, true)

/-- Cut `path_len` bytes off the end of `script_name`; an index before its start
is written to all the same. -/
def cutScriptName (c : Request) (pathLen : ℕ) : Request :=
  match c.scriptName with
  | none => c
  | some name =>
    if name.length < pathLen then c.log .wild
    else { c with scriptName := some (name.take (name.length - pathLen)) }

/-- `init_script_alias`, after the path was copied to the static buffer `mem`. -/
def scanScript (env : Env) (c : Request) (a : Alias) (mem : Bytes) : Request × Bool :=
  let realLen := a.realname.val.length
  let nph := (text "nph-").isPrefixOf (cstr (mem.drop realLen)) || c.httpVersion = .http09
  let c := { c with cgiType := if nph then .nph else .cgi }
  match scanComponents env.fs mem (realLen + 1) (mem.drop (realLen + 1)) with
  | .notFound => (c.sendRNotFound env, false)
  | .forbidden => (c.sendRForbidden env, false)
  | .terminator =>
    let c := c.setScriptName c.requestUri
    match env.fs.scriptCheck (cstr mem) with
    | .missing => (c.sendRNotFound env, false)
    | .dir | .refused => (c.sendRForbidden env, false)
    | .ok => (c.setPathname (cstr mem), true)
  | .slashAt i =>
    let c := c.setScriptName c.requestUri
    let info := cstr (mem.drop i)
    let c := { c with pathInfo := some info }.cutScriptName info.length
    match c.translatePathInfo env info with
    | (c, false) => (c, false)
    | (c, true) => (c.setPathname (cstr (mem.take i)), true)

/-- `init_script_alias`. -/
def initScriptAlias (env : Env) (c : Request) (a : Alias) : Request × Bool :=
  let path := c.scriptPath env.cfg a
  if pathBufferSize < path.length + 1 then (c.sendRBadRequest env, false)
  else c.scanScript env a (store env.staticPathname 0 (path ++ [0]))

/-- The end of `translate_uri`, for a path in the document tree or a home directory. -/
def finishPath (env : Env) (c : Request) (path : Bytes) : Request × Bool :=
  let c := c.setPathname path
  if getMimeType env.cfg path = cgiMimeType then
    let c := c.setScriptName c.requestUri
    ({ c with cgiType := if c.httpVersion = .http09 then .nph else .cgi }, true)
  else if c.method = .post then (c.sendRBadRequest env, false)
  else (c, true)

/-- The common shape of the three document branches: `size` is the room needed. -/
def buildPath (env : Env) (c : Request) (size : ℕ) (path : Bytes) : Request × Bool :=
  if pathBufferSize < size then (c.sendRBadRequest env, false) else c.finishPath env path

/-- The `~user` branch, for the text behind the `~`. -/
def userDirPath (env : Env) (c : Request) (userDir name : Bytes) : Request × Bool :=
  if name = [] then (c.sendRBadRequest env, false)
  else
    match env.getHomeDir (name.takeWhile (· ≠ slash)) with
    | none => (c.sendRNotFound env, false)
    | some home =>
      let rest := name.dropWhile (· ≠ slash)
      c.buildPath env (home.length + 1 + userDir.length + rest.length + 1)
        (home ++ [slash] ++ userDir ++ rest)

/-- The DocumentRoot branch, with or without VirtualHost. -/
def documentPath (cfg : Config) (c : Request) (root : Bytes) : Bytes :=
  if cfg.virtualhost then root ++ [slash] ++ c.localIpAddr ++ c.requestUri else root ++ c.requestUri

/-- `translate_uri` without an alias. -/
def translatePlain (env : Env) (c : Request) : Request × Bool :=
  match env.cfg.userDir, c.requestUri.drop 1 with
  | some userDir, 126 :: name => c.userDirPath env userDir name
  | _, _ =>
    match env.cfg.vhostRoot with
    | some root =>
      let path := c.vhostPrefix root ++ text "htdocs" ++ c.requestUri
      c.buildPath env (path.length + 1) path
    | none =>
      match env.cfg.documentRoot with
      | some root =>
        let l3 := if env.cfg.virtualhost then c.localIpAddr.length else 0
        c.buildPath env (root.val.length + 1 + c.requestUri.length + l3 + 1)
          (c.documentPath env.cfg root)
      | none => (c.sendRNotFound env, false)

/-- `translate_uri`. -/
def translateUri (env : Env) (c : Request) : Request × Bool :=
  if c.requestUri.head? ≠ some slash then (c.sendRBadRequest env, false)
  else
    match findAlias env.cfg c.requestUri with
    | none => c.translatePlain env
    | some a =>
      if a.type = .scriptalias then c.initScriptAlias env a
      else if pathBufferSize < (a.expand c.requestUri).length + 1 then
        (c.sendRBadRequest env, false)
      else if a.type = .redirect then
        if c.method = .post then (c.sendRBadRequest env, false)
        else (c.sendRMovedTemp env (a.expand c.requestUri) [], false)
      else (c.setPathname (a.expand c.requestUri), true)

end Request
end Boa
