import Boa.Alias
import Boa.Cgi

/-! The tables the configuration file fills (hash.c, alias.c, access.c, cgi.c), the
directives that fill them and `read_config_files` (config.c). -/
namespace Boa
open Memory

def mimeHashtableSize : ℕ := 47
def maxHashLength : ℕ := 4

/-- A chained hash table of hash.c: key and value of each entry. -/
abbrev HashTable := List (List (Bytes × Bytes))

/-- One round of `fnv1a_hash`; `char` is signed. -/
def fnv1aStep (hash : ℕ) (c : UInt8) : ℕ := (hash ^^^ charToUnsigned c) * 16777619 % 2 ^ 32

/-- `fnv1a_hash`: its `do` loop reads one character more than it counts. -/
def fnv1aHash (str : Bytes) : ℕ := (str.take (maxHashLength + 1)).foldl fnv1aStep 2166136261

def boaHash (str : Bytes) : ℕ := if str = [] then 0 else fnv1aHash str

def getMimeHashValue (extension : Bytes) : ℕ := boaHash extension % mimeHashtableSize

/-- `hash_insert`: an empty key or value is an error, a key that is there stays. -/
def hashInsert (table : HashTable) (hash : ℕ) (key value : Bytes) : Option HashTable :=
  if key = [] ∨ value = [] then none
  else
    let chain := table.getD hash []
    if chain.any (·.1 == key) then some table
    else some (table.set hash (chain ++ [(key, value)]))

/-- `add_mime_type`; the server dies if the entry is refused. -/
def addMimeType (table : HashTable) (extension type : Bytes) : Option HashTable :=
  hashInsert table (getMimeHashValue extension) extension type

/-- `dump_mime`, that is `hash_clear`. -/
def dumpMime (table : HashTable) : HashTable := table.map fun _ => []

/-- `add_alias`; the server dies on an empty name. The last alias of the chain is not
compared with the new one. -/
def addAlias (table : List (List Alias)) (fakename realname : ConfText) (type : AliasType) :
    Option (List (List Alias)) :=
  if h : fakename.val ≠ [] ∧ realname.val ≠ [] then
    let hash := getAliasHashValue fakename
    let chain := table.getD hash []
    if chain.dropLast.any (·.fakename.val == fakename.val) then some table
    else some (table.set hash (chain ++ [⟨fakename, realname, type, h.1, h.2⟩]))
  else none

/-- `dump_alias`. -/
def dumpAlias (table : List (List Alias)) : List (List Alias) := table.map fun _ => []

/-- `add_to_common_env`; the server dies above `CGI_ENV_MAX` variables. -/
def addToCommonEnv (commonCgiEnv : List Bytes) (key : Bytes) (value : Option Bytes) :
    Option (List Bytes) :=
  let env := commonCgiEnv ++ [envGenExtra key (value.getD []) false]
  if cgiEnvMax < env.length then none else some env

/-- `fgets(buf, 255, f)` on the text that is left of the file: up to the end of the line, 254 bytes
at most. -/
def mimeFgets (f : Bytes) : Bytes :=
  let line := f.take 254
  match line.findIdx? (· == lf) with
  | some i => line.take (i + 1)
  | none => line

/-- What `strcspn(s, "\t ")` counts. -/
def mimeSpan (s : Bytes) : Bytes := s.takeWhile fun b => b ≠ tab ∧ b ≠ space

/-- The extensions from `p` on: words that start with a letter or digit. A NUL is put behind each,
and the loop goes on behind it, be it the end of the line or not. -/
def mimeExtensions : ℕ → Bytes → ℕ → List Bytes × Bytes
  | 0, buf, _ => ([], buf)
  | fuel + 1, buf, p =>
    let p := p + ((cstr (buf.drop p)).takeWhile (!isalnum ·)).length
    let extension := mimeSpan (cstr (buf.drop p))
    if extension = [] then ([], buf)
    else
      let r := mimeExtensions fuel (store buf (p + extension.length) [0]) (p + extension.length + 1)
      (extension :: r.1, r.2)

/-- The line that `fgets` has left in `buf`: extensions with their type, and what `buf` is like
behind them. -/
def mimeLine (buf : Bytes) : List (Bytes × Bytes) × Bytes :=
  let line := cstr buf
  if line = [] ∨ line.head? = some hash ∨ line.head? = some lf then ([], buf)
  else
    let buf := if lf ∈ line then store buf (line.idxOf lf) [0] else buf
    let type := mimeSpan (cstr buf)
    if type = [] then ([], buf)
    else
      let r := mimeExtensions buf.length (store buf type.length [0]) (type.length + 1)
      (r.1.map (·, type), r.2)

/-- The loop of `c_add_mime_types_file` over the text of the file; `buf` is what the stack holds from
its buffer on. -/
def mimeTypesFile : ℕ → Bytes → Bytes → List (Bytes × Bytes)
  | 0, _, _ => []
  | fuel + 1, f, buf =>
    let line := mimeFgets f
    if line = [] then []
    else
      let r := mimeLine (store buf 0 (line ++ [0]))
      r.1 ++ mimeTypesFile fuel (f.drop line.length) r.2

/-- The targets of `c_set_string`. -/
inductive StringVar
  | serverIp | serverAdmin | serverRoot | errorLogName | accessLogName | cgiLogName | serverName
  | hstsHeader | vhostRoot | defaultVhost | documentRoot | userDir | directoryIndex | dirmaker
  | cachedir | pidFile | defaultType | defaultCharset | cgiPath
  deriving DecidableEq, Repr

/-- The targets of `c_set_int` and `c_set_unity`. -/
inductive IntVar
  | serverPort | backlog | useLocaltime | verboseCgiLogs | logForwardedFor | virtualhost
  | useLangRewrite | useCaudiumHack | noRedirectPort | kaMax | kaTimeout | singlePostLimit
  | cgiUmask | maxConnections | concealServerIdentity | cgiRlimitCpu | cgiRlimitData | cgiNice
  deriving DecidableEq, Repr

/-- The global variables of config.c that hold a string or a number. -/
structure Settings where
  string : StringVar → Option Bytes
  int : IntVar → ℤ

def Settings.setString (s : Settings) (v : StringVar) (x : Bytes) : Settings :=
  { s with string := Function.update s.string v (some x) }

def Settings.setInt (s : Settings) (v : IntVar) (x : ℤ) : Settings :=
  { s with int := Function.update s.int v x }

/-- A line of the configuration file as `apply_command` hands it to its action. -/
inductive Directive
  /-- `c_set_string` -/
  | setString (v : StringVar) (x : Bytes)
  /-- `c_set_int`; `none` is a text that is no number, which is only reported -/
  | setInt (v : IntVar) (x : Option ℤ)
  | setUnity (v : IntVar)
  /-- `c_set_user` and `c_set_group`, with what the user database says -/
  | setUser (known : Bool)
  /-- `c_add_mime_types_file`, with the text of the file if it can be opened, and what the stack
  happens to hold from its `buf` on -/
  | addMimeTypesFile (text : Option Bytes) (buf : Bytes)
  | addMimeType (type : Bytes) (extension : Option Bytes)
  | addAlias (fakename : ConfText) (realname : Option ConfText) (type : AliasType)
  | addAccess (pattern : ConfText) (allow : Bool)
  | addCgiEnv (key : Bytes) (value : Option Bytes)
  /-- a keyword that is not in `clist` -/
  | unknown

/-- What does not change while the server runs: the build, the command line and the host. -/
structure Boot where
  settings : Settings
  overrideServerPort : ℤ := 0
  overrideServerIp : Option Bytes := none
  hostName : Option Bytes := none
  rlimNofile : ℤ := 1024
  accessControl : Bool := true
  ncsaCgiEnv : Bool := false
  /-- the server is started by root -/
  privileged : Bool := true
  /-- `drop_privs` gives the privilege up -/
  drops : Bool := true

structure Tables where
  commonCgiEnv : List Bytes := []
  aliasHashtable : List (List Alias) := List.replicate aliasHashtableSize []
  mimeHashtable : HashTable := List.replicate mimeHashtableSize []
  accessRules : List (ConfText × Bool) := []

structure Server extends Tables where
  settings : Settings

/-- `action` of a command, as root or not; `none` when the server exits. -/
def Directive.apply (b : Boot) (root : Bool) (s : Server) : Directive → Option Server
  | .setString v x => some { s with settings := s.settings.setString v x }
  | .setInt v (some x) => some { s with settings := s.settings.setInt v x }
  | .setInt _ none => some s
  | .setUnity v => some { s with settings := s.settings.setInt v 1 }
  | .setUser known => if !known && root then none else some s
  | .addMimeTypesFile none _ => none
  | .addMimeTypesFile (some f) buf =>
    ((mimeTypesFile f.length f buf).foldlM (fun t e => Boa.addMimeType t e.1 e.2) s.mimeHashtable).map
      fun t => { s with mimeHashtable := t }
  | .addMimeType _ none => none
  | .addMimeType type (some extension) =>
    (Boa.addMimeType s.mimeHashtable extension type).map fun t => { s with mimeHashtable := t }
  | .addAlias _ none _ => none
  | .addAlias fakename (some realname) type =>
    (Boa.addAlias s.aliasHashtable fakename realname type).map
      fun t => { s with aliasHashtable := t }
  | .addAccess pattern allow =>
    some (if b.accessControl then { s with accessRules := s.accessRules ++ [(pattern, allow)] } else s)
  | .addCgiEnv key value =>
    (addToCommonEnv s.commonCgiEnv key value).map fun t => { s with commonCgiEnv := t }
  | .unknown => none

/-- The values `read_config_files` replaces at its end. -/
def Settings.fixup (b : Boot) (s : Settings) : Settings where
  string v := if v = .defaultVhost then some ((s.string v).getD (text "default")) else s.string v
  int v :=
    match v with
    | .cgiRlimitCpu | .cgiRlimitData | .cgiNice | .kaTimeout => max 0 (s.int v)
    | .maxConnections =>
      -- `max_connections` is unsigned
      let m := s.int v % 2 ^ 32
      min (if m < 1 then b.rlimNofile else m) 1004
    | v => s.int v

/-- Port and address of the command line win over the file. -/
def Settings.override (b : Boot) (s : Settings) : Settings :=
  let s := if b.overrideServerPort = 0 then s else s.setInt .serverPort b.overrideServerPort
  match b.overrideServerIp with
  | none => s
  | some ip => s.setString .serverIp ip

/-- The end of `read_config_files`: overrides, defaults and the checks that make the
server exit. -/
def Settings.check (b : Boot) (s : Settings) : Option Settings :=
  let s := s.override b
  match (s.string .serverName).or b.hostName with
  | none => none
  | some name =>
    let s := s.setString .serverName name
    if s.int .singlePostLimit < 0 then none
    else if (s.string .vhostRoot).isSome ∧ s.int .virtualhost ≠ 0 then none
    else if (s.string .vhostRoot).isSome ∧ (s.string .documentRoot).isSome then none
    else if s.string .defaultType = none then none
    else some (s.fixup b)

/-- `access_init`. -/
def Server.accessInit (b : Boot) (s : Server) : Server :=
  if b.accessControl then { s with accessRules := [] } else s

/-- `read_config_files`. -/
def readConfigFiles (b : Boot) (root : Bool) (F : List Directive) (s : Server) : Option Server :=
  match F.foldlM (Directive.apply b root) (s.accessInit b) with
  | none => none
  | some s => (s.settings.check b).map fun x => { s with settings := x }

/-- `create_common_env`. -/
def createCommonEnv (b : Boot) (s : Settings) : List Bytes :=
  let gen (key : String) (value : Option Bytes) := envGenExtra (text key) (value.getD []) false
  [gen "PATH" ((s.string .cgiPath).getD (text "/bin:/usr/bin:/usr/local/bin")),
    gen "SERVER_SOFTWARE" (text "Boa/0.94.101wk"), gen "SERVER_NAME" (s.string .serverName),
    gen "GATEWAY_INTERFACE" (text "CGI/1.1"),
    gen "SERVER_PORT" (simpleItoa (s.int .serverPort % 2 ^ 32).toNat)] ++
  (if b.ncsaCgiEnv then
    [gen "DOCUMENT_ROOT" (s.string .documentRoot), gen "SERVER_ROOT" (s.string .serverRoot)]
  else []) ++
  [gen "SERVER_ADMIN" (s.string .serverAdmin)]

/-- The configuration part of `main`: the file first, then `create_common_env`. -/
def startUp (b : Boot) (F : List Directive) : Option Server :=
  (readConfigFiles b b.privileged F { settings := b.settings }).map
    fun s => { s with commonCgiEnv := createCommonEnv b s.settings }

/-- `sighup_run`: two tables are dumped, the common environment is not. -/
def sighupRun (b : Boot) (F : List Directive) (s : Server) : Option Server :=
  readConfigFiles b (b.privileged && !b.drops) F
    { s with
      mimeHashtable := dumpMime s.mimeHashtable
      aliasHashtable := dumpAlias s.aliasHashtable }

end Boa
