import Nodogsplash.Gateway

/-! # The web server

How a request is decided by `http_microhttpd.c`: the cleaning of its path, the
routes, the token and BinAuth, and the critical sections it enters. -/

namespace Nodogsplash

/-! ## Paths -/

/-- The position `buffer_path_simplify` goes back to from `position`: that of
the nearest slash, or the start. -/
def lastSlash (out : List Char) : Nat → Nat
  | 0 => 0
  | position + 1 => if out[position + 1]? = some '/' then position + 1 else lastSlash out position

/-- The length kept of `out` when the token that begins at `slash` is complete.
`final` says that it ends the input. -/
def tokenEnd (out : List Char) (slash : Nat) (pre2 pre1 : Char) (final : Bool) : Nat :=
  let kept := if final then 1 else 0
  let toklen := out.length - slash
  if toklen = 3 && pre2 = '.' && pre1 = '.' && out[slash]? = some '/' then
    (if slash > 0 then lastSlash out (slash - 1) else slash) + kept
  else if toklen = 1 || (pre2 = '/' && pre1 = '.') then slash + kept
  else out.length

/-- The loop of `buffer_path_simplify`. -/
def simplifyLoop (pre1 : Char) (out : List Char) (slash : Nat) : List Char → List Char
  | [] => out
  | char :: rest =>
      let out := out ++ [char]
      match rest.head? with
      | none => out.take (tokenEnd out slash pre1 char true)
      | some '/' =>
          let out := out.take (tokenEnd out slash pre1 char false)
          simplifyLoop char out out.length rest
      | some _ => simplifyLoop char out slash rest

def skipDots : List Char → List Char
  | ['.'] => []
  | '.' :: '/' :: rest => '/' :: rest
  | ['.', '.'] => []
  | '.' :: '.' :: '/' :: rest => '/' :: rest
  | chars => chars

/-- `buffer_path_simplify`. -/
def bufferPathSimplify (src : String) : String :=
  String.ofList <|
    simplifyLoop '\x00' [] 0 (skipDots (src.toList.dropWhile fun char => decide (char = ' ')))

example : bufferPathSimplify "/blah/../foo" = "/foo" := by decide
example : bufferPathSimplify "/abc/./xyz" = "/abc/xyz" := by decide
example : bufferPathSimplify "/abc//xyz/.." = "/abc/" := by decide

/-! ## Requests -/

/-- The wait status `pclose` returns for the BinAuth script, if `popen` could
start it. -/
inductive ScriptStatus
  | exited (code : BitVec 8)
  | signaled (signal : Nat)
  | notStarted
  deriving DecidableEq

/-- What the BinAuth script does when it is run for a request. -/
structure ScriptResult where
  status : ScriptStatus
  output : String

/-- A request and what the handler asks about it: the peer address as text, the
fifth word of its line in the neighbour table, and the values of
`MHD_lookup_connection_value`. -/
structure Request where
  method : String
  url : String
  ip : Option String
  neighbour : Option String
  headers : List (String × Option String)
  arguments : List (String × Option String)
  argument : String → Option String
  script : ScriptResult

/-- `get_client_mac`. -/
def Request.mac (request : Request) : Option String :=
  request.neighbour.bind fun word =>
    let mac := scanMac word
    if mac.isEmpty then none else some mac

/-- `get_host_value_callback` over the headers. -/
def Request.host (request : Request) : Option String :=
  (request.headers.find? fun header => decide (header.1 = "Host")).bind Prod.snd

/-- What the client is sent. `error` holds the argument of `send_error`, which is not
always the status code of the answer. -/
inductive Response
  | error (code : Nat)
  | redirect (location : String)
  | refresh
  | splashpage
  | statuspage
  | file (url : String)
  deriving DecidableEq

/-- The status code and the page of an answer. -/
structure QueuedPage where
  status : Nat
  page : String
  deriving DecidableEq

/-- `send_error`; nothing if no answer is queued. -/
def sendError : Nat → Option QueuedPage
  | 200 => some ⟨200, "<html><header><title>Authenticated</title>" ++
      "<body><h1>Authenticated</h1></body></html>"⟩
  | 400 => some ⟨400, "<html><head><title>Error 400</title></head>" ++
      "<body><h1>Error 400 - Bad Request</h1></body></html>"⟩
  | 403 => some ⟨403, "<html><head><title>Error 403</title></head>" ++
      "<body><h1>Error 403 - Forbidden</h1></body></html>"⟩
  | 404 => some ⟨404, "<html><head><title>Error 404</title></head>" ++
      "<body><h1>Error 404 - Not Found</h1></body></html>"⟩
  | 500 => some ⟨500, "<html><head><title>Error 500</title></head>" ++
      "<body><h1>Error 500 - Internal Server Error. Oh no!</body></html>"⟩
  | 501 => some ⟨501, "<html><head><title>Error 501</title></head>" ++
      "<body><h1>Error 501 - Not Implemented</h1></body></html>"⟩
  -- `MHD_HTTP_INTERNAL_SERVER_ERROR` is 500
  | 503 => some ⟨500, "<html><head><title>Error 503</title></head>" ++
      "<body><h1>Error 503 - Internal Server Error</h1></body></html>"⟩
  | _ => none

/-- `QUERYMAXLEN`. -/
def queryMaxLen : Nat := 4096

/-! ## Routing -/

/-- `is_foreign_hosts`. -/
def isForeignHosts (config : Config) : Option String → Bool
  | none => false
  | some host => !(host = config.gwHttpName || host = config.gwHttpNamePort)

/-- `is_splashpage`. -/
def isSplashpage (config : Config) (host : Option String) (url : String) : Bool :=
  match host with
  | none => url.isEmpty || url = "/"
  | some host =>
      !isForeignHosts config (some host) &&
        (url.isEmpty || url = "/" || config.splashpage.toList = url.toList.drop 1)

/-- `check_authdir_match`. -/
def checkAuthdirMatch (url authdir : String) : Bool :=
  url.length = 2 + authdir.length &&
    (url.toList.drop 1).take authdir.length = authdir.toList

example : checkAuthdirMatch "/nodogsplash_auth/" "nodogsplash_auth" = true := by decide

/-- `try_to_authenticate`. -/
def tryToAuthenticate (config : Config) (request : Request) (client : Client) (url : String) :
    Bool :=
  checkAuthdirMatch url config.authdir && request.argument "tok" = some client.token

/-- `encode_and_redirect_to_splashpage`. An encoding of exactly `QUERYMAXLEN` bytes leaves no
room for a NUL in its buffer; here it is taken to end there. -/
def encodeAndRedirectToSplashpage (config : Config) (originurl : Option String) : Response :=
  match uhUrlencode queryMaxLen (originurl.getD "") with
  | none => .error 503
  | some encoded =>
      .redirect s!"http://{config.gwHttpName}/{config.splashpage}?redir={encoded}"

/-- `get_query_callback` for one argument. -/
def getQueryCallback (query : String) (argument : String × Option String) : Option String :=
  let separator := if query.isEmpty then "?" else "&"
  let piece := match argument.2 with
    | some value => separator ++ argument.1 ++ "=" ++ value
    | none => separator ++ argument.1
  if piece.length ≥ queryMaxLen - query.length then none else some (query ++ piece)

/-- `redirect_to_splashpage`. -/
def redirectToSplashpage (config : Config) (request : Request) (host url : String) : Response :=
  match request.arguments.foldlM getQueryCallback "" with
  | none => .error 503
  | some query => encodeAndRedirectToSplashpage config (some s!"http://{host}{url}{query}")

/-! ## BinAuth -/

/-- `WEXITSTATUS` of a process that was killed is 0. -/
def ScriptStatus.code : ScriptStatus → Int
  | .exited code => code.toNat
  | .signaled _ => 0
  | .notStarted => -1

/-- The C string in the buffer `msg` of `do_binauth`. -/
def ScriptResult.message (result : ScriptResult) : List Char :=
  (result.output.toList.take 253).takeWhile fun char => decide (char ≠ '\x00')

/-- The command of `do_binauth`, if it fits in the buffer of `execute_ret`. -/
def binauthCommand (binauth mac username password : String) : Option String :=
  let command := s!"{binauth} auth_client {mac} '{username}' '{password}'"
  if command.length ≥ 512 then none else some command

/-- `seconds`, `upload` and `download` of `authenticate_client`. -/
structure SessionLimits where
  seconds : Int
  upload : Int
  download : Int
  deriving DecidableEq

def SessionLimits.assign (limits : SessionLimits) : List Int → SessionLimits
  | [] => limits
  | [seconds] => { limits with seconds := max seconds 0 }
  | [seconds, upload] => { limits with seconds := max seconds 0, upload := max upload 0 }
  | seconds :: upload :: download :: _ =>
      { seconds := max seconds 0, upload := max upload 0, download := max download 0 }

/-- `do_binauth`: nothing if it returns -1. An encoding of exactly 64 bytes ends there, too. -/
def doBinauth (request : Request) (binauth : String) (client : Client)
    (limits : SessionLimits) : Option SessionLimits := do
  let username ← uhUrlencode 64 ((request.argument "username").getD "")
  let password ← uhUrlencode 64 ((request.argument "password").getD "")
  let _ ← binauthCommand binauth client.mac username password
  if request.script.status.code ≠ 0 then none
  let (result, numbers) := sscanfDecimals 3 request.script.message
  if result < 0 then none
  return limits.assign numbers

/-! ## The decision -/

inductive Decision
  | respond (response : Response)
  | deauthenticate (id : BitVec 32)
  | authenticate (id : BitVec 32) (reason redirectUrl : Option String) (limits : SessionLimits)
  deriving DecidableEq

/-- `authenticate_client` up to `auth_client_auth`. -/
def authenticateClient (config : Config) (request : Request) (redirectUrl : Option String)
    (client : Client) : Decision :=
  let limits : SessionLimits := ⟨toInt32 (60 * config.sessionTimeout), 0, 0⟩
  match config.binauth with
  | some binauth =>
      match doBinauth request binauth client limits with
      | none => .respond (encodeAndRedirectToSplashpage config redirectUrl)
      | some limits => .authenticate client.id (some "client_auth") redirectUrl limits
  | none => .authenticate client.id none redirectUrl limits

/-- `authenticated` up to `auth_client_deauth`. -/
def authenticated (config : Config) (request : Request) (url : String) (client : Client) :
    Decision :=
  if isForeignHosts config request.host then .respond .refresh
  else if checkAuthdirMatch url config.denydir then .deauthenticate client.id
  else if checkAuthdirMatch url config.authdir then .respond .statuspage
  else .respond (.file url)

/-- `preauthenticated` up to `auth_client_auth`. -/
def preauthenticated (config : Config) (request : Request) (url : String) (client : Client) :
    Decision :=
  if isForeignHosts config request.host then
    .respond (redirectToSplashpage config request (request.host.getD "") url)
  else if checkAuthdirMatch url config.authdir then
    let redirectUrl := config.redirectURL <|> request.argument "redir"
    if tryToAuthenticate config request client url then
      authenticateClient config request redirectUrl client
    else .respond (encodeAndRedirectToSplashpage config redirectUrl)
  else if isSplashpage config request.host url then .respond .splashpage
  else .respond (.file url)

namespace Gateway

/-- The part of `libmicrohttpd_cb` that finds or adds the client. -/
def requestClient (gateway : Gateway) (request : Request) : Option Node × Gateway :=
  if request.method ≠ "GET" then (none, gateway)
  else
    match request.ip, request.mac with
    | some ip, some mac =>
        match gateway.clients.find mac ip with
        | some node => (some node, gateway)
        | none => gateway.clientListAddClient mac ip
    | _, _ => (none, gateway)

/-- The handler `libmicrohttpd_cb` chooses by the state of the client. -/
def route (gateway : Gateway) (request : Request) (client : Client) : Decision :=
  let url := bufferPathSimplify request.url
  if client.fwConnectionState = gateway.marks.authenticated ∨
      client.fwConnectionState = gateway.marks.trusted then
    authenticated gateway.config request url client
  else preauthenticated gateway.config request url client

/-- The values `authenticate_client` sets after `auth_client_auth`. -/
def sessionFields (now : Int) (limits : SessionLimits) (client : Client) : Client :=
  { client with
    downloadLimit := limits.download
    uploadLimit := limits.upload
    sessionStart := now
    sessionEnd := if limits.seconds ≠ 0 then now + limits.seconds else 0 }

def authenticatedResponse : Option String → Response
  | some url => .redirect url
  | none => .error 200

/-- `libmicrohttpd_cb`. -/
def libmicrohttpdCb (gateway : Gateway) (request : Request) : Response × Gateway :=
  match gateway.requestClient request with
  | (none, gateway) => (.error 503, gateway)
  | (some node, gateway) =>
      match gateway.route request node.client with
      | .respond response => (response, gateway)
      | .deauthenticate id =>
          (.redirect s!"http://{gateway.config.gwHttpName}/",
            (gateway.authClientDeauth id (some "client_deauth")).2)
      | .authenticate id reason redirectUrl limits =>
          let (rc, gateway) := gateway.authClientAuth id reason
          if rc ≠ 0 then (.error 503, gateway)
          else
            (authenticatedResponse redirectUrl,
              gateway.modifyClient node.address (sessionFields gateway.clock limits))

end Gateway

end Nodogsplash
