import Svgd.Gate.Request
import Svgd.Gate.Auth
import Svgd.Gate.Datasources

/-!
# svgd-gate, request by request

`handleRequest` is one pass of the main loop of `gate/main.c` over a received
buffer: login and token check, the routes in the order the source tests them, and
the forwarding to a backend. Its outcome is what the outside world can observe —
the files it opened, the LSRP messages it sent, the saved and listed datasources,
the answer — together with the new datasource list.

What the gate does not compute is in `Env`: the clock, the file system, the
answers of backends, OpenSSL, and the LSRP size limit of the submodule.
-/

namespace Svgd.Gate

open Lib

/-- `struct Config`, as far as handling a request reads it. -/
structure Config where
  svgdHost : Bytes := str "127.0.0.1"
  svgdPort : Int := 8081
  staticPath : Bytes := str "./gate/static"
deriving DecidableEq, Repr

/-- `lsrp_response_t`. -/
structure LsrpResponse where
  status : Int
  data : Bytes
deriving DecidableEq, Repr

/-- What the gate asks of its surroundings while it handles one request. -/
structure Env where
  config : Config := {}
  auth : AuthConfig := {}
  ssl : OpenSSL
  /-- `time(NULL)`. -/
  now : Int
  /-- `LSRP_MAX_PARAMS_LEN`. -/
  maxParamsLen : Nat
  /-- `lsrp_client_send`; `none` when it fails. -/
  lsrpClientSend : Bytes → Int → Bytes → Option LsrpResponse
  /-- The contents of a file; `none` when `fopen` fails. -/
  readFile : Bytes → Option Bytes

/-- The answers of the gate, one constructor for each function that sends one. -/
inductive Response where
  /-- `send_json`. -/
  | json (status : Nat) (body : Bytes)
  /-- `send_error`: a 400 with the message. -/
  | error (message : Bytes)
  /-- `send_404`. -/
  | notFound
  /-- `send_401_auth`. -/
  | unauthorized (message : Bytes)
  /-- `send_response`: a 200 with the data. -/
  | ok (contentType data : Bytes)
  /-- A literal preflight answer. -/
  | preflight (methods headers : Bytes)
deriving DecidableEq, Repr

/-- What handling a request does to the outside world. -/
inductive Effect where
  /-- `fopen(filepath, "rb")` in `serve_static_file`. -/
  | openFile (filepath : Bytes)
  /-- `lsrp_client_send(host, port, params)`. -/
  | lsrpSend (host : Bytes) (port : Int) (params : Bytes)
  /-- The list was read out by `handle_get_datasources`. -/
  | listed
  /-- `save_datasources` wrote the list. -/
  | saved (text : Bytes)
  /-- An answer went to the client. -/
  | respond (r : Response)
deriving DecidableEq, Repr

/-- The effects of handling a request and the datasource list it leaves. -/
structure Outcome where
  effects : List Effect
  datasources : DatasourceList
deriving DecidableEq, Repr

/-- The answer among the effects of a request; without one the connection is just closed. -/
def Outcome.reply (o : Outcome) : Option Response :=
  o.effects.findSome? fun
    | .respond r => some r
    | _ => none

/-- Answer without touching the datasources. -/
def answer (ds : DatasourceList) (r : Response) : Outcome := ⟨[.respond r], ds⟩

/-! ## Static files -/

/-- `MAX_FILE_SIZE`. -/
def maxFileSize : Nat := 1024 * 1024

/-- The file name `serve_static_file` opens: 512 bytes with the NUL. -/
def staticFilePath (config : Config) (path : Bytes) : Bytes :=
  if path = str "/" then snprintf 512 (config.staticPath ++ str "/index.html")
  else snprintf 512 (config.staticPath ++ path)

/-- `serve_static_file`. -/
def serveStaticFile (env : Env) (ds : DatasourceList) (path : Bytes) : Outcome :=
  let filepath := staticFilePath env.config path
  match env.readFile filepath with
  | none => ⟨[.openFile filepath, .respond .notFound], ds⟩
  | some content =>
      if maxFileSize < content.length then
        ⟨[.openFile filepath, .respond (.error (str "File too large"))], ds⟩
      else ⟨[.openFile filepath, .respond (.ok (getMimeType path) content)], ds⟩

/-! ## Login -/

/-- The password of a login body; empty when it is missing or does not fit. -/
def loginPassword (body : Bytes) : Bytes :=
  match strstr body (str "\"password\"") with
  | none => []
  | some p =>
      match strchr (p.drop 10) (ch '"') with
      | none => []
      | some q =>
          match strchr (q.drop 1) (ch '"') with
          | none => []
          | some stop =>
              -- the next quote ends the password, escaped or not
              let password := upTo (q.drop 1) stop
              if password.length < maxPasswordLen then password else []

/-- `handle_login`. -/
def handleLogin (env : Env) (body : Bytes) : Response :=
  if env.auth.loaded = false then .unauthorized (str "Auth not configured")
  else
    let password := loginPassword body
    if password = [] then .unauthorized (str "Password required")
    else if authVerifyPassword env.auth password = false then
      .unauthorized (str "Invalid password")
    else
      match authCreateToken env.ssl env.auth env.now with
      | none => .json 500 (str "\x7b\"error\":\"Failed to create token\"\x7d")
      | some token =>
          .json 200 (snprintf (maxTokenSize + 64) (str "\x7b\"token\":\"" ++ token ++ str "\"\x7d"))

/-! ## Datasource routes -/

/-- `handle_get_datasources`. -/
def handleGetDatasources (ds : DatasourceList) : Outcome :=
  ⟨[.listed, .respond (.json 200 (listDatasources ds))], ds⟩

/-- `handle_post_datasource`. -/
def handlePostDatasource (ds : DatasourceList) (body : Bytes) : Outcome :=
  let name := bodyName body
  let host := bodyHost body
  let port := bodyPort body
  if name = [] ∨ host = [] ∨ port ≤ 0 then
    answer ds (.json 400 (str "\x7b\"error\":\"Missing name, host, or port\"\x7d"))
  else
    match addDatasource ds name host port with
    | .full => answer ds (.json 500 (str "\x7b\"error\":\"Maximum datasources reached\"\x7d"))
    | .alreadyExists =>
        answer ds (.json 409 (str "\x7b\"error\":\"Datasource already exists\"\x7d"))
    -- `-3` is not told apart from success here
    | .badPort => answer ds (.json 201 (str "\x7b\"success\":true\x7d"))
    | .added ds' =>
        ⟨[.saved (saveDatasources ds'), .respond (.json 201 (str "\x7b\"success\":true\x7d"))], ds'⟩

/-- The text of a 404 for a datasource name, in a buffer of `size` bytes. -/
def datasourceNotFound (size : Nat) (name : Bytes) : Response :=
  .json 404 (snprintf size (str "\x7b\"error\":\"Datasource '" ++ name ++ str "' not found\"\x7d"))

/-- `handle_delete_datasource`. -/
def handleDeleteDatasource (ds : DatasourceList) (name : Bytes) : Outcome :=
  match removeDatasource ds name with
  | some ds' => ⟨[.saved (saveDatasources ds'), .respond (.json 204 [])], ds'⟩
  | none => answer ds (datasourceNotFound 128 name)

/-- `handle_set_default`. -/
def handleSetDefault (ds : DatasourceList) (name : Bytes) : Outcome :=
  match setDefault ds name with
  | some ds' =>
      ⟨[.saved (saveDatasources ds'), .respond (.json 200 (str "\x7b\"success\":true\x7d"))], ds'⟩
  | none => answer ds (datasourceNotFound 128 name)

/-- The datasource name in `/_datasources/<name>[/...]`, cut to its buffer. -/
def pathDatasourceName (namePart : Bytes) : Bytes :=
  (untilOr namePart (strchr namePart (ch '/'))).take (maxDsNameLen - 1)

/-- The `/_datasources` and `/_datasources/...` routes. -/
def routeDatasources (ds : DatasourceList) (path buffer : Bytes) : Outcome :=
  if path = str "/_datasources" then
    if startsWith buffer (str "GET ") then handleGetDatasources ds
    else if startsWith buffer (str "POST ") then
      match extractBody buffer with
      | some body => handlePostDatasource ds body
      | none => answer ds (.json 400 (str "\x7b\"error\":\"Missing request body\"\x7d"))
    else if startsWith buffer (str "OPTIONS ") then
      answer ds (.preflight (str "GET, POST, DELETE, OPTIONS") (str "Content-Type"))
    else ⟨[], ds⟩
  else
    let namePart := path.drop 14
    let name := pathDatasourceName namePart
    let slash := strchr namePart (ch '/')
    if startsWith buffer (str "DELETE ") then handleDeleteDatasource ds name
    else if slash = some (str "/default") ∧ startsWith buffer (str "PUT ") then
      handleSetDefault ds name
    else if startsWith buffer (str "OPTIONS ") then
      answer ds (.preflight (str "GET, POST, DELETE, PUT, OPTIONS") (str "Content-Type"))
    else answer ds .notFound

/-! ## Forwarding -/

/-- The backend of a request: the named datasource, the default one, or the command line's. -/
def targetBackend (config : Config) (ds : DatasourceList) (buffer : Bytes) :
    Except Bytes (Bytes × Int) :=
  let named :=
    -- the first question mark of the whole buffer, not of the request line
    match strchr buffer (ch '?') with
    | some query => extractDatasourceParam query
    | none => none
  match named with
  | some name =>
      match findDatasource ds name with
      | some d => .ok (d.host, d.port)
      | none => .error name
  | none =>
      if ds.items ≠ [] ∧ ds.defaultName ≠ [] then
        match findDatasource ds ds.defaultName with
        | some d => .ok (d.host, d.port)
        | none => .ok (config.svgdHost, config.svgdPort)
      else .ok (config.svgdHost, config.svgdPort)

/-- Send `params` to the backend of the request and answer with what `relay` makes of it. -/
def forward (env : Env) (ds : DatasourceList) (buffer params : Bytes)
    (relay : LsrpResponse → Response) : Outcome :=
  match targetBackend env.config ds buffer with
  | .error name => answer ds (datasourceNotFound 256 name)
  | .ok (host, port) =>
      match env.lsrpClientSend host port params with
      | none =>
          ⟨[.lsrpSend host port params,
            .respond (.error (str "Failed to communicate with svgd service"))], ds⟩
      | some resp => ⟨[.lsrpSend host port params, .respond (relay resp)], ds⟩

/-- `grafana_forward`: a backend error becomes an empty result. -/
def grafanaForward (env : Env) (ds : DatasourceList) (buffer params : Bytes) : Outcome :=
  forward env ds buffer params fun resp =>
    if resp.status = 0 then .ok (str "application/json") resp.data else .json 200 (str "[]")

/-- The upper-case hex digit of a number below sixteen. -/
def hexDigitUpper (d : Nat) : UInt8 := UInt8.ofNat (if d < 10 then 48 + d else 55 + d)

/-- The four characters `url_encode` escapes. -/
def isEscaped (c : UInt8) : Bool := c == ch '&' || c == ch '=' || c == ch '%' || c == ch '+'

/-- `url_encode`. -/
def urlEncode : Bytes → Bytes
  | [] => []
  | c :: s =>
      if isEscaped c then
        ch '%' :: hexDigitUpper (c.toNat / 16) :: hexDigitUpper (c.toNat % 16) :: urlEncode s
      else c :: urlEncode s

/-- The LSRP parameters of a Grafana query. -/
def grafanaQueryParams (body : Bytes) : Bytes :=
  str "endpoint=_grafana/query&body=" ++ urlEncode body

/-- The part of a Grafana path after `/grafana` and one slash. -/
def grafanaSub (path : Bytes) : Bytes :=
  if startsWith (path.drop 8) (str "/") then path.drop 9 else path.drop 8

/-- `handle_grafana`. -/
def handleGrafana (env : Env) (ds : DatasourceList) (path buffer : Bytes) : Outcome :=
  let sub := grafanaSub path
  if startsWith buffer (str "OPTIONS ") then
    answer ds (.preflight (str "GET, POST, OPTIONS") (str "Content-Type, Authorization"))
  else if startsWith buffer (str "GET ") then answer ds (.json 200 (str "\x7b\x7d"))
  else if startsWith buffer (str "POST ") = false then answer ds .notFound
  else if sub = str "search" then
    grafanaForward env ds buffer (str "endpoint=_grafana/search")
  else if sub = str "query" then
    match extractBody buffer with
    | none => answer ds (.json 400 (str "\x7b\"error\":\"Missing request body\"\x7d"))
    | some body =>
        if env.maxParamsLen ≤ (grafanaQueryParams body).length then
          answer ds (.json 413 (str "\x7b\"error\":\"Request body too large\"\x7d"))
        else grafanaForward env ds buffer (grafanaQueryParams body)
  else if sub = str "annotations" then answer ds (.json 200 (str "[]"))
  else answer ds (.json 404 (str "\x7b\"error\":\"Unknown grafana endpoint\"\x7d"))

/-- The endpoint in the parameters, which decides the content type of the answer. -/
def paramsEndpoint (params : Bytes) : Bytes :=
  match strstr params (str "endpoint=") with
  | none => []
  | some e =>
      let value := untilOr (e.drop 9) (strchr (e.drop 9) (ch '&'))
      if value.length < 256 then value else []

/-- The last part of the main loop: anything else is a metric request. -/
def forwardMetric (env : Env) (ds : DatasourceList) (buffer : Bytes) : Outcome :=
  match parseApiRequest env.maxParamsLen buffer with
  | none => answer ds (.error (str "Invalid or missing query parameters"))
  | some params =>
      forward env ds buffer params fun resp =>
        if resp.status = 0 then .ok (getApiContentType (paramsEndpoint params)) resp.data
        else .error resp.data

/-! ## The main loop -/

/-- The route `/_auth/login`. -/
def routeLogin (env : Env) (buffer : Bytes) : Response :=
  if startsWith buffer (str "POST ") then
    match extractBody buffer with
    | some body => handleLogin env body
    | none => .json 400 (str "\x7b\"error\":\"Missing request body\"\x7d")
  else if startsWith buffer (str "OPTIONS ") then
    .preflight (str "POST, OPTIONS") (str "Content-Type, Authorization")
  else .notFound

/-- The request carries a token and the token is valid. -/
def hasValidToken (env : Env) (buffer : Bytes) : Bool :=
  match extractAuthToken buffer with
  | some token => authValidateToken env.ssl env.auth env.now token
  | none => false

/-- The route `/_auth/verify`. -/
def routeVerify (env : Env) (buffer : Bytes) : Response :=
  if startsWith buffer (str "OPTIONS ") then
    .preflight (str "GET, OPTIONS") (str "Content-Type, Authorization")
  else if startsWith buffer (str "GET ") then
    if hasValidToken env buffer then .json 200 (str "\x7b\"valid\":true\x7d")
    else .unauthorized (str "Invalid or expired token")
  else .notFound

/-- `path` is `/grafana` or below it. -/
def isGrafanaPath (path : Bytes) : Bool :=
  startsWith path (str "/grafana") && (path.length == 8 || startsWith (path.drop 8) (str "/"))

/-- The routes behind the token check. -/
def route (env : Env) (ds : DatasourceList) (path buffer : Bytes) : Outcome :=
  if isGrafanaPath path then handleGrafana env ds path buffer
  else if path = str "/_datasources" ∨ startsWith path (str "/_datasources/") then
    routeDatasources ds path buffer
  else if isStaticRequest path then serveStaticFile env ds path
  else forwardMetric env ds buffer

/-- The main loop on one received buffer; a connection without data is just closed. -/
def handleRequest (env : Env) (ds : DatasourceList) (received : Bytes) : Outcome :=
  if received = [] then ⟨[], ds⟩
  else
    let buffer := cstr received
    match extractPath buffer with
    | none => answer ds (.error (str "Invalid request"))
    | some path =>
        -- login, verification and preflights are answered before any token is looked for
        if path = str "/_auth/login" then answer ds (routeLogin env buffer)
        else if path = str "/_auth/verify" then answer ds (routeVerify env buffer)
        else if startsWith buffer (str "OPTIONS ") then
          answer ds (.preflight (str "GET, OPTIONS") (str "Content-Type"))
        else if requiresAuth path && !hasValidToken env buffer then
          answer ds (.unauthorized (str "Missing or invalid token"))
        else route env ds path buffer

end Svgd.Gate
