import Svgd.Backend.Handler

/-!
# The two front ends of the backend

`src/main.c` hands a request to `handler_process` from HTTP (`run_http_server`, with
`http_parse_request` of `src/http.c`) or from LSRP (`lsrp_handler`). Each front end
reads the parameters in its own way. One connection is one received buffer; `memchr`
on it is a search in the list of its bytes.
-/

namespace Svgd.Backend

open Lib Stacked

/-! ## HTTP -/

/-- `HTTP_MAX_PATH`. -/
def httpMaxPath : Nat := 256

/-- `HTTP_MAX_QUERY`. -/
def httpMaxQuery : Nat := 512

/-- `HTTP_MAX_METHOD`. -/
def httpMaxMethod : Nat := 8

/-- `http_request_t`. -/
structure HttpRequest where
  method : Bytes
  path : Bytes
  query : Bytes
deriving DecidableEq, Repr

/-- The end of the first line: a carriage return anywhere goes before a newline. -/
def lineEnd (raw : Bytes) : Option Bytes :=
  match strchr raw (ch '\r') with
  | some stop => some stop
  | none => strchr raw (ch '\n')

/-- The last part of `http_parse_request`: path and query, split at the first `?`. -/
def httpSplitTarget (method full : Bytes) : Option HttpRequest :=
  if httpMaxPath + httpMaxQuery ≤ full.length then none
  else
    match strchr full (ch '?') with
    | some queryStart =>
        let path := upTo full queryStart
        let query := queryStart.drop 1
        if httpMaxPath ≤ path.length then none
        else if httpMaxQuery ≤ query.length then none
        else some ⟨cstr method, cstr path, cstr query⟩
    | none =>
        if httpMaxPath ≤ full.length then none else some ⟨cstr method, cstr full, []⟩

/-- `http_parse_request` on the first line: a word, a space, a word, a space. -/
def httpParseLine (line : Bytes) : Option HttpRequest :=
  match strchr line (ch ' ') with
  | none => none
  | some space1 =>
      let method := upTo line space1
      if httpMaxMethod ≤ method.length then none
      else
        let pathStart := space1.drop 1
        match strchr pathStart (ch ' ') with
        | none => none
        | some space2 => httpSplitTarget method (upTo pathStart space2)

/-- `http_parse_request`. -/
def httpParseRequest (raw : Bytes) : Option HttpRequest :=
  match lineEnd raw with
  | none => none
  | some stop => httpParseLine (upTo raw stop)

/-- The period of an HTTP request, in seconds. -/
def httpPeriod (query : Bytes) : Int :=
  match strstr query (str "period=") with
  | none => 3600
  | some p =>
      let period := atoi (p.drop 7)
      if period ≤ 0 then 3600 else period

/-- What `run_http_server` passes on; width and height are left to the handler. -/
def httpArgs (req : HttpRequest) : HandlerArgs where
  endpoint := if startsWith req.path (str "/") then req.path.drop 1 else req.path
  query := some req.query
  period := httpPeriod req.query
  width := 0
  height := 0

/-- What becomes of one connection. -/
inductive HttpAction where
  | close
  | options
  | badRequest
  | process (args : HandlerArgs)
deriving DecidableEq, Repr

/-- The decisions of `run_http_server` on what it received. -/
def httpAction (received : Bytes) : HttpAction :=
  if received = [] then .close
  else if startsWith (cstr received) (str "OPTIONS") then .options
  else
    match httpParseRequest received with
    | none => .badRequest
    | some req => .process (httpArgs req)

/-- An answer of the HTTP front end. -/
inductive HttpReply where
  | options
  | response (contentType body : Bytes)
  | error (status : Nat) (message : Bytes)
deriving DecidableEq, Repr

/-- The answer for a handler result. -/
def httpReply (r : HandlerResult) : HttpReply :=
  if r.status = 0 then
    .response (if r.isJson then str "application/json" else str "image/svg+xml") r.data
  else .error 400 r.data

/-- `run_http_server` on one connection, with the cache it finds and leaves. -/
def httpServe (env : HandlerEnv) (received : Bytes) (cache : Cache) :
    Duk (Option HttpReply × Cache) :=
  match httpAction received with
  | .close => pure (none, cache)
  | .options => pure (some .options, cache)
  | .badRequest => pure (some (.error 400 (str "Bad Request")), cache)
  | .process args => do
      let (r, cache) ← handlerProcess env args true cache
      pure (some (httpReply r), cache)

/-! ## LSRP -/

/-- A size that `lsrp_handler` reads before the handler reads it again. -/
def lsrpSize (params key : Bytes) : Int :=
  match handlerGetParam params key with
  | some s => atoi s
  | none => 0

/-- The period of an LSRP request, in seconds. -/
def lsrpPeriod (params : Bytes) : Int :=
  let period :=
    match handlerGetParam params (str "period") with
    | some s => atoi s
    | none => 3600
  if period ≤ 0 then 3600 else period

/-- What `lsrp_handler` passes on, or the message it answers. -/
def lsrpArgs (params : Bytes) : Except Bytes HandlerArgs :=
  if params = [] then .error (str "No parameters provided")
  else
    match handlerGetParam params (str "endpoint") with
    | none => .error (str "Missing endpoint parameter")
    | some endpoint =>
        .ok {
          endpoint := endpoint
          query := some params
          period := lsrpPeriod params
          width := lsrpSize params (str "width")
          height := lsrpSize params (str "height") }

/-- `lsrp_response_t`. -/
structure LsrpReply where
  status : Int
  data : Bytes
deriving DecidableEq, Repr

/-- `lsrp_handler`, with the cache it finds and leaves. -/
def lsrpHandler (env : HandlerEnv) (params : Bytes) (cache : Cache) : Duk (LsrpReply × Cache) :=
  match lsrpArgs params with
  | .error message => pure (⟨1, message⟩, cache)
  | .ok args => do
      let (r, cache) ← handlerProcess env args true cache
      pure (⟨if r.status = 0 then 0 else 1, r.data⟩, cache)

end Svgd.Backend
