import Svgd.Backend.JsonEscape
import Svgd.Backend.Server

/-!
# The bytes of an HTTP answer

`http_build_response` of `src/http.c` and the functions that send what it builds. A response
whose head does not fit is not sent. `http_send_error` escapes the message into 256 bytes on
the stack and prints it into 512 others, from where it is copied; both are parameters, from
their start on.
-/

namespace Svgd.Backend

open Lib

/-- `http_status_text`. -/
def httpStatusText (status : Nat) : Bytes :=
  if status = 200 then str "OK"
  else if status = 400 then str "Bad Request"
  else if status = 404 then str "Not Found"
  else if status = 500 then str "Internal Server Error"
  else str "Error"

/-- `http_response_t`; the body has `body_len` bytes. -/
structure HttpResponse where
  status : Nat
  contentType : Bytes
  body : Bytes
deriving DecidableEq, Repr

/-- The head of a response. -/
def httpHeader (resp : HttpResponse) : Bytes :=
  str "HTTP/1.1 " ++ (printInt resp.status ++ (str " " ++ (httpStatusText resp.status
    ++ (str "\r\nContent-Type: " ++ (resp.contentType ++ (str "\r\nContent-Length: "
    ++ (printNat (resp.body.length % 2 ^ 64)
    ++ (str "\r\nAccess-Control-Allow-Origin: *\r\nAccess-Control-Allow-Methods: GET, OPTIONS"
    ++ str "\r\nAccess-Control-Allow-Headers: Content-Type\r\nConnection: close\r\n\r\n"))))))))

/-- `http_build_response`. -/
def httpBuildResponse (resp : HttpResponse) : Option Bytes :=
  if 1024 ≤ (httpHeader resp).length then none else some (httpHeader resp ++ resp.body)

/-- `strncpy(resp.content_type, content_type, sizeof(resp.content_type) - 1)`. -/
def contentTypeOf (contentType : Bytes) : Bytes := (cstr contentType).take 63

/-- The memory `http_send_error` finds. -/
structure ErrorStack where
  escaped : Nat → UInt8
  body : Nat → UInt8

/-- What `http_send_error` prints into its body. -/
def httpErrorText (escaped : Bytes) : Bytes := str "\x7b\"error\":\"" ++ (escaped ++ str "\"\x7d")

/-- The body of `http_send_error`: as many bytes as `snprintf` says the text has. -/
def httpErrorBody (stack : Nat → UInt8) (escaped : Bytes) : Bytes :=
  (List.range (httpErrorText escaped).length).map
    (TextBuffer.store stack 0 (TextBuffer.written 512 (httpErrorText escaped)))

/-- `http_send_error`; nothing is sent where the escaping would leave its buffer. -/
def httpSendError (mem : ErrorStack) (status : Nat) (message : Bytes) : Option Bytes :=
  (httpJsonEscape (some (cstr message)) ⟨mem.escaped, 256, 0⟩).bind fun escaped =>
    httpBuildResponse ⟨status, contentTypeOf (str "application/json"),
      httpErrorBody mem.body escaped.text⟩

/-- `http_send_response`. -/
def httpSendResponse (contentType body : Bytes) : Option Bytes :=
  httpBuildResponse ⟨200, contentTypeOf contentType, body⟩

/-- `http_send_options`. -/
def httpSendOptions : Bytes :=
  str "HTTP/1.1 200 OK\r\nAccess-Control-Allow-Origin: *\r\n"
    ++ str "Access-Control-Allow-Methods: GET, OPTIONS\r\n"
    ++ str "Access-Control-Allow-Headers: Content-Type\r\nContent-Length: 0\r\n"
    ++ str "Connection: close\r\n\r\n"

/-- The bytes of an answer; `none` if nothing is sent. -/
def HttpReply.wire (mem : ErrorStack) : HttpReply → Option Bytes
  | .options => some httpSendOptions
  | .response contentType body => httpSendResponse contentType body
  | .error status message => httpSendError mem status message

/-- The status of an answer. -/
def HttpReply.status : HttpReply → Nat
  | .options => 200
  | .response _ _ => 200
  | .error status _ => status

end Svgd.Backend
