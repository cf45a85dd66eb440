import Svgd.Gate.Server
import Svgd.Gate.ErrorText

/-!
# The bytes of an answer

What the functions of `gate/main.c` that send an answer hand to `send`. A head is formatted
into a buffer on the stack, and as many bytes are sent as `snprintf` says it has; a body is
sent from where it is. The stack from the start of the buffer on is a parameter.
-/

namespace Svgd.Gate

open Lib

/-- `snprintf(header, size, ...)` and `send(client_sock, header, header_len, ...)`. -/
def sendBuffer (size : Nat) (stack : Nat → UInt8) (text : Bytes) : Bytes :=
  (List.range (sentLength text)).map (TextBuffer.store stack 0 (TextBuffer.written size text))

/-- The text for a status in `send_json`. -/
def jsonStatusText (status : Nat) : Bytes :=
  if status = 200 then str "OK"
  else if status = 201 then str "Created"
  else if status = 204 then str "No Content"
  else if status = 404 then str "Not Found"
  else if status = 409 then str "Conflict"
  else str "Error"

/-- The head of `send_json`. -/
def jsonHeader (status length : Nat) : Bytes :=
  str "HTTP/1.1 " ++ (printInt status ++ (str " " ++ (jsonStatusText status
    ++ (str "\r\nContent-Type: application/json\r\nContent-Length: "
    ++ (printNat (length % 2 ^ 64)
    ++ str "\r\nAccess-Control-Allow-Origin: *\r\nConnection: close\r\n\r\n")))))

/-- `send_json`. -/
def sendJson (stack : Nat → UInt8) (status : Nat) (json : Bytes) : Bytes :=
  sendBuffer 256 stack (jsonHeader status (cstr json).length) ++ cstr json

/-- `send_404`. -/
def send404 : Bytes :=
  str "HTTP/1.1 404 Not Found\r\nContent-Type: text/plain\r\nContent-Length: 9\r\n"
    ++ str "Connection: close\r\n\r\nNot Found"

/-- The head of `send_response`. -/
def responseHeader (contentType : Bytes) (length : Nat) : Bytes :=
  str "HTTP/1.1 200 OK\r\nContent-Type: " ++ (contentType ++ (str "\r\nContent-Length: "
    ++ (printNat (length % 2 ^ 64)
    ++ str "\r\nAccess-Control-Allow-Origin: *\r\nConnection: close\r\n\r\n")))

/-- `send_response`. -/
def sendResponse (stack : Nat → UInt8) (contentType data : Bytes) : Bytes :=
  sendBuffer 512 stack (responseHeader contentType data.length) ++ data

/-- The literal answers to a preflight. Only the one of `handle_options` closes the connection
in its head. -/
def preflightText (methods headers : Bytes) : Bytes :=
  str "HTTP/1.1 200 OK\r\nAccess-Control-Allow-Origin: *\r\nAccess-Control-Allow-Methods: "
    ++ (methods ++ (str "\r\nAccess-Control-Allow-Headers: " ++ (headers
    ++ (str "\r\nContent-Length: 0\r\n"
    ++ ((if methods = str "GET, OPTIONS" ∧ headers = str "Content-Type" then
        str "Connection: close\r\n" else []) ++ str "\r\n")))))

/-- The bytes of an answer. -/
def Response.wire (stack : Nat → UInt8) : Response → Bytes
  | .json status body => sendJson stack status body
  | .error message => sendError stack (cstr message)
  | .notFound => send404
  | .unauthorized message => send401Auth stack (cstr message)
  | .ok contentType data => sendResponse stack contentType data
  | .preflight methods headers => preflightText methods headers

/-- The answers among the effects of a request. -/
def Outcome.replies (o : Outcome) : List Response :=
  o.effects.filterMap fun
    | .respond r => some r
    | _ => none

/-- What the client receives for a request. -/
def Outcome.wire (stack : Nat → UInt8) (o : Outcome) : Bytes :=
  o.replies.flatMap (Response.wire stack)

/-- The body of an answer. -/
def Response.payload : Response → Bytes
  | .json _ body => cstr body
  | .error message => str "\x7b\"error\":\"" ++ (cstr message ++ str "\"\x7d")
  | .notFound => str "Not Found"
  | .unauthorized message => str "\x7b\"error\":\"" ++ (cstr message ++ str "\"\x7d")
  | .ok _ data => data
  | .preflight _ _ => []

end Svgd.Gate
