import Svgd.Lib.TextBuffer
import Svgd.Lib.Decimal

/-!
# Errors on the wire

`send_error` and `send_401_auth` of `gate/main.c`. Both format the whole response into 512
bytes on the stack, and send as many bytes as `snprintf` says the text has. The stack from
the start of the buffer on is a parameter.
-/

namespace Svgd.Gate

open Lib

/-- The text of both functions, with `%s` in its three places. -/
def errorText (statusLine length message : Bytes) : Bytes :=
  statusLine
    ++ (str "\r\nContent-Type: application/json\r\nContent-Length: "
    ++ (length
    ++ (str "\r\nAccess-Control-Allow-Origin: *\r\nConnection: close\r\n\r\n\x7b\"error\":\""
    ++ (message ++ str "\"\x7d"))))

/-- What `snprintf` returns, as `send` takes it: a length above `INT_MAX` is an error, and -1
is a large `size_t`. -/
def sentLength (text : Bytes) : Nat := if text.length < 2 ^ 31 then text.length else 2 ^ 64 - 1

/-- `snprintf(response, sizeof(response), ...)` and `send(client_sock, response, len, ...)`. -/
def sendFormatted (stack : Nat → UInt8) (text : Bytes) : Bytes :=
  (List.range (sentLength text)).map (TextBuffer.store stack 0 (TextBuffer.written 512 text))

/-- What `send_error` formats. -/
def sendErrorText (message : Bytes) : Bytes :=
  errorText (str "HTTP/1.1 400 Bad Request") (printNat ((message.length + 12) % 2 ^ 64)) message

/-- `send_error`. -/
def sendError (stack : Nat → UInt8) (message : Bytes) : Bytes :=
  sendFormatted stack (sendErrorText message)

/-- What `send_401_auth` formats; the length is an `int`. -/
def send401AuthText (message : Bytes) : Bytes :=
  errorText (str "HTTP/1.1 401 Unauthorized") (printInt (toInt32 (message.length + 12))) message

/-- `send_401_auth`. -/
def send401Auth (stack : Nat → UInt8) (message : Bytes) : Bytes :=
  sendFormatted stack (send401AuthText message)

end Svgd.Gate
