import Svgd.Gate.Server
import Svgd.Lib.Decimal

/-!
# The read loop

How `gate/main.c` gathers a request. After each `recv` it looks for the end of the head
and for a length field in what it has, and stops when the body is as long as the field
says. Otherwise it goes on until the client stops sending.
-/

namespace Svgd.Gate

open Lib

/-- `MAX_REQUEST_LEN`. -/
def maxRequestLen : Nat := 65536

/-- The test after a `recv`: has the full request been received? -/
def requestComplete (buffer : Bytes) : Bool :=
  let text := cstr buffer
  match strstr text (str "\r\n\r\n") with
  | none => false
  | some bodyStart =>
      match strstr text (str "Content-Length:") with
      | none => true
      | some contentLenStr =>
          let contentLen := atol (contentLenStr.drop 15)
          let headerSize := text.length - bodyStart.length + 4
          -- both sides are compared as `size_t`
          decide (toUInt64 contentLen ≤ (buffer.length - headerSize : Nat))

/-- The read loop on what `recv` delivers, call by call; after that it fails or returns 0. -/
def readLoop : List Bytes → Bytes → Bytes
  | [], buffer => buffer
  | piece :: pieces, buffer =>
      if buffer.length < maxRequestLen - 1 then
        let bytesRead := piece.take (maxRequestLen - 1 - buffer.length)
        if bytesRead = [] then buffer
        else if requestComplete (buffer ++ bytesRead) then buffer ++ bytesRead
        else readLoop pieces (buffer ++ bytesRead)
      else buffer

/-- One connection: the request is read, then handled. -/
def serveConnection (env : Env) (ds : DatasourceList) (pieces : List Bytes) : Outcome :=
  handleRequest env ds (readLoop pieces [])

end Svgd.Gate
