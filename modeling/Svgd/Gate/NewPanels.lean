import Svgd.Gate.Pictures
import Svgd.Lib.Json
import Svgd.Lib.Pairs
import Svgd.Proof.Addressable

/-!
# From the list of metrics to the address of a picture

`fetchAvailableMetrics`, the form for a new panel and the URL of `fetchSVG` of
`gate/static/script.js`. The page keeps the whole list of the backend; of a metric, it reads the
endpoint, whether it needs a parameter, and the type of its panel. Titles are left out: the form
gets the one it sets. The page talks to the gate it was loaded from (`apiBaseUrl` is empty).
-/

namespace Svgd.Gate

open Lib

/-! ## The list -/

/-- The query of `fetchSVG`; a size of zero is replaced. -/
def PanelRequest.pairs (r : PanelRequest) (width height : Int) : List (Bytes × Bytes) :=
  [(str "period", printInt r.period), (str "width", printInt (if width = 0 then 800 else width)),
    (str "height", printInt (if height = 0 then 450 else height))]
    ++ (if r.datasource = [] then [] else [(str "datasource", r.datasource)])

/-- The URL of `fetchSVG`. -/
def PanelRequest.url (r : PanelRequest) (width height : Int) : Bytes :=
  ch '/' :: (r.endpoint ++ ch '?' :: pairsText (r.pairs width height))

/-- The request line the browser sends for it. -/
def PanelRequest.line (r : PanelRequest) (width height : Int) : RequestLine :=
  browserLine (str "GET") (r.url width height) get_token

end Svgd.Gate
