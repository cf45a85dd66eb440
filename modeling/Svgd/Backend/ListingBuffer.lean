import Svgd.Backend.LoadConfig
import Svgd.Lib.TextBuffer

/-!
# The memory behind the list of metrics

`generate_metrics_json` again, with the memory it writes to. `generateMetricsJson` ends where
a piece does not fit; here it is cut, the offset moves behind the buffer, and what the next
call does is seen. `buffer_size` is an `int` before it is a `size_t`.
-/

namespace Svgd.Backend

open Lib

/-- The first `buffer_size`; the sum is computed as an `int`, and has no value beyond one. -/
def initialSize (metricsCount : Nat) : Option Nat :=
  if 1024 + metricsCount * 512 < 2 ^ 31 then some (1024 + metricsCount * 512) else none

/-- The loop over the metrics. -/
def listMetrics : List MetricEntry → Bool → TextBuffer → Option TextBuffer
  | [], _, b => some b
  | m :: ms, isFirst, b => do
      let b ← if isFirst then some b else b.snprintf (str ",")
      let b ← (metricPieces m).foldlM TextBuffer.snprintf b
      -- only now is the room looked at
      listMetrics ms false (b.resize (doubled 512 b.size b.offset))

/-- The calls to `snprintf`, on a buffer that is empty. -/
def writeListing (metrics : List MetricEntry) (b : TextBuffer) : Option TextBuffer := do
  let b ← b.snprintf (str "\x7b\"version\":\"1.0\",\"metrics\":[")
  let b ← listMetrics metrics true b
  b.snprintf (str "]\x7d")

/-- `generate_metrics_json` on an allocation with any contents: the string that is returned, or
`none` if the size overflows or `offset` is not below `buffer_size` at some `snprintf`. -/
def writeMetricsJson (mem : Nat → UInt8) (metrics : List MetricEntry) : Option Bytes := do
  let size ← initialSize metrics.length
  let b ← writeListing metrics ⟨mem, size, 0⟩
  pure b.text

/-- The list up to some metric, without the brackets that close it. -/
def listed (metrics : List MetricEntry) : Bytes :=
  str "\x7b\"version\":\"1.0\",\"metrics\":[" ++ commaJoin (metrics.map metricItem)

/-- The whole list. -/
def listing (metrics : List MetricEntry) : Bytes := listed metrics ++ str "]\x7d"

end Svgd.Backend
