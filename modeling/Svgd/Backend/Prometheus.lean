import Svgd.Backend.Config
import Svgd.Lib.Decimal

/-!
# The Prometheus source

`src/prometheus_source.c`: a URL, one HTTP exchange over a raw socket, and a line parser
for the text exposition format. What the exporter sends is a list of pieces, one for
each call of `recv`; `strtod` is a parameter. Allocations are taken to succeed.

The parser stops words at blanks and line ends; a text ends where its list ends, so the
test for NUL is the test for the empty list.
-/

namespace Svgd.Backend

open Lib

/-! ## The URL -/

/-- Host, port and path of a URL. -/
structure PromUrl where
  host : Bytes
  port : Nat
  path : Bytes
deriving DecidableEq, Repr

/-- The path part of `prom_parse_url`. -/
def promUrlPath (p : Bytes) (pathSize : Nat) : Bytes :=
  if startsWith p (str "/") then p.take (pathSize - 1) else str "/"

/-- `prom_parse_url`. -/
def promParseUrl (url : Bytes) (hostSize pathSize : Nat) : Option PromUrl :=
  if pathSize ≠ 0 ∧ startsWith url (str "http://") then
    let inHost : UInt8 → Bool := fun b => b != ch ':' && b != ch '/'
    let host := ((url.drop 7).takeWhile inHost).take (hostSize - 1)
    let p := (url.drop 7).dropWhile inHost
    if host = [] then none
    else if startsWith p (str ":") then
      -- the loop gives up at the first prefix above 65535, as the whole number would
      let digits := (p.drop 1).takeWhile isDigit
      let port := natValue digits
      if digits = [] ∨ 65535 < port ∨ port = 0 then none
      else some ⟨host, port, promUrlPath ((p.drop 1).dropWhile isDigit) pathSize⟩
    else some ⟨host, 80, promUrlPath p pathSize⟩
  else none

/-! ## One line -/

/-- A blank. -/
def isBlank (b : UInt8) : Bool := b == ch ' ' || b == ch '\t'

/-- A line end. -/
def isLineEnd (b : UInt8) : Bool := b == ch '\n' || b == ch '\r'

/-- A byte of a value or a timestamp. -/
def inWord (b : UInt8) : Bool := !isBlank b && !isLineEnd b

/-- A byte of a metric name. -/
def inName (b : UInt8) : Bool := inWord b && b != ch '\x7b'

theorem inWord_eq_true {b : UInt8} :
    inWord b = true ↔ b ≠ ch ' ' ∧ b ≠ ch '\t' ∧ b ≠ ch '\n' ∧ b ≠ ch '\r' := by
  unfold inWord isBlank isLineEnd
  simp [and_assoc]

/-- A byte of a class that has no blank and no line end is in a word. -/
theorem inWord_of_class {f : UInt8 → Bool} {b : UInt8} (h : f b = true)
    (hf : f (ch ' ') = false ∧ f (ch '\t') = false ∧ f (ch '\n') = false ∧ f (ch '\r') = false) :
    inWord b = true := by
  rw [inWord_eq_true]
  exact ⟨ne_of_class h hf.1, ne_of_class h hf.2.1, ne_of_class h hf.2.2.1, ne_of_class h hf.2.2.2⟩

/-- And it is in a name if the class has no opening brace. -/
theorem inName_of_class {f : UInt8 → Bool} {b : UInt8} (h : f b = true)
    (hf : f (ch ' ') = false ∧ f (ch '\t') = false ∧ f (ch '\n') = false ∧ f (ch '\r') = false)
    (hbrace : f (ch '\x7b') = false) : inName b = true := by
  have hne : b ≠ ch '\x7b' := ne_of_class h hbrace
  unfold inName
  rw [inWord_of_class h hf]
  simpa using hne

/-- What `prom_parse_line` makes of a line. -/
inductive PromLine where
  /-- `1`: an empty line or a comment. -/
  | skip
  /-- `-1`. -/
  | malformed
  /-- `0`, with the timestamp in milliseconds if there is one. -/
  | sample (name labels : Bytes) (value : Double) (ts : Option Int)
deriving DecidableEq

/-- The value of a token. -/
def promValue (strtod : Bytes → Double) (token : Bytes) : Double :=
  if token = str "NaN" then .nan false
  else if token = str "+Inf" ∨ token = str "Inf" then .inf false
  else if token = str "-Inf" then .inf true
  else strtod token

/-- The timestamp at the end of a line. -/
def promTimestamp (p : Bytes) : Option Int :=
  match p with
  | [] => none
  | b :: _ =>
      if isLineEnd b then none
      else
        let token := (p.takeWhile inWord).take 31
        if token = [] then none else some ((strtoll token).getD 0)

/-- The part of `prom_parse_line` behind the labels. -/
def promTail (strtod : Bytes → Double) (name labels p : Bytes) : PromLine :=
  let p := p.dropWhile isBlank
  let token := (p.takeWhile inWord).take 63
  if token = [] then .malformed
  else
    .sample name labels (promValue strtod token)
      (promTimestamp ((p.dropWhile inWord).dropWhile isBlank))

/-- The part of `prom_parse_line` behind the name. -/
def promLabels (labelsSize : Nat) (strtod : Bytes → Double) (name p : Bytes) : PromLine :=
  let p := p.dropWhile isBlank
  if startsWith p (str "\x7b") then
    -- the first closing brace ends the labels, also inside a quoted value
    match strchr (p.drop 1) (ch '\x7d') with
    | none => .malformed
    | some stop =>
        promTail strtod name ((upTo (p.drop 1) stop).take (labelsSize - 1)) (stop.drop 1)
  else promTail strtod name [] p

/-- `prom_parse_line`, with the sizes of the two buffers. -/
def promParseLine (nameSize labelsSize : Nat) (strtod : Bytes → Double) (line : Bytes) : PromLine :=
  if nameSize = 0 ∨ labelsSize = 0 then .malformed
  else
    let p := line.dropWhile isBlank
    match p with
    | [] => .skip
    | b :: _ =>
        if isLineEnd b ∨ b = ch '#' then .skip
        else
          let name := (p.takeWhile inName).take (nameSize - 1)
          if name = [] then .malformed
          else promLabels labelsSize strtod name (p.dropWhile inName)

/-! ## The exchange -/

/-- The upper limit of what is read. -/
def promReadLimit : Nat := 8 * 1024 * 1024

/-- The loop around `recv`, with what has been read; an empty piece is the end of the stream. -/
def recvLoop : List Bytes → Bytes → Bytes
  | [], buf => buf
  | piece :: pieces, buf =>
      if piece = [] then buf
      else if promReadLimit < (buf ++ piece).length then buf ++ piece
      else recvLoop pieces (buf ++ piece)

/-- The size of the buffer when `recv` is called with `len` bytes in it. -/
def recvCapacity (cap len : Nat) : Nat := if cap < len + 4096 then cap * 2 else cap

/-- Pieces that `recv` can deliver one after the other: none is empty, and each fits into what
the buffer has left. -/
def Arrives : Nat → Nat → List Bytes → Prop
  | _, _, [] => True
  | cap, len, piece :: pieces =>
      piece ≠ [] ∧ piece.length ≤ recvCapacity cap len - len - 1
        ∧ Arrives (recvCapacity cap len) (len + piece.length) pieces

/-- The request `http_get_body` sends. -/
def promRequest (host path : Bytes) : Bytes :=
  str "GET " ++ path ++ str " HTTP/1.1\r\nHost: " ++ host
    ++ str "\r\nUser-Agent: svgd\r\nAccept: text/plain\r\nConnection: close\r\n\r\n"

/-- What `http_get_body` makes of the pieces it received: the text behind the first empty line. -/
def responseBody (pieces : List Bytes) : Option Bytes :=
  (strstr (cstr (recvLoop pieces [])) (str "\r\n\r\n")).map (·.drop 4)

/-- What the source asks of the outside world. -/
structure PromWorld where
  /-- The pieces that arrive when a request is sent to a host and port; `none` when there is no
  connection or sending fails. -/
  exchange : Bytes → Nat → Bytes → Option (List Bytes)
  strtod : Bytes → Double
  /-- `time(NULL)` when series number `i` is filled in. -/
  time : Nat → Int

/-- `http_get_body`. -/
def httpGetBody (w : PromWorld) (url : PromUrl) : Option Bytes :=
  let request := promRequest url.host url.path
  if 1024 ≤ request.length then none
  else (w.exchange url.host url.port request).bind responseBody

/-! ## The series -/

/-- `next_line`: the next line, cut to its buffer, and the cursor behind it. -/
def nextLine (cursor : Bytes) : Option (Bytes × Bytes) :=
  if cursor = [] then none
  else
    match strchr cursor (ch '\n') with
    | some nl => some ((upTo cursor nl).take 1023, nl.drop 1)
    | none => some (cursor.take 1023, [])

/-- The lines the loop around `next_line` sees. Every round moves the cursor. -/
def bodyLinesFrom : Nat → Bytes → List Bytes
  | 0, _ => []
  | fuel + 1, cursor =>
      match nextLine cursor with
      | none => []
      | some (line, cursor) => line :: bodyLinesFrom fuel cursor

/-- The lines of a body. -/
def bodyLines (body : Bytes) : List Bytes := bodyLinesFrom body.length body

/-- A sample that both passes accept: its labels, value and timestamp. -/
structure PromSample where
  name : Bytes
  labels : Bytes
  value : Double
  ts : Option Int
deriving DecidableEq

/-- The three tests both passes make on a line. -/
def matchLine (strtod : Bytes → Double) (endpoint line : Bytes) : Option PromSample :=
  match promParseLine 128 256 strtod line with
  | .sample name labels value ts =>
      if name = endpoint ∧ value.isFinite then some ⟨name, labels, value, ts⟩ else none
  | _ => none

/-- `MAX_SERIES`. -/
def maxSeries : Nat := 1024

/-- Pass 1: how many lines match, up to `MAX_SERIES`. -/
def countSamples (strtod : Bytes → Double) (endpoint : Bytes) : List Bytes → Nat → Nat
  | [], count => count
  | line :: lines, count =>
      match matchLine strtod endpoint line with
      | none => countSamples strtod endpoint lines count
      | some _ =>
          if maxSeries ≤ count + 1 then count + 1 else countSamples strtod endpoint lines (count + 1)

/-- The series of a sample, filled in at time `now`. -/
def PromSample.series (s : PromSample) (now : Int) : Series :=
  ⟨some (if s.labels = [] then s.name else s.labels),
    [⟨match s.ts with | some ts => ts.tdiv 1000 | none => now, s.value⟩]⟩

/-- Pass 2, from series number `idx` on. -/
def fillSeries (w : PromWorld) (endpoint : Bytes) (count : Nat) : List Bytes → Nat → List Series
  | [], _ => []
  | line :: lines, idx =>
      if count ≤ idx then []
      else
        match matchLine w.strtod endpoint line with
        | none => fillSeries w endpoint count lines idx
        | some s => s.series (w.time idx) :: fillSeries w endpoint count lines (idx + 1)

/-- The part of `prometheus_source_fetch` behind the exchange. -/
def promData (w : PromWorld) (metric : MetricConfig) (body : Bytes) : Option MetricData :=
  let lines := bodyLines body
  let count := countSamples w.strtod metric.endpoint lines 0
  if count = 0 then none
  else
    let series := fillSeries w metric.endpoint count lines 0
    -- `metric_config` stays NULL here; whoever renders the data sets it to the metric
    if series = [] then none else some ⟨series, some [], metric⟩

/-! `promData` keeps the series that pass 2 filled in. The arrays it fills have as many slots as
pass 1 counted, and `series_count` is that number. -/

/-- A slot as `alloc_metric_data` leaves it. -/
def emptySlot : Series := ⟨none, []⟩

/-- Pass 2, with the slots it fills and `idx`. -/
def fillSlots (w : PromWorld) (endpoint : Bytes) (count : Nat) :
    List Bytes → Nat → List Series → List Series × Nat
  | [], idx, slots => (slots, idx)
  | line :: lines, idx, slots =>
      if count ≤ idx then (slots, idx)
      else
        match matchLine w.strtod endpoint line with
        | none => fillSlots w endpoint count lines idx slots
        | some s => fillSlots w endpoint count lines (idx + 1) (slots.set idx (s.series (w.time idx)))

/-- The slots of the data behind the exchange; `none` when NULL is returned. -/
def promSlots (w : PromWorld) (metric : MetricConfig) (body : Bytes) : Option (List Series) :=
  let lines := bodyLines body
  let count := countSamples w.strtod metric.endpoint lines 0
  if count = 0 then none
  else
    let (slots, idx) :=
      fillSlots w metric.endpoint count lines 0 (List.replicate count emptySlot)
    if idx = 0 then none else some slots

/-- `prometheus_source_fetch`. -/
def prometheusSourceFetch (w : PromWorld) (metric : MetricConfig) : Option MetricData :=
  match promParseUrl metric.prometheusUrl 256 512 with
  | none => none
  | some url =>
      match httpGetBody w url with
      | none => none
      | some body => promData w metric body

example : promParseUrl (str "http://exporter:9100/metrics") 128 256
    = some ⟨str "exporter", 9100, str "/metrics"⟩ := by decide +kernel

end Svgd.Backend
