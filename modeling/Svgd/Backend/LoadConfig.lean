import Svgd.Backend.Config
import Svgd.Lib.JsonText
import Svgd.Lib.JsonLaws

/-!
# Loading the configuration

`load_config` and `generate_metrics_json` of `src/cfg.c`. Decoding is Duktape's part; a
decoder that throws ends the process, because the call is not protected. The fields that
are asked for are inherited by nothing, so only the members of an object matter. An
element of `metrics` that is no object leaves its slot as `malloc` returned it.
Allocations are taken to succeed.
-/

namespace Svgd.Backend

open Lib

/-! ## Reading fields -/

/-- A property of the value on top of the stack. -/
def fieldOf (j : Json) (field : Bytes) : Option Json :=
  match j with
  | .obj members => Json.member members field
  | _ => none

/-- `duk_is_object`; arrays are objects. -/
def isObjectValue : Json → Bool
  | .obj _ => true
  | .arr _ => true
  | _ => false

/-- `strncpy(dest, src, size - 1)` with the terminator behind it. -/
def copyString (size : Nat) (src : Bytes) : Bytes := (cstr src).take (size - 1)

/-- `set_string_field`. -/
def setStringField (j : Json) (field : String) (size : Nat) (dflt : String) : Bytes :=
  match fieldOf j (str field) with
  | some (.str s) => copyString size s
  | _ => copyString size (str dflt)

/-- `duk_get_int`: the number without its fraction, within the bounds of an `int`. -/
def dukGetInt (q : ℚ) : Int :=
  match Double.round q with
  | .fin x => max (-2 ^ 31) (min (2 ^ 31 - 1) (x.num.tdiv x.den))
  | .inf neg => if neg then -2 ^ 31 else 2 ^ 31 - 1
  | _ => 0

/-- `get_int_field`. -/
def getIntField (j : Json) (field : String) (dflt : Int) : Int :=
  match fieldOf j (str field) with
  | some (.num q) => dukGetInt q
  | some (.bool b) => if b then 1 else 0
  | _ => dflt

/-- `get_double_field`. -/
def getDoubleField (j : Json) (field : String) (dflt : Double) : Double :=
  match fieldOf j (str field) with
  | some (.num q) => Double.round q
  | _ => dflt

/-! ## Metrics -/

/-- `MetricConfig`, with all its fields. -/
structure MetricEntry extends MetricConfig where
  paramName : Bytes := []
  title : Bytes := []
  yLabel : Bytes := []
  isPercentage : Int := 0
  valueMultiplier : Double := .fin 0
  transformDivisor : Double := .fin 0
  valueFormat : Bytes := []
  panelType : Bytes := []
deriving DecidableEq

/-- What `memset` leaves. -/
def MetricEntry.zeroed : MetricEntry := { endpoint := [] }

/-- `metric_source_from_string`. -/
def metricSourceFromString (s : Bytes) : MetricSource :=
  if s = str "proc" then .proc
  else if s = str "prometheus" then .prometheus
  else .rrd

/-- `parse_metric_config`. -/
def parseMetricConfig (j : Json) : MetricEntry where
  endpoint := setStringField j "endpoint" 128 ""
  rrdPath := setStringField j "rrd_path" 256 ""
  requiresParam := getIntField j "requires_param" 0 != 0
  paramName := setStringField j "param_name" 64 ""
  title := setStringField j "title" 128 "Metric"
  yLabel := setStringField j "y_label" 64 "Value"
  isPercentage := getIntField j "is_percentage" 0
  transformType := setStringField j "transform_type" 32 "none"
  valueMultiplier := getDoubleField j "value_multiplier" (.fin 1)
  transformDivisor := getDoubleField j "transform_divisor" (.fin 1)
  valueFormat := setStringField j "value_format" 32 "%.2f"
  panelType := setStringField j "panel_type" 16 "chart"
  source := metricSourceFromString (setStringField j "source" 32 "rrd")
  procMetric := setStringField j "proc_metric" 64 ""
  prometheusUrl := setStringField j "prometheus_url" 512 ""

/-- The validation of `load_config`: an endpoint, and for a database its path. -/
def MetricConfig.Valid (m : MetricConfig) : Prop :=
  m.endpoint ≠ [] ∧ (m.source = .rrd → m.rrdPath ≠ [])

instance (m : MetricConfig) : Decidable m.Valid := inferInstanceAs (Decidable (_ ∧ _))

/-- One slot of `config.metrics`; `none` is a slot that nothing is written to. -/
def loadMetric (j : Json) : Option MetricEntry :=
  if isObjectValue j then
    let m := parseMetricConfig j
    some (if m.Valid then m else .zeroed)
  else none

/-! ## The whole file -/

/-- `Config`, as `load_config` fills it. -/
structure LoadedConfig where
  tcpPort : Int := 8080
  protocol : Bytes := str "lsrp"
  allowedIps : Bytes := str "127.0.0.1"
  rrdcachedAddr : Bytes := str "unix:/var/run/rrdcached.sock"
  rrdBasePath : Bytes := str "/opt/collectd/var/lib/collectd/rrd/localhost"
  jsScriptPath : Bytes := str "/home/workerpool/svgd/scripts/generate_cpu_svg.js"
  threadPoolSize : Int := 4
  cacheTtlSeconds : Int := 5
  verbose : Int := 0
  theme : Bytes := str "light"
  metrics : List (Option MetricEntry) := []

/-- The section `server`. -/
def LoadedConfig.readServer (config : LoadedConfig) (root : Json) : LoadedConfig :=
  match fieldOf root (str "server") with
  | some j =>
      if isObjectValue j then
        { config with
          tcpPort := getIntField j "tcp_port" 8080
          protocol := setStringField j "protocol" 8 "lsrp"
          allowedIps := setStringField j "allowed_ips" 1024 "127.0.0.1"
          rrdcachedAddr := setStringField j "rrdcached_addr" 256 ""
          threadPoolSize := getIntField j "thread_pool_size" 4
          cacheTtlSeconds := getIntField j "cache_ttl_seconds" 5
          verbose := getIntField j "verbose" 0
          theme := setStringField j "theme" 16 "light" }
      else config
  | none => config

/-- The sections `rrd` and `js`. -/
def LoadedConfig.readPaths (config : LoadedConfig) (root : Json) : LoadedConfig :=
  let config := match fieldOf root (str "rrd") with
    | some j =>
        let path := setStringField j "base_path" 256 "/opt/collectd/var/lib/collectd/rrd/localhost"
        if isObjectValue j then { config with rrdBasePath := path } else config
    | none => config
  match fieldOf root (str "js") with
  | some j =>
      if isObjectValue j then { config with jsScriptPath := setStringField j "script_path" 256 "" }
      else config
  | none => config

/-- The array `metrics`. -/
def LoadedConfig.readMetrics (config : LoadedConfig) (root : Json) : LoadedConfig :=
  match fieldOf root (str "metrics") with
  | some (.arr items) => { config with metrics := items.map loadMetric }
  | _ => config

/-- `load_config` for a decoded file. -/
def loadRoot (root : Json) : LoadedConfig :=
  if isObjectValue root then
    ((LoadedConfig.readServer {} root).readPaths root).readMetrics root
  else {}

/-- `load_config`; `none` if the decoder throws. -/
def loadConfig (decode : Bytes → Option Json) (file : Option Bytes) : Option LoadedConfig :=
  match file with
  | none => some {}
  | some text => (decode (cstr text)).map loadRoot

/-- The slots that are written. The loops of the source go over all slots, so these are what they
see only if there are no others. -/
def LoadedConfig.entries (config : LoadedConfig) : List MetricEntry := config.metrics.filterMap id

/-- Every slot is written. -/
def LoadedConfig.Written (config : LoadedConfig) : Prop := ∀ slot ∈ config.metrics, slot.isSome = true

instance (config : LoadedConfig) : Decidable config.Written := List.decidableBAll _ config.metrics

/-- The part of the configuration that finding and fetching a metric reads. -/
def LoadedConfig.toConfig (config : LoadedConfig) : Config where
  rrdBasePath := config.rrdBasePath
  rrdcachedAddr := config.rrdcachedAddr
  metrics := config.entries.map MetricEntry.toMetricConfig

/-! ## Listing the metrics -/

/-- `json_escape`; an escape that does not fit is left out. -/
def cfgJsonEscape (destSize : Nat) : Bytes → Bytes → Bytes
  | [], dest => dest
  | c :: src, dest =>
      if destSize - 1 ≤ dest.length then dest
      else
        let escape (room : Nat) (e : Bytes) : Bytes :=
          if dest.length < destSize - room then dest ++ e else dest
        if c = ch '"' ∨ c = ch '\\' then cfgJsonEscape destSize src (escape 2 [ch '\\', c])
        else if c = ch '\n' then cfgJsonEscape destSize src (escape 2 (str "\\n"))
        else if c = ch '\r' then cfgJsonEscape destSize src (escape 2 (str "\\r"))
        else if c = ch '\t' then cfgJsonEscape destSize src (escape 2 (str "\\t"))
        else if c.toNat < 32 ∨ c.toNat = 127 then
          cfgJsonEscape destSize src (escape 7 (str "\\u" ++ hex4 c.toNat))
        else cfgJsonEscape destSize src (dest ++ [c])

/-- A string as it stands between the quotes. -/
def escaped (s : Bytes) : Bytes := cfgJsonEscape 512 s []

/-- The buffer `json` of `buffer_size` bytes, filled up to `offset`. -/
structure JsonBuffer where
  text : Bytes
  size : Nat

/-- One `snprintf` at `offset`. A piece that does not fit is cut, and the next one is written
behind the buffer, which is `none` here. -/
def JsonBuffer.append (b : JsonBuffer) (piece : Bytes) : Option JsonBuffer :=
  if b.text.length + piece.length < b.size then some { b with text := b.text ++ piece } else none

/-- `"true"` or `"false"`. -/
def boolText (b : Bool) : Bytes := if b then str "true" else str "false"

/-- What the loop appends for a metric, one piece for each `snprintf`. -/
def metricPieces (m : MetricEntry) : List Bytes :=
  [str "\x7b\"endpoint\":\"" ++ escaped m.endpoint ++ str "\",\"requires_param\":"
      ++ boolText m.requiresParam]
    ++ (if m.requiresParam then [str ",\"param_name\":\"" ++ escaped m.paramName ++ str "\""] else [])
    ++ [str ",\"title\":\"" ++ escaped m.title ++ str "\"",
      str ",\"y_label\":\"" ++ escaped m.yLabel ++ str "\",\"is_percentage\":"
        ++ boolText (m.isPercentage != 0),
      str ",\"panel_type\":\"" ++ escaped m.panelType ++ str "\"",
      str "\x7d"]

/-- The check behind a metric. -/
def JsonBuffer.grow (b : JsonBuffer) : JsonBuffer :=
  if b.size - 512 ≤ b.text.length then { b with size := b.size * 2 } else b

/-- The loop over the metrics. -/
def metricsLoop : List MetricEntry → Bool → JsonBuffer → Option JsonBuffer
  | [], _, b => some b
  | m :: ms, isFirst, b => do
      let b ← if isFirst then some b else b.append (str ",")
      let b ← (metricPieces m).foldlM JsonBuffer.append b
      metricsLoop ms false b.grow

/-- `generate_metrics_json`; `none` if it writes behind its buffer. -/
def generateMetricsJson (metrics : List MetricEntry) : Option Bytes := do
  let b : JsonBuffer := ⟨[], 1024 + metrics.length * 512⟩
  let b ← b.append (str "\x7b\"version\":\"1.0\",\"metrics\":[")
  let b ← metricsLoop metrics true b
  let b ← b.append (str "]\x7d")
  pure b.text

/-! ## What is listed -/

/-- A metric in the list. -/
def metricItem (m : MetricEntry) : Bytes := (metricPieces m).flatten

theorem append_eq_some {b b' : JsonBuffer} {piece : Bytes} (h : b.append piece = some b') :
    b'.text = b.text ++ piece := by
  unfold JsonBuffer.append at h
  split at h
  · rw [← Option.some.inj h]
  · cases h

theorem appendAll_eq_some {pieces : List Bytes} : ∀ {b b' : JsonBuffer},
    pieces.foldlM JsonBuffer.append b = some b' → b'.text = b.text ++ pieces.flatten := by
  induction pieces with
  | nil =>
      intro b b' h
      rw [← Option.some.inj h]
      simp
  | cons p pieces ih =>
      intro b b' h
      rw [List.foldlM_cons, Option.bind_eq_bind, Option.bind_eq_some_iff] at h
      obtain ⟨c, hc, h⟩ := h
      rw [ih h, append_eq_some hc, List.flatten_cons, List.append_assoc]

theorem commaJoin_cons (x : Bytes) (xs : List Bytes) :
    commaJoin (x :: xs) = x ++ xs.flatMap fun y => ch ',' :: y := by
  induction xs generalizing x with
  | nil => simp [commaJoin]
  | cons y xs ih => rw [commaJoin, ih, List.flatMap_cons, List.cons_append]

theorem metricsLoop_rest {ms : List MetricEntry} : ∀ {b b' : JsonBuffer},
    metricsLoop ms false b = some b' →
      b'.text = b.text ++ (ms.map metricItem).flatMap fun y => ch ',' :: y := by
  induction ms with
  | nil =>
      intro b b' h
      rw [← Option.some.inj h]
      simp
  | cons m ms ih =>
      intro b b' h
      unfold metricsLoop at h
      simp only [Bool.false_eq_true, if_false, Option.bind_eq_bind, Option.bind_eq_some_iff] at h
      obtain ⟨c, hc, d, hd, h⟩ := h
      have hgrow : d.grow.text = d.text := by
        unfold JsonBuffer.grow
        split <;> rfl
      rw [ih h, hgrow, appendAll_eq_some hd, append_eq_some hc, List.map_cons, List.flatMap_cons]
      simp [metricItem, str]

theorem metricsLoop_all {ms : List MetricEntry} {b b' : JsonBuffer}
    (h : metricsLoop ms true b = some b') : b'.text = b.text ++ commaJoin (ms.map metricItem) := by
  cases ms with
  | nil =>
      rw [← Option.some.inj h]
      simp [commaJoin]
  | cons m ms =>
      unfold metricsLoop at h
      simp only [if_true, Option.bind_eq_bind, Option.bind_eq_some_iff] at h
      obtain ⟨c, hc, d, hd, h⟩ := h
      obtain rfl := Option.some.inj hc
      have hgrow : d.grow.text = d.text := by
        unfold JsonBuffer.grow
        split <;> rfl
      rw [metricsLoop_rest h, hgrow, appendAll_eq_some hd, List.map_cons, commaJoin_cons,
        List.append_assoc]
      rfl

/-- **The list of metrics has one item for each entry.** -/
theorem generateMetricsJson_some {metrics : List MetricEntry} {text : Bytes}
    (h : generateMetricsJson metrics = some text) :
    text = str "\x7b\"version\":\"1.0\",\"metrics\":["
      ++ (commaJoin (metrics.map metricItem) ++ str "]\x7d") := by
  unfold generateMetricsJson at h
  simp only [Option.bind_eq_bind, Option.bind_eq_some_iff, Option.pure_def, Option.some.injEq] at h
  obtain ⟨b, hb, c, hc, d, hd, rfl⟩ := h
  rw [append_eq_some hd, metricsLoop_all hc, append_eq_some hb]
  simp

end Svgd.Backend
