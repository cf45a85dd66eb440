import Svgd.Lib.CString
import Svgd.Lib.Double

/-!
# Configuration and metric data of the backend

The records of `include/cfg.h` and `include/rrd/reader.h`, the lookup of a metric by
its endpoint path (`cfg.c`), and the two path helpers of `path_util.c`. A field of a
C array is the string in it.
-/

namespace Svgd.Backend

open Lib

/-- `metric_source_t`. -/
inductive MetricSource where
  | rrd
  | proc
  | prometheus
deriving DecidableEq, Repr

/-- `MetricConfig`, as far as finding and fetching a metric reads it. -/
structure MetricConfig where
  endpoint : Bytes
  /-- The path template, which may contain `%s` for the parameter. -/
  rrdPath : Bytes := []
  requiresParam : Bool := false
  source : MetricSource := .rrd
  procMetric : Bytes := []
  prometheusUrl : Bytes := []
  transformType : Bytes := []
deriving DecidableEq, Repr

/-- `Config`, as far as finding and fetching a metric reads it. -/
structure Config where
  rrdBasePath : Bytes := []
  rrdcachedAddr : Bytes := []
  metrics : List MetricConfig := []
deriving DecidableEq, Repr

/-- `DataPoint`. -/
structure DataPoint where
  timestamp : Int
  value : Double
deriving DecidableEq

/-- One series of a `MetricData`: its name, which may be `NULL`, and its points. -/
structure Series where
  name : Option Bytes
  points : List DataPoint
deriving DecidableEq

/-- `MetricData`. -/
structure MetricData where
  series : List Series
  param1 : Option Bytes
  metricConfig : MetricConfig
deriving DecidableEq

/-! ## Finding a metric -/

/-- The second pass of `find_metric_config`: the longest endpoint so far that the path
continues with a slash. -/
def longestPrefix (path : Bytes) : List MetricConfig → Option MetricConfig → Nat →
    Option MetricConfig
  | [], best, _ => best
  | m :: ms, best, bestLen =>
      if m.requiresParam && startsWith path m.endpoint
          && startsWith (path.drop m.endpoint.length) (str "/")
          -- strictly longer: of two equally long endpoints the first one stays
          && decide (bestLen < m.endpoint.length) then
        longestPrefix path ms (some m) m.endpoint.length
      else longestPrefix path ms best bestLen

/-- `find_metric_config`. -/
def findMetricConfig (config : Config) (path : Bytes) : Option MetricConfig :=
  match config.metrics.find? (·.endpoint == path) with
  | some m => some m
  | none => longestPrefix path config.metrics none 0

/-! ## Paths -/

/-- `extract_param_from_path`. -/
def extractParamFromPath (path endpoint : Bytes) : Option Bytes :=
  if startsWith path endpoint then
    let rest := path.drop endpoint.length
    let param := if startsWith rest (str "/") then rest.drop 1 else rest
    if param = [] then none else some param
  else none

/--
A template filled in by `printf` with one string argument: `%s` takes the argument
and `%%` is a percent sign. Any other directive, and a second `%s`, has no defined
meaning there; they are kept as text.
-/
def formatTemplate : Bytes → Option Bytes → Bytes
  | [], _ => []
  | [b], _ => [b]
  | b :: c :: s, arg =>
      if b = ch '%' ∧ c = ch '%' then ch '%' :: formatTemplate s arg
      else if b = ch '%' ∧ c = ch 's' then
        match arg with
        | some a => a ++ formatTemplate s none
        | none => b :: formatTemplate (c :: s) none
      else b :: formatTemplate (c :: s) arg

/-- `build_rrd_path` with the 512-byte buffer of its caller. -/
def buildRrdPath (basePath template : Bytes) (param : Option Bytes) : Bytes :=
  match strchr template (ch '%'), param with
  | some _, some p => snprintf 512 (basePath ++ str "/" ++ formatTemplate template (some p))
  | _, _ => snprintf 512 (basePath ++ str "/" ++ template)

example : buildRrdPath (str "/var/rrd") (str "cpu-%s/cpu.rrd") (some (str "0"))
    = str "/var/rrd/cpu-0/cpu.rrd" := by
  decide +kernel

end Svgd.Backend
