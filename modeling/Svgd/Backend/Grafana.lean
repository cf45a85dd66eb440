import Svgd.Backend.Config
import Svgd.Backend.Duktape
import Svgd.Backend.Params

/-!
# The Grafana endpoints

`grafana_search` and `grafana_query` of `handler.c`. The query handler reads its body
on the thread's Duktape stack, collects the requested targets, and then assembles the
answer by hand. Allocations are taken to succeed, and the growable buffer is a byte
list.

What the sources deliver is a parameter: `fetch i m param period` is the answer to the
call made for target number `i` of the request.
-/

namespace Svgd.Backend

open Lib Stacked

/-- `handler_result_t`. -/
structure HandlerResult where
  data : Bytes
  isJson : Bool
  status : Int
deriving DecidableEq, Repr

/-- `create_error_result`. -/
def errorResult (message : Bytes) : HandlerResult := ⟨message, false, 1⟩

/-- What the handler asks of its surroundings. -/
structure GrafanaEnv where
  config : Config
  /-- `svg_get_context` returned a context. -/
  hasContext : Bool := true
  /-- `duk_json_decode`; `none` when it throws. -/
  jsonDecode : Bytes → Option Json
  /-- `metric_source_fetch` without the cache, for target number `i`. -/
  fetch : Nat → MetricConfig → Option Bytes → Int → Option MetricData

/-! ## Timestamps -/

/-- `parse_iso8601`, with the unsigned arithmetic of the source. -/
def parseIso8601 (s : Bytes) : Int :=
  match scanFields [ch '-', ch '-', ch 'T', ch ':', ch ':'] s with
  | y :: mo :: d :: h :: mi :: rest =>
      let y := if mo ≤ 2 then y - 1 else y
      let era := (if 0 ≤ y then y else y - 399).tdiv 400
      let yoe := toUInt32 (y - era * 400)
      let mp := if 2 < mo then toUInt32 (mo - 3) else toUInt32 (mo + 9)
      let doy := toUInt32 (toUInt32 (153 * mp + 2) / 5 + d - 1)
      let doe := toUInt32 (yoe * 365 + yoe / 4 - yoe / 100 + doy)
      let days := era * 146097 + doe - 719468
      days * 86400 + h * 3600 + mi * 60 + rest.headD 0
  | _ => 0

example : parseIso8601 (str "2026-08-02T00:00:00.000Z") = 1785628800 := by decide +kernel

/-! ## Search -/

/-- The endpoints, quoted and separated. -/
def searchItems : List MetricConfig → Bool → Bytes
  | [], _ => []
  | m :: ms, isFirst =>
      (if isFirst then [] else str ",") ++ str "\"" ++ m.endpoint ++ str "\"" ++ searchItems ms false

/-- `grafana_search`. -/
def grafanaSearch (config : Config) : HandlerResult :=
  ⟨str "[" ++ searchItems config.metrics true ++ str "]", true, 0⟩

/-! ## Reading a query -/

/-- The timestamp of a member of `range`; zero when it is no string. -/
def rangeTime (key : Bytes) : Duk Int := do
  let _ ← Duk.getPropString key
  let s ← Duk.getString
  pop
  pure ((s.map parseIso8601).getD 0)

/-- `from` and `to` of the value on top of the stack, if it is an object. -/
def rangeTimes : Duk (Int × Int) := do
  if ← Duk.isObject then
    let start ← rangeTime (str "from")
    let stop ← rangeTime (str "to")
    pure (start, stop)
  else pure (0, 0)

/-- `range.from` and `range.to`, with the query on top of the stack. -/
def readRange : Duk (Int × Int) := do
  -- nothing has checked that the query is an object
  let _ ← Duk.getPropString (str "range")
  let times ← rangeTimes
  pop
  pure times

/-- The period of a query, in seconds. -/
def queryPeriod (times : Int × Int) : Int :=
  let period := if times.1 < times.2 then times.2 - times.1 else 3600
  -- never taken, but the source asks again
  if period ≤ 0 then 3600 else period

/-- The `target` of the element on top of the stack, behind the targets before it; its value
stays on the stack. -/
def addTarget (targets : List Bytes) : Duk (List Bytes) := do
  if ← Duk.getPropString (str "target") then
    match ← Duk.getString with
    | some t => pure (if t = [] then targets else targets ++ [t])
    | none => pure targets
  else pure targets

/-- The element at index `i` of the array on top of the stack. -/
def readTarget (i : Nat) (targets : List Bytes) : Duk (List Bytes) := do
  if ← Duk.getPropIndex i then
    -- nothing has checked that the element is an object
    let targets ← addTarget targets
    Duk.pop2
    pure targets
  else
    pop
    pure targets

/-- The loop over the indices of `targets`. -/
def readTargetsFrom : List Nat → List Bytes → Duk (List Bytes)
  | [], targets => pure targets
  | i :: is, targets => do
      let targets ← readTarget i targets
      readTargetsFrom is targets

/-- The targets of the value on top of the stack, if it is an array. -/
def arrayTargets : Duk (List Bytes) := do
  match ← Duk.arrayLength with
  | some n => readTargetsFrom (List.range n) []
  | none => pure []

/-- The requested targets, with the query on top of the stack. -/
def readTargets : Duk (List Bytes) := do
  if ← Duk.getPropString (str "targets") then
    let targets ← arrayTargets
    pop
    pure targets
  else
    pop
    pure []

/-- The decoded query on top of the stack: its targets and its period. -/
def readDecoded : Duk (List Bytes × Int) := do
  let times ← readRange
  let targets ← readTargets
  pop
  pure (targets, queryPeriod times)

/-- The body of a query, decoded and read. -/
def readBody (env : GrafanaEnv) (body : Bytes) :
    Duk (Except HandlerResult (List Bytes × Int)) := do
  Duk.pushString body
  if ← Duk.safeJsonDecode env.jsonDecode then
    let q ← readDecoded
    pure (.ok q)
  else
    pop
    pure (.error (errorResult (str "Invalid JSON body")))

/-- The first half of `grafana_query`: the targets and the period, or the error it answers. -/
def readQuery (env : GrafanaEnv) (query : Option Bytes) :
    Duk (Except HandlerResult (List Bytes × Int)) :=
  match query with
  | none => pure (.error (errorResult (str "Missing query")))
  | some query =>
      match handlerGetParam query (str "body") with
      | none => pure (.error (errorResult (str "Missing body")))
      | some enc =>
          if env.hasContext then readBody env (cstr (urlDecode enc))
          else pure (.error (errorResult (str "JS context unavailable")))

/-! ## Answering a query -/

/-- One point: `[%g,%lld],`. -/
def pointText (p : DataPoint) : Bytes :=
  str "[" ++ formatG p.value ++ str "," ++ printInt (p.timestamp * 1000) ++ str "],"

/-- Drop a trailing comma. -/
def trimComma (out : Bytes) : Bytes :=
  if out.getLast? = some (ch ',') then out.dropLast else out

/-- The points of a series behind `out`. -/
def appendPoints (out : Bytes) : List DataPoint → Bytes
  | [] => out
  | p :: ps => appendPoints (out ++ pointText p) ps

/-- The answer under construction: the text so far and `has_any`. -/
structure Answer where
  out : Bytes
  hasAny : Bool
deriving DecidableEq

/-- One series; an empty one is skipped, one without a name takes the name of the target. -/
def appendSeries (target : Bytes) (a : Answer) (s : Series) : Answer :=
  if s.points = [] then a
  else
    let head := a.out ++ (if a.hasAny then str "," else []) ++ str "\x7b\"target\":\""
      ++ s.name.getD target ++ str "\",\"datapoints\":["
    ⟨trimComma (appendPoints head s.points) ++ str "]\x7d", true⟩

/-- The data for target number `i`, if there is any. -/
def targetData (env : GrafanaEnv) (period : Int) (i : Nat) (target : Bytes) :
    Option MetricData :=
  match findMetricConfig env.config target with
  | none => none
  | some m =>
      let param := if m.requiresParam then extractParamFromPath target m.endpoint else none
      env.fetch i m param (toInt32 period)

/-- The loop over the targets, from target number `i` on. -/
def appendTargets (env : GrafanaEnv) (period : Int) : Nat → List Bytes → Answer → Answer
  | _, [], a => a
  | i, t :: ts, a =>
      match targetData env period i t with
      | none => appendTargets env period (i + 1) ts a
      | some data => appendTargets env period (i + 1) ts (data.series.foldl (appendSeries t) a)

/-- The second half of `grafana_query`. -/
def queryResult (env : GrafanaEnv) (targets : List Bytes) (period : Int) : HandlerResult :=
  ⟨(appendTargets env period 0 targets ⟨str "[", false⟩).out ++ str "]", true, 0⟩

/-- `grafana_query`. -/
def grafanaQuery (env : GrafanaEnv) (query : Option Bytes) : Duk HandlerResult := do
  match ← readQuery env query with
  | .error r => pure r
  | .ok (targets, period) => pure (queryResult env targets period)

end Svgd.Backend
