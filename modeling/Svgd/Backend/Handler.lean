import Svgd.Backend.Grafana
import Svgd.Backend.MetricSource

/-!
# Handling a request

`handler_process` of `src/handler.c`: the size and theme of the chart, the special
endpoints, and the way of every other endpoint through the configuration and the
metric sources to the renderer. `generate_metrics_json` and `generate_svg` are
parameters, and allocations are taken to succeed.
-/

namespace Svgd.Backend

open Lib Stacked

/-- `Config`, with the fields that only the handler reads. -/
structure ServerConfig extends Config where
  theme : Bytes := []
  /-- `param_name` of a metric, which only an error text mentions. -/
  paramName : MetricConfig → Bytes := fun _ => []

/-- The arguments of `handler_process`, besides the configuration and `use_cache`. -/
structure HandlerArgs where
  endpoint : Bytes
  query : Option Bytes
  period : Int
  width : Int
  height : Int
deriving DecidableEq, Repr

/-! ## Size and theme -/

/-- A size in the query, if it is a positive number from end to end; otherwise the one that
was passed. -/
def querySize (value : Option Bytes) (passed : Int) : Int :=
  match value with
  | none => passed
  | some s =>
      let r := strtol s
      if r.2 = [] ∧ 0 < r.1 then toInt32 r.1 else passed

/-- Defaults and bounds of a size. -/
def boundSize (dflt lo hi size : Int) : Int :=
  let size := if size ≤ 0 then dflt else size
  let size := if size < lo then lo else size
  if hi < size then hi else size

/-- A parameter of a query that may be missing. -/
def queryParam (query : Option Bytes) (key : Bytes) : Option Bytes :=
  query.bind fun q => handlerGetParam q key

/-- `svg_width`. -/
def svgWidth (args : HandlerArgs) : Int :=
  boundSize 800 200 1600 (querySize (queryParam args.query (str "width")) args.width)

/-- `svg_height`. -/
def svgHeight (args : HandlerArgs) : Int :=
  boundSize 450 120 800 (querySize (queryParam args.query (str "height")) args.height)

/-- `theme`: from the query, from the configuration, or `light`. -/
def renderTheme (config : ServerConfig) (args : HandlerArgs) : Bytes :=
  let configured := if config.theme = [] then str "light" else config.theme
  match queryParam args.query (str "theme") with
  | some theme => if theme = [] then configured else theme
  | none => configured

/-- What `handler_process` works with. -/
structure RenderJob where
  endpoint : Bytes
  period : Int
  width : Int
  height : Int
  theme : Bytes
deriving DecidableEq, Repr

/-- The job the arguments describe. -/
def renderJob (config : ServerConfig) (args : HandlerArgs) : RenderJob where
  endpoint := args.endpoint
  period := args.period
  width := svgWidth args
  height := svgHeight args
  theme := renderTheme config args

/-! ## Where a request goes -/

/-- The three special endpoints, an error, or a fetch. -/
inductive Route where
  | metricsConfig
  | grafanaSearch
  | grafanaQuery
  | refused (message : Bytes)
  | fetch (r : Request)
deriving DecidableEq

/-- The dispatch of `handler_process` on its endpoint. -/
def handlerRoute (config : ServerConfig) (endpoint : Bytes) (period : Int) : Route :=
  if endpoint = str "_config/metrics" then .metricsConfig
  else if endpoint = str "_grafana/search" then .grafanaSearch
  else if endpoint = str "_grafana/query" then .grafanaQuery
  else
    match findMetricConfig config.toConfig endpoint with
    | none => .refused (snprintf 256 (str "Unknown endpoint: " ++ endpoint))
    | some m =>
        if m.requiresParam then
          match extractParamFromPath endpoint m.endpoint with
          | none => .refused (snprintf 256 (str "Endpoint '" ++ m.endpoint
              ++ str "' requires parameter '" ++ config.paramName m ++ str "'"))
          | some param => .fetch ⟨m, some param, period⟩
        else .fetch ⟨m, none, period⟩

/-- What the handler asks of its surroundings. -/
structure HandlerEnv where
  config : ServerConfig
  /-- `generate_metrics_json`. -/
  metricsJson : Option Bytes
  /-- The surroundings of the Grafana endpoints, for the same configuration. -/
  grafana : GrafanaEnv
  grafana_config : grafana.config = config.toConfig
  times : CallTimes
  backends : Backends
  /-- `generate_svg` on the data, with a width, a height and a theme. -/
  generateSvg : MetricData → Int → Int → Bytes → Option Bytes

/-- The part of `handler_process` behind the fetch. -/
def renderResult (env : HandlerEnv) (job : RenderJob) (metric : MetricConfig) :
    Option MetricData → HandlerResult
  | none => errorResult (str "Failed to fetch metric data")
  | some data =>
      -- what the cache returns may carry the configuration of another metric
      match env.generateSvg { data with metricConfig := metric } job.width job.height job.theme with
      | none => errorResult (str "Failed to generate SVG")
      | some svg => ⟨svg, false, 0⟩

/-- `handler_process`, with the cache it finds and leaves. -/
def handlerProcess (env : HandlerEnv) (args : HandlerArgs) (useCache : Bool) (cache : Cache) :
    Duk (HandlerResult × Cache) :=
  let job := renderJob env.config args
  match handlerRoute env.config job.endpoint job.period with
  | .metricsConfig =>
      match env.metricsJson with
      | none => pure (errorResult (str "Failed to generate metrics config"), cache)
      | some json => pure (⟨json, true, 0⟩, cache)
  | .grafanaSearch => pure (grafanaSearch env.config.toConfig, cache)
  | .grafanaQuery => do
      let r ← grafanaQuery env.grafana args.query
      pure (r, cache)
  | .refused message => pure (errorResult message, cache)
  | .fetch r =>
      let o := metricSourceFetch env.config.toConfig r useCache env.times env.backends cache
      pure (renderResult env job r.metric o.data, o.cache)

/-- The handler reads its arguments through the job, and the query through its `body`. -/
theorem handlerProcess_congr {env : HandlerEnv} {a b : HandlerArgs} {qa qb : Bytes}
    (hjob : renderJob env.config a = renderJob env.config b)
    (ha : a.query = some qa) (hb : b.query = some qb)
    (hbody : handlerGetParam qa (str "body") = handlerGetParam qb (str "body"))
    (useCache : Bool) (cache : Cache) :
    handlerProcess env a useCache cache = handlerProcess env b useCache cache := by
  have hquery : grafanaQuery env.grafana a.query = grafanaQuery env.grafana b.query := by
    unfold grafanaQuery readQuery
    rw [ha, hb]
    dsimp only
    rw [hbody]
  unfold handlerProcess
  rw [hjob, hquery]

/-! ## Requests for a path -/

/-- The request an endpoint path leads to, by `handler_process` or as a Grafana target. -/
def pathRequest (config : Config) (path : Bytes) (period : Int) : Option Request :=
  (findMetricConfig config path).map fun m =>
    ⟨m, if m.requiresParam then extractParamFromPath path m.endpoint else none, period⟩

theorem handlerRoute_fetch {config : ServerConfig} {endpoint : Bytes} {period : Int} {r : Request}
    (h : handlerRoute config endpoint period = .fetch r) :
    pathRequest config.toConfig endpoint period = some r := by
  unfold handlerRoute at h
  split at h
  · exact absurd h (by simp)
  split at h
  · exact absurd h (by simp)
  split at h
  · exact absurd h (by simp)
  split at h
  · exact absurd h (by simp)
  rename_i m hm
  unfold pathRequest
  rw [hm, Option.map_some]
  split at h
  · rename_i hreq
    rw [if_pos hreq]
    split at h
    · exact absurd h (by simp)
    · rename_i param hparam
      injection h with h
      rw [hparam, h]
  · rename_i hreq
    injection h with h
    rw [if_neg hreq, h]

/-- A Grafana target is fetched through the same request. -/
theorem targetData_eq (env : GrafanaEnv) (period : Int) (i : Nat) (target : Bytes) :
    targetData env period i target
      = (pathRequest env.config target (toInt32 period)).bind fun r =>
        env.fetch i r.metric r.param r.period := by
  unfold targetData pathRequest
  cases findMetricConfig env.config target with
  | none => rfl
  | some m => rfl

/-- A metric that is found is configured. -/
theorem longestPrefix_mem {path : Bytes} {m : MetricConfig} :
    ∀ {ms : List MetricConfig} {best : Option MetricConfig} {len : Nat},
    longestPrefix path ms best len = some m → m ∈ ms ∨ best = some m
  | [], _, _, h => Or.inr h
  | m' :: ms, best, len, h => by
      unfold longestPrefix at h
      split at h
      · rcases longestPrefix_mem h with hmem | hbest
        · exact Or.inl (List.mem_cons_of_mem _ hmem)
        · injection hbest with hbest
          exact Or.inl (hbest ▸ List.mem_cons_self)
      · rcases longestPrefix_mem h with hmem | hbest
        · exact Or.inl (List.mem_cons_of_mem _ hmem)
        · exact Or.inr hbest

theorem findMetricConfig_mem {config : Config} {path : Bytes} {m : MetricConfig}
    (h : findMetricConfig config path = some m) : m ∈ config.metrics := by
  unfold findMetricConfig at h
  split at h
  · rename_i m' hfind
    injection h with h
    exact h ▸ List.mem_of_find?_eq_some hfind
  · rcases longestPrefix_mem h with hmem | hnone
    · exact hmem
    · exact absurd hnone (by simp)

end Svgd.Backend
