import Svgd.Backend.Handler
import Svgd.Lib.LexPath

/-!
# Which files a metric request can read

The file is the base path, a slash, and the template of the metric, in which `%s` is
replaced by everything the client wrote behind the endpoint; the buffer cuts the whole
to 511 bytes. Nothing looks at `..` in what the client wrote.

A template that is not filled in never leaves the base path, because the buffer has
room for it. One that is filled in is safe under every base path exactly when the
filled text, cut at any of the places the buffer may cut it, never climbs above its
start.
-/

namespace Svgd.Backend

open Lib

/-- `rrd_base_path` is not empty and fits its field. -/
def Config.BasePathFits (config : Config) : Prop :=
  config.rrdBasePath ≠ [] ∧ config.rrdBasePath.length ≤ 255

/-- A template as the documentation allows it: it fits its field and has no `..` of its own. -/
structure MetricConfig.TemplateFits (m : MetricConfig) : Prop where
  no_dots : str ".." ∉ segments m.rrdPath
  length : m.rrdPath.length ≤ 255

/-- Wherever a buffer with a base path in front may cut it, the text never climbs. -/
def StaysCut (filled : Bytes) : Prop :=
  ∀ k, 255 ≤ k → k ≤ 509 → Stays 0 (segments (filled.take k))

/-- The parameter the client wrote keeps the filled template below the base path. -/
def MetricConfig.Confines (m : MetricConfig) (path : Bytes) : Prop :=
  m.requiresParam = true → ch '%' ∈ m.rrdPath →
    ∀ param, extractParamFromPath path m.endpoint = some param →
      StaysCut (formatTemplate m.rrdPath (some param))

/-! ## The file name -/

/-- The buffer keeps the base path and cuts what follows. -/
theorem snprintf_base {base text : Bytes} (h : base.length ≤ 255) :
    snprintf 512 (base ++ str "/" ++ text) = base ++ ch '/' :: text.take (510 - base.length) := by
  have hslash : str "/" = [ch '/'] := rfl
  have hroom : 512 - 1 - base.length = 510 - base.length + 1 := by omega
  unfold snprintf
  rw [List.append_assoc, List.take_append, List.take_of_length_le (by omega), hslash,
    List.singleton_append, hroom, List.take_succ_cons]

/-- What stands behind the base path: the template, filled in if there is something to fill. -/
def rrdFileText (m : MetricConfig) (param : Option Bytes) : Bytes :=
  match strchr m.rrdPath (ch '%'), param with
  | some _, some p => formatTemplate m.rrdPath (some p)
  | _, _ => m.rrdPath

theorem rrdPath_eq {config : Config} (hbase : config.BasePathFits) (r : Request) :
    r.rrdPath config = config.rrdBasePath ++ ch '/' ::
      (rrdFileText r.metric r.param).take (510 - config.rrdBasePath.length) := by
  unfold Request.rrdPath buildRrdPath rrdFileText
  cases strchr r.metric.rrdPath (ch '%') with
  | none => exact snprintf_base hbase.2
  | some t =>
      cases r.param with
      | none => exact snprintf_base hbase.2
      | some p => exact snprintf_base hbase.2

/-- A template that is not filled in stays. -/
theorem staysCut_template {m : MetricConfig} (hm : m.TemplateFits) : StaysCut m.rrdPath := by
  intro k hk _
  have hlen := hm.length
  rw [List.take_of_length_le (by omega)]
  exact stays_of_no_dots hm.no_dots 0

/-- The text behind the base path stays exactly when the parameter lets it. -/
theorem staysCut_iff {m : MetricConfig} (hm : m.TemplateFits) (path : Bytes) :
    StaysCut (rrdFileText m (if m.requiresParam then extractParamFromPath path m.endpoint else none))
      ↔ m.Confines path := by
  unfold rrdFileText MetricConfig.Confines
  cases hreq : m.requiresParam with
  | false =>
      rw [if_neg (by decide)]
      refine iff_of_true ?_ (fun h => absurd h (by decide))
      cases strchr m.rrdPath (ch '%') with
      | none => exact staysCut_template hm
      | some t => exact staysCut_template hm
  | true =>
      rw [if_pos rfl]
      cases hpercent : strchr m.rrdPath (ch '%') with
      | none =>
          rw [strchr_eq_none] at hpercent
          exact iff_of_true (staysCut_template hm) (fun _ h => absurd h hpercent)
      | some t =>
          have hmem : ch '%' ∈ m.rrdPath := by
            obtain ⟨p, t', htext, ht, -⟩ := strchr_some hpercent
            rw [htext, ht]
            simp
          cases hparam : extractParamFromPath path m.endpoint with
          | none =>
              refine iff_of_true (staysCut_template hm) ?_
              intro _ _ param h
              exact absurd h (by simp)
          | some p =>
              constructor
              · intro h _ _ param heq
                rw [← Option.some.inj heq]
                exact h
              · intro h
                exact h rfl hmem p rfl

/-! ## The exact condition -/

/-- A file behind a base path is inside it when its text stays, wherever it is cut. -/
theorem inside_rrdPath {config : Config} (hbase : config.BasePathFits) {r : Request}
    (h : StaysCut (rrdFileText r.metric r.param)) : Inside config.rrdBasePath (r.rrdPath config) := by
  have hpos := List.length_pos_iff.mpr hbase.1
  have hlen := hbase.2
  rw [rrdPath_eq hbase]
  refine inside_of_stays hbase.1 ?_
  rw [segments_slash, Stays, if_pos (Or.inl rfl)]
  exact h _ (by omega) (by omega)

/-- A text that does not stay leaves some base path. -/
theorem outside_rrdPath {r : Request} (h : ¬ StaysCut (rrdFileText r.metric r.param))
    (metrics : List MetricConfig) :
    ∃ base, Config.BasePathFits ⟨base, [], metrics⟩
      ∧ ¬ Inside base (r.rrdPath ⟨base, [], metrics⟩) := by
  unfold StaysCut at h
  push Not at h
  obtain ⟨k, hlo, hhi, hclimb⟩ := h
  -- a base path of this length makes the buffer cut there
  obtain ⟨base, hne, hlen, hout⟩ := exists_not_inside (n := 510 - k) (by omega) hclimb
  have hbase : Config.BasePathFits ⟨base, [], metrics⟩ := ⟨hne, by dsimp only; omega⟩
  refine ⟨base, hbase, ?_⟩
  rw [rrdPath_eq hbase]
  dsimp only
  rwa [hlen, show 510 - (510 - k) = k by omega]

/-- The lookup reads the metrics alone. -/
theorem findMetricConfig_metrics (config : Config) (path : Bytes) :
    findMetricConfig config path = findMetricConfig { metrics := config.metrics } path := rfl

/--
**Which endpoint paths are confined.**

For templates without `..`: whatever the base path, the file that is read lies inside it
exactly when the metric found for the path confines it, that is, when it takes no
parameter or the template filled with the parameter never climbs. The request is the one
`handler_process` makes, and the one a Grafana target makes; and what is fetched for it
depends on no other file.
-/
theorem rrd_confined_iff (metrics : List MetricConfig) (hfits : ∀ m ∈ metrics, m.TemplateFits)
    (path : Bytes) (period : Int) :
    ((∀ (config : Config) (r : Request), config.metrics = metrics → config.BasePathFits →
        pathRequest config path period = some r → r.metric.source = .rrd →
        Inside config.rrdBasePath (r.rrdPath config))
      ↔ ∀ m : MetricConfig, findMetricConfig { metrics := metrics } path = some m →
        m.source = .rrd → m.Confines path)
    ∧ (∀ (config : ServerConfig) (r : Request), handlerRoute config path period = .fetch r →
        pathRequest config.toConfig path period = some r)
    ∧ ∀ (config : Config) (r : Request) (w w' : RrdWorld) (now : Int),
        w.AgreeOn w' (r.rrdPath config) → r.fetch config w now = r.fetch config w' now := by
  refine ⟨⟨?_, ?_⟩, fun config r => handlerRoute_fetch,
    fun config r w w' now h => rrdFetchData_agree h _ _ _ _⟩
  · intro hall m hfind hsrc
    have hm : m.TemplateFits := hfits m (findMetricConfig_mem hfind)
    rw [← staysCut_iff hm]
    by_contra hclimb
    obtain ⟨base, hbase, hout⟩ := outside_rrdPath (r := ⟨m, if m.requiresParam then
      extractParamFromPath path m.endpoint else none, period⟩) hclimb metrics
    refine hout (hall ⟨base, [], metrics⟩ _ rfl hbase ?_ hsrc)
    unfold pathRequest
    rw [findMetricConfig_metrics, hfind, Option.map_some]
  · intro hconf config r hmetrics hbase hreq hsrc
    unfold pathRequest at hreq
    obtain ⟨m, hfind, hr⟩ := Option.map_eq_some_iff.mp hreq
    rw [findMetricConfig_metrics, hmetrics] at hfind
    have hm : m.TemplateFits := hfits m (findMetricConfig_mem hfind)
    rw [← hr] at hsrc ⊢
    exact inside_rrdPath hbase ((staysCut_iff hm path).mpr (hconf m hfind hsrc))

/-- The metric of the documentation. -/
def sampleProcessMetric : MetricConfig :=
  { endpoint := str "ram/process", rrdPath := str "processes-%s/ps_rss.rrd", requiresParam := true }

/-- The request of the documentation is confined. -/
theorem rrd_confined_postgres :
    let config : Config := { rrdBasePath := str "/var/rrd", metrics := [sampleProcessMetric] }
    let r : Request := ⟨sampleProcessMetric, some (str "postgres"), 3600⟩
    pathRequest config (str "ram/process/postgres") 3600 = some r
      ∧ Inside config.rrdBasePath (r.rrdPath config) := by
  intro config r
  have hreq : pathRequest config (str "ram/process/postgres") 3600 = some r := by decide +kernel
  have hfits : ∀ m ∈ [sampleProcessMetric], m.TemplateFits := by
    intro m hm
    rw [List.mem_singleton] at hm
    rw [hm]
    exact ⟨by decide, by decide⟩
  refine ⟨hreq, (rrd_confined_iff [sampleProcessMetric] hfits (str "ram/process/postgres")
    3600).1.mpr ?_ config r rfl ⟨by decide, by decide⟩ hreq rfl⟩
  intro m hfind _ _ _ param hparam k hk _
  have hm : findMetricConfig { metrics := [sampleProcessMetric] } (str "ram/process/postgres")
      = some sampleProcessMetric := by decide +kernel
  rw [← Option.some.inj (hm.symm.trans hfind)] at hparam ⊢
  have hpostgres : extractParamFromPath (str "ram/process/postgres") sampleProcessMetric.endpoint
      = some (str "postgres") := by decide +kernel
  rw [← Option.some.inj (hpostgres.symm.trans hparam)]
  have hshort : (formatTemplate sampleProcessMetric.rrdPath (some (str "postgres"))).length ≤ 255 := by
    decide +kernel
  rw [List.take_of_length_le (by omega)]
  decide +kernel

/-- A parameter with `..` in it reads a file outside the base path. -/
theorem rrd_escape_etc :
    let config : ServerConfig := { rrdBasePath := str "/var/rrd", metrics := [sampleProcessMetric] }
    let r : Request := ⟨sampleProcessMetric, some (str "a/../../etc"), 3600⟩
    handlerRoute config (str "ram/process/a/../../etc") 3600 = .fetch r
      ∧ r.rrdPath config.toConfig = str "/var/rrd/processes-a/../../etc/ps_rss.rrd"
      ∧ resolve (r.rrdPath config.toConfig) = resolve (str "/var/etc/ps_rss.rrd")
      ∧ ¬ Inside config.rrdBasePath (r.rrdPath config.toConfig) := by
  decide +kernel

end Svgd.Backend
