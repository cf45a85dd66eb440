import Svgd.Backend.LoadConfig
import Svgd.Backend.Handler
import Svgd.Proof.GrafanaJson

/-!
# Metrics that are skipped

An entry without its required fields is reported as skipped, but its slot stays in the
array, zeroed. Its endpoint is empty, so the empty path resolves to it, and both lists
contain it.
-/

namespace Svgd.Backend

open Lib

/-- A listed endpoint is not empty and resolves to a valid metric. -/
def Resolves (config : Config) (endpoint : Bytes) : Prop :=
  endpoint ≠ [] ∧ ∃ m, findMetricConfig config endpoint = some m ∧ m.Valid

/-- No entry that failed the validation is found or listed. -/
structure SkippedInvisible (c : LoadedConfig) : Prop where
  find : ∀ path m, findMetricConfig c.toConfig path = some m → m.Valid
  /-- The list of metrics is a list of valid entries. -/
  json : ∀ text, generateMetricsJson c.entries = some text → ∃ ms : List MetricEntry,
    text = str "\x7b\"version\":\"1.0\",\"metrics\":["
        ++ (commaJoin (ms.map metricItem) ++ str "]\x7d")
      ∧ ∀ m ∈ ms, m.Valid ∧ Resolves c.toConfig m.endpoint
  /-- So is the list of endpoints. -/
  search : ∃ endpoints : List Bytes,
    (grafanaSearch c.toConfig).data
        = str "[" ++ (commaJoin (endpoints.map quoted) ++ str "]")
      ∧ ∀ e ∈ endpoints, Resolves c.toConfig e

variable {c : LoadedConfig}

theorem mem_toConfig {m : MetricConfig} :
    m ∈ c.toConfig.metrics ↔ ∃ e ∈ c.entries, e.toMetricConfig = m := List.mem_map

/-- An endpoint in the array is found, at its first place. -/
theorem find_endpoint {config : Config} {m : MetricConfig} (h : m ∈ config.metrics) :
    ∃ m' ∈ config.metrics, findMetricConfig config m.endpoint = some m' := by
  have hsome : (config.metrics.find? (·.endpoint == m.endpoint)).isSome := by
    rw [List.find?_isSome]
    exact ⟨m, h, by simp⟩
  obtain ⟨m', hm'⟩ := Option.isSome_iff_exists.mp hsome
  refine ⟨m', List.mem_of_find?_eq_some hm', ?_⟩
  unfold findMetricConfig
  rw [hm']

/-- Without a zeroed slot nothing invalid is seen. -/
theorem invisible_of_valid (hvalid : ∀ e ∈ c.entries, e.Valid) : SkippedInvisible c := by
  have hall : ∀ m ∈ c.toConfig.metrics, m.Valid := by
    intro m hm
    obtain ⟨e, he, rfl⟩ := mem_toConfig.mp hm
    exact hvalid e he
  have hresolves : ∀ m ∈ c.toConfig.metrics, Resolves c.toConfig m.endpoint := by
    intro m hm
    obtain ⟨m', hm', hfind⟩ := find_endpoint hm
    exact ⟨(hall m hm).1, m', hfind, hall m' hm'⟩
  constructor
  · exact fun path m h => hall m (findMetricConfig_mem h)
  · intro text htext
    refine ⟨c.entries, generateMetricsJson_some htext, fun m hm => ?_⟩
    exact ⟨hvalid m hm, hresolves _ (mem_toConfig.mpr ⟨m, hm, rfl⟩)⟩
  · refine ⟨c.toConfig.metrics.map (·.endpoint), ?_, ?_⟩
    · show str "[" ++ searchItems c.toConfig.metrics true ++ str "]" = _
      rw [(searchItems_eq _).1, List.map_map, List.append_assoc]
      rfl
    · intro e he
      obtain ⟨m, hm, rfl⟩ := List.mem_map.mp he
      exact hresolves m hm

/-- A zeroed slot is found under the empty path. -/
theorem find_zeroed (h : MetricEntry.zeroed ∈ c.entries) :
    ∃ m, findMetricConfig c.toConfig [] = some m ∧ ¬m.Valid := by
  have hmem : MetricEntry.zeroed.toMetricConfig ∈ c.toConfig.metrics :=
    mem_toConfig.mpr ⟨_, h, rfl⟩
  have hsome : (c.toConfig.metrics.find? (·.endpoint == [])).isSome := by
    rw [List.find?_isSome]
    exact ⟨_, hmem, by decide⟩
  obtain ⟨m, hm⟩ := Option.isSome_iff_exists.mp hsome
  refine ⟨m, ?_, fun hvalid => ?_⟩
  · unfold findMetricConfig
    rw [hm]
  · have hempty := List.find?_some hm
    exact hvalid.1 (by simpa using hempty)

/-- The configuration of a file that decodes to an object. -/
theorem loadConfig_root {decode : Bytes → Option Json} {text : Bytes} {root : Json}
    (hroot : decode (cstr text) = some root) (hload : loadConfig decode (some text) = some c) :
    loadRoot root = c := by
  unfold loadConfig at hload
  dsimp only at hload
  rw [hroot] at hload
  exact Option.some.inj hload

/-- The array has a slot for each element. -/
theorem metrics_loadRoot {members : List (Bytes × Json)} {items : List Json}
    (hmetrics : Json.member members (str "metrics") = some (.arr items)) :
    (loadRoot (.obj members)).metrics = items.map loadMetric := by
  have hfield : fieldOf (.obj members) (str "metrics") = some (.arr items) := hmetrics
  have hobject : isObjectValue (.obj members) = true := rfl
  unfold loadRoot LoadedConfig.readMetrics
  rw [hobject, hfield]
  rfl

/-- Every slot is written exactly if every element is an object. -/
theorem written_loadRoot {members : List (Bytes × Json)} {items : List Json}
    (hmetrics : Json.member members (str "metrics") = some (.arr items)) :
    (loadRoot (.obj members)).Written ↔ ∀ j ∈ items, isObjectValue j = true := by
  have hslot : ∀ j, (loadMetric j).isSome = isObjectValue j := by
    intro j
    unfold loadMetric
    cases isObjectValue j <;> rfl
  unfold LoadedConfig.Written
  rw [metrics_loadRoot hmetrics, List.forall_mem_map]
  simp only [hslot]

/-- What is in the slots of an array of objects. -/
theorem entries_loadRoot {members : List (Bytes × Json)} {items : List Json}
    (hmetrics : Json.member members (str "metrics") = some (.arr items))
    (hobj : ∀ j ∈ items, isObjectValue j = true) :
    (loadRoot (.obj members)).entries
      = items.map fun j => if (parseMetricConfig j).Valid then parseMetricConfig j else .zeroed := by
  unfold LoadedConfig.entries
  rw [metrics_loadRoot hmetrics, List.filterMap_map, ← List.filterMap_eq_map]
  apply List.filterMap_congr
  intro j hj
  simp only [Function.comp_apply, id_eq, loadMetric, hobj j hj, if_true]

/-- **Skipped metrics are invisible exactly if there are none.** -/
theorem skipped_invisible_iff {decode : Bytes → Option Json} {text : Bytes}
    {members : List (Bytes × Json)} {items : List Json}
    (hroot : decode (cstr text) = some (.obj members))
    (hload : loadConfig decode (some text) = some c)
    (hmetrics : Json.member members (str "metrics") = some (.arr items))
    (hobj : ∀ j ∈ items, isObjectValue j = true) :
    SkippedInvisible c ↔ ∀ j ∈ items, (parseMetricConfig j).Valid := by
  have hc : loadRoot (.obj members) = c := loadConfig_root hroot hload
  have hentries := entries_loadRoot hmetrics hobj
  rw [hc] at hentries
  constructor
  · intro h j hj
    by_contra hinvalid
    have hzero : MetricEntry.zeroed ∈ c.entries := by
      rw [hentries, List.mem_map]
      exact ⟨j, hj, if_neg hinvalid⟩
    obtain ⟨m, hfind, hm⟩ := find_zeroed hzero
    exact hm (h.find [] m hfind)
  · intro h
    apply invisible_of_valid
    intro e he
    rw [hentries, List.mem_map] at he
    obtain ⟨j, hj, rfl⟩ := he
    rw [if_pos (h j hj)]
    exact h j hj

/-- The elements of `metrics` in a file. -/
def fileMetrics (file : Bytes) : Option (List Json) :=
  match decodeJson (cstr file) with
  | some (.obj members) =>
      match Json.member members (str "metrics") with
      | some (.arr items) => some items
      | _ => none
  | _ => none

theorem fileMetrics_eq_some {file : Bytes} {items : List Json} (h : fileMetrics file = some items) :
    ∃ members, decodeJson (cstr file) = some (.obj members)
      ∧ Json.member members (str "metrics") = some (.arr items) := by
  unfold fileMetrics at h
  split at h
  · rename_i members hroot
    split at h
    · rename_i items' hmetrics
      rw [← Option.some.inj h]
      exact ⟨members, hroot, hmetrics⟩
    · cases h
  · cases h

/-- A file whose elements pass a check. -/
theorem fileMetrics_all {file : Bytes} {p : Json → Bool}
    (h : (fileMetrics file).any (·.all p) = true) :
    ∃ members items, decodeJson (cstr file) = some (.obj members)
      ∧ Json.member members (str "metrics") = some (.arr items)
      ∧ loadConfig decodeJson (some file) = some (loadRoot (.obj members)) ∧ ∀ j ∈ items, p j = true := by
  obtain ⟨items, hitems, hall⟩ := (Option.any_eq_true _ _).mp h
  obtain ⟨members, hroot, hmetrics⟩ := fileMetrics_eq_some hitems
  have hload : loadConfig decodeJson (some file) = some (loadRoot (.obj members)) := by
    unfold loadConfig
    dsimp only
    rw [hroot, Option.map_some]
  exact ⟨members, items, hroot, hmetrics, hload, List.all_eq_true.mp hall⟩

/-- A metric of a configuration file. -/
def metricJson (fields : List (String × String)) : Json :=
  .obj (fields.map fun f => (str f.1, .str (str f.2)))

/-- A configuration file with some metrics. -/
def metricsRoot (metrics : List (List (String × String))) : List (Bytes × Json) :=
  [(str "metrics", .arr (metrics.map metricJson))]

/-- The endpoint and the path of a metric. -/
def cpuFields : List (String × String) := [("endpoint", "cpu"), ("rrd_path", "cpu.rrd")]

/-- A file with one metric. -/
def cpuFile : Bytes :=
  str "\x7b\"metrics\":[\x7b\"endpoint\":\"cpu\",\"rrd_path\":\"cpu.rrd\"\x7d]\x7d"

theorem skipped_invisible_cpu :
    ∃ c, loadConfig decodeJson (some cpuFile) = some c ∧ SkippedInvisible c := by
  have hvalid : (fileMetrics cpuFile).any (·.all fun j =>
      isObjectValue j && decide (parseMetricConfig j).Valid) = true := by decide +kernel
  obtain ⟨members, items, hroot, hmetrics, hload, hall⟩ := fileMetrics_all hvalid
  simp only [Bool.and_eq_true, decide_eq_true_iff] at hall
  exact ⟨_, hload, (skipped_invisible_iff hroot hload hmetrics fun j hj => (hall j hj).1).mpr
    fun j hj => (hall j hj).2⟩

/-- The second metric lacks its path: it is skipped, found under the empty path, and listed. -/
theorem skipped_mem_visible :
    (loadRoot (.obj (metricsRoot [cpuFields, [("endpoint", "mem")]]))).entries.map (·.endpoint)
        = [str "cpu", []]
      ∧ (∃ m, findMetricConfig
          (loadRoot (.obj (metricsRoot [cpuFields, [("endpoint", "mem")]]))).toConfig [] = some m
          ∧ ¬m.Valid)
      ∧ (grafanaSearch
          (loadRoot (.obj (metricsRoot [cpuFields, [("endpoint", "mem")]]))).toConfig).data
        = str "[\"cpu\",\"\"]"
      ∧ ¬SkippedInvisible (loadRoot (.obj (metricsRoot [cpuFields, [("endpoint", "mem")]]))) := by
  have hmem : MetricEntry.zeroed
      ∈ (loadRoot (.obj (metricsRoot [cpuFields, [("endpoint", "mem")]]))).entries := by
    rw [entries_loadRoot rfl (by
      intro j hj
      rcases List.mem_cons.mp hj with rfl | hj
      · rfl
      · obtain rfl := List.mem_singleton.mp hj
        rfl)]
    exact List.mem_cons_of_mem _ (List.mem_cons_self ..)
  obtain ⟨m, hfind, hm⟩ := find_zeroed hmem
  exact ⟨by decide +kernel, ⟨m, hfind, hm⟩, by decide +kernel, fun h => hm (h.find [] m hfind)⟩

end Svgd.Backend
