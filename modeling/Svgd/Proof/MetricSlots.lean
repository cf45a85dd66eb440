import Svgd.Proof.SkippedMetrics

/-!
# The slots of the metrics array

`load_config` allocates one slot for each element of `metrics` and does not clear it. An
element that is an object is written to its slot, as it is or as zeros; any other element
is passed over, and its slot keeps what `malloc` returned.
-/

namespace Svgd.Backend

open Lib

/-- Every slot below `metrics_count` holds a metric that passed the validation, or zeros. -/
def SlotsDefined (c : LoadedConfig) : Prop :=
  ∀ i < c.metrics.length, ∃ m : MetricEntry,
    c.metrics[i]? = some (some m) ∧ (m.Valid ∨ m = .zeroed)

/-- What is written is a metric or zeros. -/
theorem loadMetric_some {j : Json} {m : MetricEntry} (h : loadMetric j = some m) :
    m.Valid ∨ m = .zeroed := by
  unfold loadMetric at h
  split at h
  · dsimp only at h
    by_cases hvalid : (parseMetricConfig j).Valid
    · rw [if_pos hvalid] at h
      exact .inl (Option.some.inj h ▸ hvalid)
    · rw [if_neg hvalid] at h
      exact .inr (Option.some.inj h).symm
  · cases h

/-- **Every slot is defined exactly if every element is an object.** -/
theorem slots_defined_iff {decode : Bytes → Option Json} {text : Bytes}
    {members : List (Bytes × Json)} {items : List Json} {c : LoadedConfig}
    (hroot : decode (cstr text) = some (.obj members))
    (hload : loadConfig decode (some text) = some c)
    (hmetrics : Json.member members (str "metrics") = some (.arr items)) :
    SlotsDefined c ↔ ∀ j ∈ items, isObjectValue j = true := by
  have hc : loadRoot (.obj members) = c := loadConfig_root hroot hload
  have hslots : c.metrics = items.map loadMetric := by
    rw [← hc]
    exact metrics_loadRoot hmetrics
  rw [← written_loadRoot hmetrics, hc]
  unfold SlotsDefined LoadedConfig.Written
  constructor
  · intro h slot hslot
    obtain ⟨i, hi, rfl⟩ := List.mem_iff_getElem.mp hslot
    obtain ⟨m, hm, -⟩ := h i hi
    rw [List.getElem?_eq_getElem hi] at hm
    rw [Option.some.inj hm, Option.isSome_some]
  · intro h i hi
    obtain ⟨m, hm⟩ := Option.isSome_iff_exists.mp (h c.metrics[i] (List.getElem_mem hi))
    have hmem : some m ∈ c.metrics := hm ▸ List.getElem_mem hi
    rw [hslots] at hmem
    obtain ⟨j, -, hj⟩ := List.mem_map.mp hmem
    exact ⟨m, by rw [List.getElem?_eq_getElem hi, hm], loadMetric_some hj⟩

/-- A metric, a metric without its path, and an array: all of them are objects. -/
def objectsFile : Bytes :=
  str "\x7b\"metrics\":[\x7b\"endpoint\":\"cpu\",\"rrd_path\":\"cpu.rrd\"\x7d,"
    ++ str "\x7b\"endpoint\":\"mem\"\x7d,[]]\x7d"

theorem slots_defined_objects :
    ∃ c, loadConfig decodeJson (some objectsFile) = some c ∧ SlotsDefined c := by
  have hobjects : (fileMetrics objectsFile).any (·.all isObjectValue) = true := by decide +kernel
  obtain ⟨members, items, hroot, hmetrics, hload, hall⟩ := fileMetrics_all hobjects
  exact ⟨_, hload, (slots_defined_iff hroot hload hmetrics).mpr hall⟩

/-- The slot of a `null` is not written. -/
theorem slots_null_undefined : ∃ c,
    loadConfig decodeJson (some (str "\x7b\"metrics\":[null]\x7d")) = some c
      ∧ c.metrics = [none] ∧ ¬SlotsDefined c := by
  have hload : (loadConfig decodeJson (some (str "\x7b\"metrics\":[null]\x7d"))).map (·.metrics)
      = some [none] := by decide +kernel
  obtain ⟨c, hc, hslots⟩ := Option.map_eq_some_iff.mp hload
  refine ⟨c, hc, hslots, fun h => ?_⟩
  rw [SlotsDefined, hslots] at h
  obtain ⟨m, hm, -⟩ := h 0 (by decide)
  cases Option.some.inj hm

end Svgd.Backend
