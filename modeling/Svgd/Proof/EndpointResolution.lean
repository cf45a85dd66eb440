import Svgd.Proof.SkippedMetrics
import Svgd.Lib.Selection

/-!
# Which metric a path means

`find_metric_config` looks for the endpoint itself first, and then for the longest endpoint
that the path continues. `extract_param_from_path` splits the path again, on its own. Both
make the same cut, in whatever order the metrics stand.

An empty endpoint is never continued: the running best starts with length zero, and a better
one has to be longer. `load_config` keeps no metric that this could happen to.
-/

namespace Svgd.Backend

open Lib

/-- The path goes on behind the endpoint, with a slash. -/
def TakesPath (path : Bytes) (m : MetricConfig) : Prop :=
  m.requiresParam = true ∧ m.endpoint ++ str "/" <+: path

instance (path : Bytes) : DecidablePred (TakesPath path) :=
  fun _ => inferInstanceAs (Decidable (_ ∧ _))

/-- A metric that the second pass can choose. -/
def Candidate (path : Bytes) (m : MetricConfig) : Prop := m.endpoint ≠ [] ∧ TakesPath path m

instance (path : Bytes) : DecidablePred (Candidate path) :=
  fun _ => inferInstanceAs (Decidable (_ ∧ _))

/-- The first metric with that endpoint; otherwise the first of those with the longest endpoint
among the metrics that take the path. -/
def resolution (takes : MetricConfig → Prop) [DecidablePred takes] (metrics : List MetricConfig)
    (path : Bytes) : Option MetricConfig :=
  (metrics.find? (·.endpoint == path)).or ((metrics.filter takes).argmax (·.endpoint.length))

variable {path : Bytes}

theorem takesPath_iff {m : MetricConfig} :
    TakesPath path m ↔ m.requiresParam = true ∧ ∃ p, path = m.endpoint ++ str "/" ++ p := by
  unfold TakesPath List.IsPrefix
  simp only [eq_comm]

/-! ## The second pass -/

/-- The test of the second pass. -/
theorem longestPrefix_test (path : Bytes) (m : MetricConfig) (bestLen : Nat) :
    (m.requiresParam && startsWith path m.endpoint && startsWith (path.drop m.endpoint.length) (str "/")
        && decide (bestLen < m.endpoint.length)) = true
      ↔ TakesPath path m ∧ bestLen < m.endpoint.length := by
  rw [takesPath_iff]
  simp only [Bool.and_eq_true, decide_eq_true_eq, startsWith_iff]
  constructor
  · rintro ⟨⟨⟨hreq, t, ht⟩, p, hp⟩, hlen⟩
    rw [ht, List.drop_left] at hp
    exact ⟨⟨hreq, p, by rw [ht, hp, List.append_assoc]⟩, hlen⟩
  · rintro ⟨⟨hreq, p, hp⟩, hlen⟩
    rw [List.append_assoc] at hp
    exact ⟨⟨⟨hreq, _, hp⟩, p, by rw [hp, List.drop_left]⟩, hlen⟩

/-- With a best metric, a pass keeps it or replaces it by a longer one. -/
theorem longestPrefix_choose (ms : List MetricConfig) : ∀ b : MetricConfig,
    longestPrefix path ms (some b) b.endpoint.length
      = some (choose (·.endpoint.length) b (ms.filter (Candidate path))) := by
  induction ms with
  | nil => exact fun b => rfl
  | cons m ms ih =>
      intro b
      have htest := longestPrefix_test path m b.endpoint.length
      unfold longestPrefix
      by_cases htakes : Candidate path m
      · rw [List.filter_cons_of_pos (by simpa using htakes), choose]
        by_cases hlen : b.endpoint.length < m.endpoint.length
        · rw [if_pos (htest.mpr ⟨htakes.2, hlen⟩), if_pos hlen]
          exact ih m
        · rw [if_neg (fun h => hlen (htest.mp h).2), if_neg hlen]
          exact ih b
      · -- an empty endpoint is not longer than any other
        have hskip : ¬(TakesPath path m ∧ b.endpoint.length < m.endpoint.length) := by
          rintro ⟨hm, hlen⟩
          exact htakes ⟨List.ne_nil_of_length_pos (by omega), hm⟩
        rw [List.filter_cons_of_neg (by simpa using htakes), if_neg (fun h => hskip (htest.mp h))]
        exact ih b

/-- Without one, it ends with the first of the longest. -/
theorem longestPrefix_eq (ms : List MetricConfig) :
    longestPrefix path ms none 0
      = (ms.filter (Candidate path)).argmax (·.endpoint.length) := by
  induction ms with
  | nil => rfl
  | cons m ms ih =>
      have htest := longestPrefix_test path m 0
      unfold longestPrefix
      by_cases htakes : Candidate path m
      · have hpos : 0 < m.endpoint.length := List.length_pos_iff.mpr htakes.1
        rw [List.filter_cons_of_pos (by simpa using htakes), if_pos (htest.mpr ⟨htakes.2, hpos⟩),
          longestPrefix_choose]
        exact (choose_mem_argmax (fun m : MetricConfig => m.endpoint.length) _ m).symm
      · have hskip : ¬(TakesPath path m ∧ 0 < m.endpoint.length) := by
          rintro ⟨hm, hlen⟩
          exact htakes ⟨List.length_pos_iff.mp hlen, hm⟩
        rw [List.filter_cons_of_neg (by simpa using htakes), if_neg (fun h => hskip (htest.mp h))]
        exact ih

theorem findMetricConfig_eq (config : Config) :
    findMetricConfig config path = resolution (Candidate path) config.metrics path := by
  unfold findMetricConfig resolution
  cases config.metrics.find? (·.endpoint == path) with
  | some m => rfl
  | none => exact longestPrefix_eq _

/-! ## The cut -/

/-- A metric that is found is the path itself, or takes it. -/
theorem resolution_some {takes : MetricConfig → Prop} [DecidablePred takes]
    {metrics : List MetricConfig} {m : MetricConfig} (h : resolution takes metrics path = some m) :
    m.endpoint = path ∨ takes m := by
  unfold resolution at h
  rcases Option.or_eq_some_iff.mp h with hfind | ⟨-, hmax⟩
  · exact Or.inl (by simpa using List.find?_some hfind)
  · have hmem := (List.mem_filter.mp (List.argmax_mem hmax)).2
    exact Or.inr (by simpa using hmem)

/-- The parameter is what stands behind the slash. -/
theorem extractParam_of_takes {endpoint p : Bytes} (hpath : path = endpoint ++ str "/" ++ p) :
    extractParamFromPath path endpoint = if p = [] then none else some p := by
  have hslash : startsWith (str "/" ++ p) (str "/") = true := startsWith_append _ _
  have hdrop : (str "/" ++ p).drop 1 = p := rfl
  unfold extractParamFromPath
  rw [hpath, List.append_assoc, startsWith_append, List.drop_left]
  dsimp only
  rw [if_pos rfl, if_pos hslash, hdrop]

/-- The endpoint itself has no parameter. -/
theorem extractParam_self : extractParamFromPath path path = none := by
  have hself : startsWith path path = true := startsWith_iff.mpr ⟨[], by simp⟩
  have hdrop : path.drop path.length = [] := List.drop_length
  unfold extractParamFromPath
  rw [hself, hdrop]
  rfl

theorem extractParam_iff {config : Config} {m : MetricConfig}
    (h : findMetricConfig config path = some m) (p : Bytes) :
    extractParamFromPath path m.endpoint = some p ↔ p ≠ [] ∧ path = m.endpoint ++ str "/" ++ p := by
  rw [findMetricConfig_eq] at h
  rcases resolution_some h with heq | ⟨-, htakes⟩
  · have hnot : path ≠ path ++ str "/" ++ p := by
      intro hp
      have := congrArg List.length hp
      simp [str] at this
    rw [heq, extractParam_self]
    exact ⟨fun h => absurd h (by simp), fun h => absurd h.2 hnot⟩
  · obtain ⟨-, q, hq⟩ := takesPath_iff.mp htakes
    rw [extractParam_of_takes hq]
    by_cases hnil : q = []
    · rw [if_pos hnil]
      simp only [reduceCtorEq, false_iff, not_and]
      intro hp heq
      rw [hq, List.append_cancel_left_eq] at heq
      exact hp (heq ▸ hnil)
    · rw [if_neg hnil, Option.some.injEq]
      constructor
      · rintro rfl
        exact ⟨hnil, hq⟩
      · rintro ⟨-, hp⟩
        rw [hq] at hp
        exact List.append_cancel_left hp

/-! ## The order of the metrics -/

theorem mem_candidates {ms : List MetricConfig} {m : MetricConfig} :
    m ∈ ms.filter (Candidate path) ↔ m ∈ ms ∧ Candidate path m := by
  rw [List.mem_filter, decide_eq_true_eq]

/-- Two longest endpoints that take one path are the same. -/
theorem endpoint_eq_of_longest {m m' : MetricConfig} (h : TakesPath path m) (h' : TakesPath path m')
    (hlen : m.endpoint.length = m'.endpoint.length) : m.endpoint = m'.endpoint := by
  obtain ⟨-, p, hp⟩ := takesPath_iff.mp h
  obtain ⟨-, p', hp'⟩ := takesPath_iff.mp h'
  rw [hp, List.append_assoc, List.append_assoc] at hp'
  exact (List.append_inj hp' hlen).1

/-- **The endpoint a path resolves to does not depend on the order.** -/
theorem resolution_perm {ms ms' : List MetricConfig} (h : ms'.Perm ms) :
    (resolution (Candidate path) ms' path).map (·.endpoint)
      = (resolution (Candidate path) ms path).map (·.endpoint) := by
  unfold resolution
  cases hfind : ms.find? (·.endpoint == path) with
  | some m =>
      have hm : m.endpoint = path := by simpa using List.find?_some hfind
      have hsome : (ms'.find? (·.endpoint == path)).isSome := by
        rw [List.find?_isSome]
        exact ⟨m, h.mem_iff.mpr (List.mem_of_find?_eq_some hfind), by simpa using hm⟩
      obtain ⟨m', hm'⟩ := Option.isSome_iff_exists.mp hsome
      have heq : m'.endpoint = path := by simpa using List.find?_some hm'
      rw [hm', Option.some_or, Option.some_or, Option.map_some, Option.map_some, hm, heq]
  | none =>
      have hnone : ms'.find? (·.endpoint == path) = none := by
        rw [List.find?_eq_none] at hfind ⊢
        exact fun m hm => hfind m (h.mem_iff.mp hm)
      rw [hnone, Option.none_or, Option.none_or]
      have hperm := h.filter (Candidate path)
      cases hmax : (ms.filter (Candidate path)).argmax (·.endpoint.length) with
      | none =>
          rw [List.argmax_eq_none] at hmax
          rw [hmax, List.perm_nil] at hperm
          rw [hperm]
          rfl
      | some m =>
          cases hmax' : (ms'.filter (Candidate path)).argmax (·.endpoint.length) with
          | none =>
              rw [List.argmax_eq_none] at hmax'
              have hmem := List.argmax_mem hmax
              rw [← hperm.mem_iff, hmax'] at hmem
              exact absurd hmem (by simp)
          | some m' =>
              -- each is as long as the other
              have hm := List.argmax_mem hmax
              have hm' := List.argmax_mem hmax'
              have hle := List.le_of_mem_argmax (hperm.mem_iff.mp hm') hmax
              have hge := List.le_of_mem_argmax (hperm.mem_iff.mpr hm) hmax'
              rw [Option.map_some, Option.map_some]
              exact congrArg some (endpoint_eq_of_longest (mem_candidates.mp hm').2.2
                (mem_candidates.mp hm).2.2 (by omega))

/-! ## The lookup -/

/--
**Endpoint resolution.**

The lookup finds the first metric with the path as its endpoint; otherwise the first with the
longest endpoint, not empty, that the path continues. The extraction makes the same cut, and
the endpoint does not depend on the order of the metrics.
-/
theorem findMetricConfig_resolution (config : Config) (path : Bytes) :
    findMetricConfig config path = resolution (Candidate path) config.metrics path
      ∧ (∀ m, findMetricConfig config path = some m → m.requiresParam = true →
        ∀ p, extractParamFromPath path m.endpoint = some p
          ↔ p ≠ [] ∧ path = m.endpoint ++ str "/" ++ p)
      ∧ ∀ config' : Config, config'.metrics.Perm config.metrics →
        (findMetricConfig config' path).map (·.endpoint)
          = (findMetricConfig config path).map (·.endpoint) := by
  refine ⟨findMetricConfig_eq config, ?_, ?_⟩
  · intro m hm _ p
    exact extractParam_iff hm p
  · intro config' hperm
    rw [findMetricConfig_eq, findMetricConfig_eq]
    exact resolution_perm hperm

/-- A metric with an empty endpoint takes every path that starts with a slash, and is not found. -/
theorem empty_endpoint_not_found : ∃ (config : Config) (path : Bytes),
    findMetricConfig config path ≠ resolution (TakesPath path) config.metrics path :=
  ⟨{ metrics := [{ endpoint := [], requiresParam := true }] }, str "/eth0", by decide⟩

/-! ## What is loaded -/

/-- A metric that needs a parameter has an endpoint. -/
theorem loadMetric_endpoint_ne {j : Json} {e : MetricEntry} (h : loadMetric j = some e)
    (hreq : e.requiresParam = true) : e.endpoint ≠ [] := by
  unfold loadMetric at h
  split at h
  · dsimp only at h
    split at h
    · rename_i hvalid
      obtain rfl := Option.some.inj h
      exact hvalid.1
    · obtain rfl := Option.some.inj h
      exact absurd hreq (by decide)
  · exact absurd h (by simp)

/-- The other sections leave the metrics alone. -/
theorem readPaths_metrics (config : LoadedConfig) (root : Json) :
    ((config.readServer root).readPaths root).metrics = config.metrics := by
  have hserver : (config.readServer root).metrics = config.metrics := by
    unfold LoadedConfig.readServer
    repeat' split
    all_goals rfl
  rw [← hserver]
  unfold LoadedConfig.readPaths
  dsimp only
  repeat' split
  all_goals rfl

/-- Every slot that is written is written by the loop. -/
theorem mem_entries_loadRoot {root : Json} {e : MetricEntry} (h : e ∈ (loadRoot root).entries) :
    ∃ j, loadMetric j = some e := by
  obtain ⟨slot, hslot, rfl⟩ := List.mem_filterMap.mp h
  unfold loadRoot at hslot
  split at hslot
  · unfold LoadedConfig.readMetrics at hslot
    split at hslot
    · obtain ⟨j, -, hj⟩ := List.mem_map.mp hslot
      exact ⟨j, hj⟩
    · rw [readPaths_metrics] at hslot
      exact absurd hslot (by simp)
  · exact absurd hslot (by simp)

/-- **In a configuration that was loaded every path is resolved as it is meant.** -/
theorem findMetricConfig_loaded {decode : Bytes → Option Json} {file : Option Bytes}
    {c : LoadedConfig} (hload : loadConfig decode file = some c) (path : Bytes) :
    findMetricConfig c.toConfig path = resolution (TakesPath path) c.toConfig.metrics path := by
  have hne : ∀ m ∈ c.toConfig.metrics, m.requiresParam = true → m.endpoint ≠ [] := by
    intro m hm
    obtain ⟨e, he, rfl⟩ := mem_toConfig.mp hm
    obtain ⟨root, rfl⟩ : ∃ root, loadRoot root = c := by
      unfold loadConfig at hload
      split at hload
      · exact ⟨.null, Option.some.inj hload⟩
      · obtain ⟨root, -, hroot⟩ := Option.map_eq_some_iff.mp hload
        exact ⟨root, hroot⟩
    obtain ⟨j, hj⟩ := mem_entries_loadRoot he
    exact loadMetric_endpoint_ne hj
  have hfilter : c.toConfig.metrics.filter (Candidate path)
      = c.toConfig.metrics.filter (TakesPath path) := by
    apply List.filter_congr
    intro m hm
    rw [decide_eq_decide]
    exact ⟨fun h => h.2, fun h => ⟨hne m hm h.1, h⟩⟩
  rw [findMetricConfig_eq]
  unfold resolution
  rw [hfilter]

end Svgd.Backend
