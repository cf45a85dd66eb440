import Svgd.Proof.GrafanaJson
import Svgd.Proof.RrdSeries
import Svgd.Backend.Handler

/-!
# The names in a Grafana answer

A series is answered under the name of its data source, or as `total`, and the target it was
asked for by is printed only where a series has no name at all. Every series out of a file has
one, so what a client reads is up to whoever created the file: the answers can be told apart
exactly if a file with one data source names it like its target, and a file with several shares
none of the names it has points for.
-/

namespace Svgd.Backend

open Lib Stacked

/-! ## The sources of a query -/

/-- A configuration with everything the calls for the targets of a query meet. -/
structure SourceEnv where
  config : Config
  hasContext : Bool := true
  jsonDecode : Bytes → Option Json
  /-- When the call for target number `i` is made. -/
  times : Nat → CallTimes
  /-- What the sources answer to the call for target number `i`. -/
  backends : Nat → Backends
  cache : Cache := {}

/-- The surroundings of `grafana_query`: every target is fetched without the cache. -/
def SourceEnv.grafana (e : SourceEnv) : GrafanaEnv where
  config := e.config
  hasContext := e.hasContext
  jsonDecode := e.jsonDecode
  fetch := fun i m param period =>
    (metricSourceFetch e.config ⟨m, param, period⟩ false (e.times i) (e.backends i) e.cache).data

/-- What librrd answers about the file of target number `i`, and whether the metric is a sum. -/
def SourceEnv.file (e : SourceEnv) (period : Int) (i : Nat) (target : Bytes) :
    Option (Bool × RrdFetch) :=
  (pathRequest e.config target (toInt32 period)).bind fun r =>
    (rrdAnswer (e.backends i).rrd e.config.rrdcachedAddr (r.rrdPath e.config)
      ((e.times i).now - r.period)).map fun f => (r.metric.isSum, f)

/-- Every target is found, and is kept in a file. -/
def SourceEnv.AllRrd (e : SourceEnv) (targets : List Bytes) : Prop :=
  ∀ t ∈ targets, ∃ m, findMetricConfig e.config t = some m ∧ m.source = .rrd

/-! ## The names -/

/-- The series in the answer that belong to target number `i`. -/
def targetSeries (env : GrafanaEnv) (period : Int) (i : Nat) (target : Bytes) :
    List (Bytes × List DataPoint) :=
  match targetData env period i target with
  | none => []
  | some data => (data.series.filter (·.points ≠ [])).map fun s => (s.name.getD target, s.points)

/-- A client can tell whose series it reads. -/
structure Attributable (e : SourceEnv) (period : Int) (targets : List Bytes) : Prop where
  apart : ∀ i j t u, targets[i]? = some t → targets[j]? = some u → i ≠ j →
    ∀ a ∈ targetSeries e.grafana period i t, ∀ b ∈ targetSeries e.grafana period j u, a.1 ≠ b.1
  single : ∀ i t d f, targets[i]? = some t → e.file period i t = some (d, f) →
    f.dsNames.length = 1 → ∀ a ∈ targetSeries e.grafana period i t, a.1 = t

/-- A file has a point under a name. -/
def RrdFetch.HasPoint (f : RrdFetch) (doSum : Bool) (name : Bytes) : Prop :=
  if doSum then name = str "total" ∧ ∃ row < f.readRows, (f.total row).nonneg = true
  else ∃ ds, f.dsNames[ds]? = some name ∧ ∃ row < f.readRows, isPoint (f.value row ds) = true

/-- The names in the files fit the targets. -/
structure FilesNamed (e : SourceEnv) (period : Int) (targets : List Bytes) : Prop where
  single : ∀ i t d f, targets[i]? = some t → e.file period i t = some (d, f) →
    f.dsNames.length = 1 → ∀ name, f.HasPoint d name → name = t
  several : ∀ i j t u d d' f g, targets[i]? = some t → targets[j]? = some u → i ≠ j →
    e.file period i t = some (d, f) → e.file period j u = some (d', g) →
    f.dsNames.length ≠ 1 → ∀ name, f.HasPoint d name → ¬ g.HasPoint d' name

theorem emitted_eq (env : GrafanaEnv) (period : Int) :
    ∀ (targets : List Bytes) (k : Nat), emitted env period k targets
      = (targets.mapIdx fun i t => targetSeries env period (k + i) t).flatten
  | [], _ => rfl
  | t :: ts, k => by
      have hstep : emitted env period k (t :: ts)
          = targetSeries env period k t ++ emitted env period (k + 1) ts := rfl
      rw [hstep, emitted_eq env period ts (k + 1), List.mapIdx_cons, List.flatten_cons]
      simp only [Nat.add_zero, Nat.add_assoc, Nat.add_comm 1]

/-- The series of a file that have a point. -/
theorem hasPoint_iff {f : RrdFetch} {doSum : Bool} {name : Bytes} :
    f.HasPoint doSum name
      ↔ ∃ s ∈ f.series f.readRows doSum, s.name = some name ∧ s.points ≠ [] := by
  have hpoints : ∀ (value : Nat → Double) (keep : Double → Bool),
      f.points f.readRows value keep ≠ [] ↔ ∃ row < f.readRows, keep (value row) = true := by
    intro value keep
    constructor
    · intro hne
      obtain ⟨p, hp⟩ := List.exists_mem_of_ne_nil _ hne
      obtain ⟨row, hrow, hkeep, -⟩ := mem_points.mp hp
      exact ⟨row, hrow, hkeep⟩
    · rintro ⟨row, hrow, hkeep⟩
      exact List.ne_nil_of_mem (mem_points.mpr ⟨row, hrow, hkeep, rfl⟩)
  unfold RrdFetch.HasPoint RrdFetch.series
  cases doSum with
  | true =>
      rw [if_pos rfl, if_pos rfl, ← hpoints]
      simp only [List.mem_singleton, exists_eq_left, Option.some.injEq, eq_comm]
  | false =>
      rw [if_neg (by decide), if_neg (by decide)]
      constructor
      · rintro ⟨ds, hds, hrow⟩
        obtain ⟨hlt, hname⟩ := List.getElem?_eq_some_iff.mp hds
        refine ⟨_, List.mem_mapIdx.mpr ⟨ds, hlt, rfl⟩, congrArg some hname, ?_⟩
        exact (hpoints _ _).mpr hrow
      · rintro ⟨s, hs, hname, hne⟩
        obtain ⟨ds, hlt, rfl⟩ := List.mem_mapIdx.mp hs
        refine ⟨ds, List.getElem?_eq_some_iff.mpr ⟨hlt, Option.some.inj hname⟩, ?_⟩
        exact (hpoints _ _).mp hne

section

variable {e : SourceEnv} {t : Bytes}

/-- What is fetched for a target that is kept in a file. -/
theorem targetData_file (period : Int) (i : Nat) {m : MetricConfig}
    (hfind : findMetricConfig e.config t = some m) (hsrc : m.source = .rrd) :
    (targetData e.grafana period i t).map (·.series)
      = (e.file period i t).bind fun f => seriesOrNull (f.2.series f.2.readRows f.1) := by
  obtain ⟨r, hreq, hmetric⟩ : ∃ r, pathRequest e.config t (toInt32 period) = some r
      ∧ r.metric = m := by
    unfold pathRequest
    rw [hfind]
    exact ⟨_, rfl, rfl⟩
  have hfetch : targetData e.grafana period i t
      = r.fetch e.config (e.backends i).rrd (e.times i).now := by
    rw [targetData_eq]
    show (pathRequest e.config t (toInt32 period)).bind _ = _
    rw [hreq, Option.bind_some]
    unfold SourceEnv.grafana metricSourceFetch
    dsimp only
    rw [hmetric, hsrc, ← hmetric]
    dsimp only
    rw [if_neg (by decide)]
    cases Request.fetch e.config r (e.backends i).rrd (e.times i).now <;> rfl
  unfold SourceEnv.file
  rw [hfetch, hreq, Option.bind_some]
  unfold Request.fetch
  cases hanswer : rrdAnswer (e.backends i).rrd e.config.rrdcachedAddr (r.rrdPath e.config)
      ((e.times i).now - r.period) with
  | none =>
      unfold rrdFetchData
      rw [hanswer]
      rfl
  | some f => exact rrdFetchData_series r.param r.metric hanswer

/-- **The names a target is answered under**: those its file has points for. -/
theorem mem_targetSeries {period : Int} {i : Nat} {m : MetricConfig}
    (hfind : findMetricConfig e.config t = some m) (hsrc : m.source = .rrd) {name : Bytes} :
    (∃ a ∈ targetSeries e.grafana period i t, a.1 = name)
      ↔ ∃ d f, e.file period i t = some (d, f) ∧ f.HasPoint d name := by
  have hdata := targetData_file period i hfind hsrc
  unfold targetSeries
  cases htarget : targetData e.grafana period i t with
  | none =>
      rw [htarget] at hdata
      -- a file without any point is no data
      refine ⟨fun ⟨a, ha, _⟩ => absurd ha (by simp), ?_⟩
      rintro ⟨d, f, hfile, hpoint⟩
      rw [hfile, Option.bind_some] at hdata
      obtain ⟨s, hs, -, hne⟩ := hasPoint_iff.mp hpoint
      exact absurd (seriesOrNull_eq_none.mp hdata.symm s hs) hne
  | some data =>
      rw [htarget, Option.map_some] at hdata
      obtain ⟨⟨d, f⟩, hfile, hseries⟩ := Option.bind_eq_some_iff.mp hdata.symm
      have hseries' := seriesOrNull_some hseries
      dsimp only at hseries' ⊢
      rw [hseries']
      constructor
      · rintro ⟨a, ha, rfl⟩
        obtain ⟨s, hs, rfl⟩ := List.mem_map.mp ha
        obtain ⟨hs, hne⟩ := List.mem_filter.mp hs
        obtain ⟨name, hname⟩ := Option.isSome_iff_exists.mp
          (List.all_eq_true.mp (f.named_series f.readRows d) s hs)
        refine ⟨d, f, hfile, hasPoint_iff.mpr ⟨s, hs, ?_, by simpa using hne⟩⟩
        rw [hname]
        rfl
      · rintro ⟨d', f', hfile', hpoint⟩
        obtain ⟨rfl, rfl⟩ := Prod.mk.inj (Option.some.inj (hfile.symm.trans hfile'))
        obtain ⟨s, hs, hname, hne⟩ := hasPoint_iff.mp hpoint
        refine ⟨_, List.mem_map.mpr ⟨s, List.mem_filter.mpr ⟨hs, by simpa using hne⟩, rfl⟩, ?_⟩
        rw [hname]
        rfl

end

/-- A client can tell the series apart exactly if the files are named for it. -/
theorem attributable_iff {e : SourceEnv} {period : Int} {targets : List Bytes}
    (hdistinct : targets.Nodup) (hrrd : e.AllRrd targets) :
    Attributable e period targets ↔ FilesNamed e period targets := by
  have hnames : ∀ {i t name}, targets[i]? = some t →
      ((∃ a ∈ targetSeries e.grafana period i t, a.1 = name)
        ↔ ∃ d f, e.file period i t = some (d, f) ∧ f.HasPoint d name) := by
    intro i t name ht
    obtain ⟨m, hfind, hsrc⟩ := hrrd t (List.mem_of_getElem? ht)
    exact mem_targetSeries hfind hsrc
  constructor
  · intro h
    refine ⟨?_, ?_⟩
    · intro i t d f ht hfile hone name hpoint
      obtain ⟨a, ha, rfl⟩ := (hnames ht).mpr ⟨d, f, hfile, hpoint⟩
      exact h.single i t d f ht hfile hone a ha
    · intro i j t u d d' f g ht hu hij hfile hfile' _ name hpoint hpoint'
      obtain ⟨a, ha, hname⟩ := (hnames ht).mpr ⟨d, f, hfile, hpoint⟩
      obtain ⟨b, hb, hname'⟩ := (hnames hu).mpr ⟨d', g, hfile', hpoint'⟩
      exact h.apart i j t u ht hu hij a ha b hb (hname.trans hname'.symm)
  · intro h
    refine ⟨?_, ?_⟩
    · intro i j t u ht hu hij a ha b hb hab
      obtain ⟨d, f, hfile, hpoint⟩ := (hnames ht).mp ⟨a, ha, rfl⟩
      obtain ⟨d', g, hfile', hpoint'⟩ := (hnames hu).mp ⟨b, hb, hab.symm⟩
      by_cases hf : f.dsNames.length = 1
      · by_cases hg : g.dsNames.length = 1
        · -- the common name would be both targets
          have htu : t = u := (h.single i t d f ht hfile hf _ hpoint).symm.trans
            (h.single j u d' g hu hfile' hg _ hpoint')
          subst htu
          obtain ⟨hi, hti⟩ := List.getElem?_eq_some_iff.mp ht
          obtain ⟨hj, htj⟩ := List.getElem?_eq_some_iff.mp hu
          exact hij ((hdistinct.getElem_inj_iff).mp (hti.trans htj.symm))
        · exact h.several j i u t d' d g f hu ht (Ne.symm hij) hfile' hfile hg _ hpoint' hpoint
      · exact h.several i j t u d d' f g ht hu hij hfile hfile' hf _ hpoint hpoint'
    · intro i t d f ht hfile hone a ha
      obtain ⟨d', f', hfile', hpoint⟩ := (hnames ht).mp ⟨a, ha, rfl⟩
      obtain ⟨rfl, rfl⟩ := Prod.mk.inj (Option.some.inj (hfile.symm.trans hfile'))
      exact h.single i t d f ht hfile hone _ hpoint

/-- **A Grafana answer and the names in the files**: the answer is the list of what each target
is answered with, and whose series is whose can be told exactly if the files are named for it. -/
theorem grafana_names_iff (e : SourceEnv) (query : Option Bytes) (st st' : List DukVal)
    (targets : List Bytes) (period : Int)
    (hread : readQuery e.grafana query st = some (.ok (targets, period), st'))
    (hdistinct : targets.Nodup) (hrrd : e.AllRrd targets) :
    ∃ r, grafanaQuery e.grafana query st = some (r, st')
      ∧ r.data = str "[" ++ commaJoin
          (((targets.mapIdx (targetSeries e.grafana period)).flatten).map seriesText) ++ str "]"
      ∧ (Attributable e period targets ↔ FilesNamed e period targets) := by
  refine ⟨queryResult e.grafana targets period, ?_, ?_, attributable_iff hdistinct hrrd⟩
  · unfold grafanaQuery
    rw [bind_run hread]
    rfl
  · rw [queryResult_data, emitted_eq]
    simp only [Nat.zero_add]

/-! ## Files with one data source -/

/-- A query for the targets `cpu` and `ram`. -/
def pairQuery : Bytes :=
  str "\x7b\"targets\":[\x7b\"target\":\"cpu\"\x7d,\x7b\"target\":\"ram\"\x7d]\x7d"

/-- The value of a query. -/
def targetsValue (targets : List Bytes) : Json :=
  .obj [(str "targets", .arr (targets.map fun t => .obj [(str "target", .str t)]))]

/-- A backend with two metrics, whose files have one point of a data source called `ds`, and
whose decoder knows one query. -/
def pairEnv (ds body : Bytes) (targets : List Bytes) : SourceEnv where
  config := { metrics := [{ endpoint := str "cpu" }, { endpoint := str "ram" }] }
  jsonDecode := fun b => if b = body then some (targetsValue targets) else none
  times := fun _ => ⟨100, 100, 100, 100⟩
  backends := fun _ =>
    ⟨answering ⟨60, 75, 15, [ds], [.fin 1]⟩, fun _ _ _ => none, fun _ _ _ => none⟩

section

variable {ds body : Bytes} {targets : List Bytes}

theorem readQuery_pairEnv (ds body : Bytes) (targets : List Bytes)
    (hbody : queryBody (pairEnv ds body targets).grafana (some (str "body=" ++ body)) = some body)
    (hdecoded : readDecoded [.json (targetsValue targets)] = some ((targets, 3600), [])) :
    readQuery (pairEnv ds body targets).grafana (some (str "body=" ++ body)) []
      = some (.ok (targets, 3600), []) := by
  have hdecode : (pairEnv ds body targets).grafana.jsonDecode body = some (targetsValue targets) := by
    unfold SourceEnv.grafana pairEnv
    dsimp only
    rw [if_pos rfl]
  rw [readQuery_decoded hbody hdecode, bind_run hdecoded]
  rfl

theorem file_pairEnv {i : Nat} {t : Bytes} (ht : t ∈ [str "cpu", str "ram"]) :
    (pairEnv ds body targets).file 3600 i t = some (false, ⟨60, 75, 15, [ds], [.fin 1]⟩) := by
  rcases List.mem_pair.mp ht with rfl | rfl <;> rfl

theorem allRrd_pairEnv (ts : List Bytes) (h : ∀ t ∈ ts, t ∈ [str "cpu", str "ram"]) :
    (pairEnv ds body targets).AllRrd ts := by
  intro t ht
  rcases List.mem_pair.mp (h t ht) with rfl | rfl <;> exact ⟨_, rfl, rfl⟩

/-- A file with one data source has points under its name only. -/
theorem RrdFetch.HasPoint.name_eq {f : RrdFetch} {name : Bytes} (hone : f.dsNames = [ds])
    (h : f.HasPoint false name) : name = ds := by
  obtain ⟨i, hi, -⟩ := h
  rw [hone] at hi
  exact List.mem_singleton.mp (List.mem_of_getElem? hi)

end

/-- A file that is named like its target. -/
theorem grafana_names_cpu :
    Attributable (pairEnv (str "cpu") cpuQuery [str "cpu"]) 3600 [str "cpu"] := by
  have hread := readQuery_pairEnv (str "cpu") cpuQuery [str "cpu"] (by decide +kernel) rfl
  have hcpu : ∀ t ∈ [str "cpu"], t ∈ [str "cpu", str "ram"] := by simp
  obtain ⟨r, -, -, hiff⟩ := grafana_names_iff _ _ _ _ _ _ hread (by decide)
    (allRrd_pairEnv _ hcpu)
  have hfile : ∀ {i t d f}, [str "cpu"][i]? = some t →
      (pairEnv (str "cpu") cpuQuery [str "cpu"]).file 3600 i t = some (d, f) →
      f.dsNames = [str "cpu"] ∧ d = false := by
    intro i t d f ht h
    rw [file_pairEnv (hcpu t (List.mem_of_getElem? ht))] at h
    obtain ⟨rfl, rfl⟩ := Prod.mk.inj (Option.some.inj h)
    exact ⟨rfl, rfl⟩
  refine hiff.mpr ⟨?_, ?_⟩
  · intro i t d f ht h _ name hpoint
    obtain ⟨hone, rfl⟩ := hfile ht h
    rw [RrdFetch.HasPoint.name_eq hone hpoint, List.mem_singleton.mp (List.mem_of_getElem? ht)]
  · intro i j t u d d' f g ht _ _ h _ hlength
    rw [(hfile ht h).1] at hlength
    exact absurd rfl hlength

/-- Two files whose data source is called `value`, as those of collectd: the series cannot be
told apart, and neither is named like its target. -/
theorem grafana_names_value :
    let e := pairEnv (str "value") pairQuery [str "cpu", str "ram"]
    (∃ r, grafanaQuery e.grafana (some (str "body=" ++ pairQuery)) [] = some (r, [])
      ∧ r.data = str "[\x7b\"target\":\"value\",\"datapoints\":[[1,60000]]\x7d,\x7b\"target\":\"value\",\"datapoints\":[[1,60000]]\x7d]")
    ∧ e.AllRrd [str "cpu", str "ram"]
    ∧ ¬ Attributable e 3600 [str "cpu", str "ram"] := by
  intro e
  have hread := readQuery_pairEnv (str "value") pairQuery [str "cpu", str "ram"] (by decide +kernel)
    rfl
  refine ⟨⟨queryResult e.grafana [str "cpu", str "ram"] 3600, ?_, ?_⟩,
    allRrd_pairEnv _ (fun _ ht => ht), ?_⟩
  · unfold grafanaQuery
    rw [bind_run hread]
    rfl
  · decide +kernel
  · intro h
    have hseries : ∀ i t, t ∈ [str "cpu", str "ram"] →
        targetSeries e.grafana 3600 i t = [(str "value", [⟨60, .fin 1⟩])] := by
      intro i t ht
      rcases List.mem_pair.mp ht with rfl | rfl
      · rfl
      · rfl
    have hmem : (str "value", [⟨60, .fin 1⟩])
        ∈ targetSeries e.grafana 3600 0 (str "cpu") := by
      rw [hseries 0 (str "cpu") (by simp)]
      exact List.mem_singleton_self _
    have hname := h.single 0 (str "cpu") false _ rfl (file_pairEnv (by simp)) rfl _ hmem
    exact absurd hname (by decide)

end Svgd.Backend
