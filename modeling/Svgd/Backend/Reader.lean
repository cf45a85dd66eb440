import Svgd.Backend.Config
import Svgd.Lib.Decimal

/-!
# Reading a round-robin database

`src/rrd/reader.c`. librrd, the caching daemon and the clock are not part of the
repository; what they answer during one fetch is an `RrdWorld`. Allocations are taken
to succeed.

The series that come back depend on the metric only through the question whether it is
a `sum`, and on the parameter only through its text (`rrdFetchData_congr`). Every
series has a name, which is what makes the data safe to clone.
-/

namespace Svgd.Backend

open Lib

/-! ## librrd -/

/-- `rrd_info_t`; the value is a union, read as a number or as a string. -/
structure RrdInfo where
  key : Bytes
  uCnt : Nat := 0
  uStr : Bytes := []
deriving DecidableEq, Repr

/-- What a successful fetch sets: the window, the step, the data sources and the rows. -/
structure RrdFetch where
  start : Int
  stop : Int
  step : Nat
  dsNames : List Bytes
  data : List Double
deriving DecidableEq

/-- What the outside world answers during one fetch. -/
structure RrdWorld where
  /-- `access(path, F_OK) == 0`. -/
  access : Bytes → Bool
  /-- `rrdc_connect(addr) == 0`. -/
  rrdcConnect : Bytes → Bool
  time : Int
  rrdInfo : Bytes → Option (List RrdInfo)
  /-- `rrd_first_r(filename, rra)`, which is `-1` on failure. -/
  rrdFirst : Bytes → Int → Int
  rrdcFetch : Bytes → Bytes → Int → Int → Nat → Option RrdFetch
  rrdFetch : Bytes → Bytes → Int → Int → Nat → Option RrdFetch

/-! ## Choosing the step -/

/-- `RRAStepInfo`. -/
structure RraStepInfo where
  pdpPerRow : Nat
  effectiveStep : Nat
  cf : Bytes
deriving DecidableEq, Repr

/-- A signed number as an `unsigned long`. -/
def toULong (z : Int) : Nat := (z % 2 ^ 64).toNat

/-- `(int)((range + step - 1) / step)` in unsigned arithmetic. -/
def numPoints (range : Int) (step : Nat) : Int :=
  toInt32 (toULong (range + step - 1) / step : Nat)

/-- The first loop of `select_step_from_rras`, with `optimal_step` and `best_num_points`. -/
def selectStepLoop (range : Int) (minStep : Nat) : List RraStepInfo → Nat → Int → Nat
  | [], optimal, _ => optimal
  | r :: rras, optimal, best =>
      if r.cf ≠ str "AVERAGE" ∨ r.effectiveStep < minStep then
        selectStepLoop range minStep rras optimal best
      else
        let step := r.effectiveStep
        let n := numPoints range step
        -- the first step with a fitting number of points ends the loop
        if 100 ≤ n ∧ n ≤ 2400 then step
        else if n < 100 ∧ (optimal = 0 ∨ best < n) then selectStepLoop range minStep rras step n
        else if 2400 < n ∧ (optimal = 0 ∨ step < optimal) then
          selectStepLoop range minStep rras step n
        else selectStepLoop range minStep rras optimal best

/-- `select_step_from_rras`. -/
def selectStepFromRras (rras : List RraStepInfo) (range period : Int) (baseStep : Nat) : Nat :=
  let optimal := selectStepLoop range baseStep rras 0 0
  let optimal :=
    if optimal = 0 ∧ range ≤ period then
      match rras.find? (fun r => r.cf == str "AVERAGE" && r.pdpPerRow == 1) with
      | some r => r.effectiveStep
      | none => 0
    else optimal
  if optimal = 0 then baseStep else optimal

/-! ## Reading the archives -/

/-- `RRAInfo`; an element that is still being filled has no `cf`. -/
structure RraInfo where
  pdpPerRow : Nat := 0
  rows : Nat := 0
  effectiveStep : Nat := 0
  cf : Bytes := []
  index : Int := 0
deriving DecidableEq, Repr

/-- The array `rras`: the elements below `rra_count`, and the one at `rra_count`. The array
has room for 20 elements (`readRrasInBounds`). -/
structure RraScan where
  filled : List RraInfo := []
  current : RraInfo := {}
deriving DecidableEq, Repr

/-- `strtol(s, &end, 10)` with `end`; the number is saturated, which sets `errno`. -/
def strtol (s : Bytes) : Int × Bytes :=
  let t := s.dropWhile isSpace
  let u := if startsWith t (str "-") || startsWith t (str "+") then t.drop 1 else t
  match strtoll s with
  | some z => (z, u.dropWhile isDigit)
  | none => (0, s)

/-- The index in a key that starts with `rra[`; a number out of range fails here too. -/
def rraIndex (key : Bytes) : Option Int :=
  if startsWith key (str "rra[") then
    let r := strtol (key.drop 4)
    if r.1 < 0 ∨ 20 ≤ r.1 ∨ startsWith r.2 (str "]") = false then none else some r.1
  else none

/-- One round of the loop that fills `rras`. -/
def rraScanStep (baseStep : Nat) (s : RraScan) (info : RrdInfo) : RraScan :=
  match rraIndex info.key with
  | none => s
  | some i =>
      if (strstr info.key (str ".pdp_per_row")).isSome then
        if info.uCnt = 0 then s
        else { s with current := { s.current with pdpPerRow := info.uCnt, index := i } }
      else if (strstr info.key (str ".rows")).isSome then
        { s with current := { s.current with rows := info.uCnt } }
      else if (strstr info.key (str ".cf")).isSome then
        let step := toULong (s.current.pdpPerRow * baseStep : Nat)
        let r := { s.current with effectiveStep := step, cf := info.uStr }
        -- a rejected element keeps its other fields and is filled further
        if step = 0 ∨ 1000000 < step then { s with current := { r with cf := [] } }
        else { filled := s.filled ++ [r], current := {} }
      else s

/-- The array `rras` for the list `rrd_info_r` returned. -/
def readRras (info : List RrdInfo) (baseStep : Nat) : List RraInfo :=
  (info.foldl (rraScanStep baseStep) {}).filled

/-- Whether a round writes to the element at `rra_count`. -/
def writesElement (info : RrdInfo) : Bool :=
  match rraIndex info.key with
  | none => false
  | some _ =>
      if (strstr info.key (str ".pdp_per_row")).isSome then info.uCnt != 0
      else (strstr info.key (str ".rows")).isSome || (strstr info.key (str ".cf")).isSome

/-- A round that fails where it would write behind the array. -/
def rraScanStepInBounds (baseStep : Nat) (s : RraScan) (info : RrdInfo) : Option RraScan :=
  if writesElement info && decide (20 ≤ s.filled.length) then none
  else some (rraScanStep baseStep s info)

/-- The array, if no round writes behind it. -/
def readRrasInBounds (info : List RrdInfo) (baseStep : Nat) : Option (List RraInfo) :=
  (info.foldlM (rraScanStepInBounds baseStep) {}).map (·.filled)

/-- `base_step` for that list. -/
def readBaseStep (info : List RrdInfo) (defaultStep : Nat) : Nat :=
  match info.find? (·.key == str "step") with
  | some i => i.uCnt
  | none => defaultStep

/-- The loop that looks for the first available timestamp. -/
def firstTimestamp (w : RrdWorld) (filename : Bytes) : List RraInfo → Int → Int
  | [], first => first
  | r :: rras, first =>
      if r.cf = str "AVERAGE" ∧ (first = -1 ∨ r.pdpPerRow = 1) then
        let ts := w.rrdFirst filename r.index
        if ts = -1 then firstTimestamp w filename rras first
        -- an archive of raw points settles it, another one only for the time being
        else if r.pdpPerRow = 1 then ts
        else firstTimestamp w filename rras ts
      else firstTimestamp w filename rras first

/-- `select_optimal_step`. -/
def selectOptimalStep (w : RrdWorld) (filename : Bytes) (start stop period : Int) : Nat :=
  let defaultStep := 15
  match w.rrdInfo filename with
  | none => defaultStep
  | some info =>
      let rras := readRras info (readBaseStep info defaultStep)
      let first := firstTimestamp w filename rras (-1)
      let first := if first = -1 then stop - period else first
      let start := if start < first then first else start
      let range := stop - start
      if range ≤ 0 then defaultStep
      else
        -- the step of the file is not passed on: the smallest step is the default one
        selectStepFromRras (rras.map fun r => ⟨r.pdpPerRow, r.effectiveStep, r.cf⟩) range period
          defaultStep

/-! ## Fetching -/

/-- `data[i * ds_cnt + ds]`. -/
def RrdFetch.value (f : RrdFetch) (i ds : Nat) : Double :=
  f.data.getD (i * f.dsNames.length + ds) (.nan false)

/-- A value, or zero for an unknown one. -/
def orZero (d : Double) : Double := if d.isNan then .fin 0 else d

/-- The sum of the first two data sources in a row. -/
def RrdFetch.total (f : RrdFetch) (i : Nat) : Double :=
  let total : Double := .fin 0
  let total := if 1 ≤ f.dsNames.length then total.add (orZero (f.value i 0)) else total
  if 2 ≤ f.dsNames.length then total.add (orZero (f.value i 1)) else total

/-- The points of the first `n` rows whose value is kept. -/
def RrdFetch.points (f : RrdFetch) (n : Nat) (value : Nat → Double) (keep : Double → Bool) :
    List DataPoint :=
  (List.range n).filterMap fun i =>
    if keep (value i) then some ⟨f.start + i * f.step, value i⟩ else none

/-- The series of a fetch, for a metric that is summed or not. -/
def RrdFetch.series (f : RrdFetch) (n : Nat) (doSum : Bool) : List Series :=
  if doSum then [⟨some (str "total"), f.points n f.total (·.nonneg)⟩]
  else
    f.dsNames.mapIdx fun ds name =>
      ⟨some name, f.points n (fun i => f.value i ds) fun v => !v.isNan && v.nonneg⟩

/-- Whether the fetch goes through the daemon at an address. -/
def useRrdcached (w : RrdWorld) (addr : Bytes) : Bool :=
  if addr = [] then false
  else if startsWith addr (str "unix:") && !w.access (addr.drop 5) then false
  else w.rrdcConnect addr

/-- Whether a metric is summed. -/
def MetricConfig.isSum (m : MetricConfig) : Bool := m.transformType == str "sum"

/-- The answer of librrd to the request of `rrd_fetch_data`. -/
def rrdAnswer (w : RrdWorld) (addr filename : Bytes) (start : Int) : Option RrdFetch :=
  let stop := w.time
  let step := selectOptimalStep w filename start stop (toInt32 (stop - start))
  if useRrdcached w addr then w.rrdcFetch filename (str "AVERAGE") start stop step
  else w.rrdFetch filename (str "AVERAGE") start stop step

/-- `rrd_fetch_data`. -/
def rrdFetchData (w : RrdWorld) (addr filename : Bytes) (start : Int) (param1 : Option Bytes)
    (metric : MetricConfig) : Option MetricData :=
  match rrdAnswer w addr filename start with
  | none => none
  | some f =>
      let n := numPoints (f.stop - f.start) f.step
      if n ≤ 0 then none
      else
        let series := f.series n.toNat metric.isSum
        if series.any (fun s => !s.points.isEmpty) then
          some ⟨series, some (param1.getD []), metric⟩
        else none

/-! ## What a fetch depends on -/

theorem RrdFetch.named_series (f : RrdFetch) (n : Nat) (doSum : Bool) :
    (f.series n doSum).all (·.name.isSome) = true := by
  unfold RrdFetch.series
  split
  · rfl
  · rw [List.all_eq_true]
    intro s hs
    obtain ⟨i, _, rfl⟩ := List.mem_mapIdx.mp hs
    rfl

section

variable {w : RrdWorld} {addr filename : Bytes} {start : Int} {param1 : Option Bytes}
  {metric : MetricConfig} {d : MetricData}

/-- A successful fetch, taken apart. -/
theorem rrdFetchData_some (h : rrdFetchData w addr filename start param1 metric = some d) :
    ∃ f, rrdAnswer w addr filename start = some f
      ∧ 0 < numPoints (f.stop - f.start) f.step
      ∧ d.series = f.series (numPoints (f.stop - f.start) f.step).toNat metric.isSum
      ∧ d.series.any (fun s => !s.points.isEmpty) = true
      ∧ d.param1 = some (param1.getD []) ∧ d.metricConfig = metric := by
  unfold rrdFetchData at h
  cases hf : rrdAnswer w addr filename start with
  | none => rw [hf] at h; exact absurd h (by simp)
  | some f =>
      rw [hf] at h
      dsimp only at h
      split at h
      · exact absurd h (by simp)
      · rename_i hn
        split at h
        · rename_i hany
          injection h with h
          subst h
          exact ⟨f, rfl, by omega, rfl, hany, rfl, rfl⟩
        · exact absurd h (by simp)

/-- Every series has a name. -/
theorem rrdFetchData_named (h : rrdFetchData w addr filename start param1 metric = some d) :
    d.series.all (·.name.isSome) = true := by
  obtain ⟨f, _, _, hs, _⟩ := rrdFetchData_some h
  rw [hs]
  exact f.named_series _ _

theorem rrdFetchData_param1 (h : rrdFetchData w addr filename start param1 metric = some d) :
    d.param1 = some (param1.getD []) := by
  obtain ⟨_, _, _, _, _, hp, _⟩ := rrdFetchData_some h
  exact hp

/-- **Two requests for one file and window get the same data**, if both metrics are sums or
neither is, and the parameters read the same. -/
theorem rrdFetchData_congr {param1' : Option Bytes} {metric' : MetricConfig}
    (hsum : metric.isSum = metric'.isSum) (hparam : param1.getD [] = param1'.getD [])
    (h : rrdFetchData w addr filename start param1 metric = some d) :
    rrdFetchData w addr filename start param1' metric' = some { d with metricConfig := metric' } := by
  obtain ⟨f, hf, hn, hs, hany, hp, _⟩ := rrdFetchData_some h
  unfold rrdFetchData
  rw [hf]
  dsimp only
  rw [if_neg (by omega), ← hsum, ← hs, if_pos hany, ← hparam, ← hp]

end

/-- Two worlds answer alike about one file, and about everything that is no file. -/
structure RrdWorld.AgreeOn (w w' : RrdWorld) (file : Bytes) : Prop where
  access : w.access = w'.access
  rrdcConnect : w.rrdcConnect = w'.rrdcConnect
  time : w.time = w'.time
  rrdInfo : w.rrdInfo file = w'.rrdInfo file
  rrdFirst : w.rrdFirst file = w'.rrdFirst file
  rrdcFetch : w.rrdcFetch file = w'.rrdcFetch file
  rrdFetch : w.rrdFetch file = w'.rrdFetch file

theorem firstTimestamp_agree {w w' : RrdWorld} {file : Bytes} (h : w.AgreeOn w' file)
    (rras : List RraInfo) : ∀ first, firstTimestamp w file rras first
      = firstTimestamp w' file rras first := by
  induction rras with
  | nil => exact fun _ => rfl
  | cons r rras ih =>
      intro first
      unfold firstTimestamp
      rw [h.rrdFirst]
      simp only [ih]

/-- **A fetch reads its own file only.** -/
theorem rrdFetchData_agree {w w' : RrdWorld} {file : Bytes} (h : w.AgreeOn w' file) (addr : Bytes)
    (start : Int) (param1 : Option Bytes) (metric : MetricConfig) :
    rrdFetchData w addr file start param1 metric
      = rrdFetchData w' addr file start param1 metric := by
  have hstep : ∀ stop period, selectOptimalStep w file start stop period
      = selectOptimalStep w' file start stop period := by
    intro stop period
    unfold selectOptimalStep
    rw [h.rrdInfo]
    simp only [firstTimestamp_agree h]
  have hdaemon : useRrdcached w addr = useRrdcached w' addr := by
    unfold useRrdcached
    rw [h.access, h.rrdcConnect]
  have hanswer : rrdAnswer w addr file start = rrdAnswer w' addr file start := by
    unfold rrdAnswer
    dsimp only
    rw [h.time, hstep, hdaemon, h.rrdcFetch, h.rrdFetch]
  unfold rrdFetchData
  rw [hanswer]

end Svgd.Backend
