import Svgd.Backend.Reader
import Svgd.Lib.DoubleSum

/-!
# The points of a fetch

What `rrd_fetch_data` makes of the matrix that librrd returns, with and without the sum.
Row `i` of the matrix holds the values of the interval that ends at `start + (i + 1) * step`;
the points are given the time at which it starts. A row in which nothing is known is left out
of a plain series, and is zero in a sum; and a sum stops at the second data source.
-/

namespace Svgd.Backend

open Lib

/-- What librrd returns: a window of whole steps, and a matrix with a row for each of them. -/
structure RrdFetch.IsMatrix (f : RrdFetch) (rows : Nat) : Prop where
  stop : f.stop = f.start + rows * f.step
  step : 1 ≤ f.step
  sources : 1 ≤ f.dsNames.length
  data : f.data.length = rows * f.dsNames.length

/-- A value is known, and not negative. -/
def isPoint (v : Double) : Bool := !v.isNan && v.nonneg

/-- A result without a single point is `NULL`. -/
def seriesOrNull (series : List Series) : Option (List Series) :=
  if series.any (fun s => !s.points.isEmpty) then some series else none

/-- The rows that are read. -/
def RrdFetch.readRows (f : RrdFetch) : Nat := (numPoints (f.stop - f.start) f.step).toNat

section

variable {f : RrdFetch} {rows n : Nat}

/-- The number of rows, as it is computed again from the window. -/
theorem RrdFetch.IsMatrix.readRows (h : f.IsMatrix rows) :
    f.readRows = (toInt32 ((rows * f.step + f.step - 1) % 2 ^ 64 / f.step : Nat)).toNat := by
  have hstep := h.step
  have hrange : f.stop - f.start + f.step - 1 = ((rows * f.step + f.step - 1 : Nat) : Int) := by
    rw [h.stop]
    push_cast [show 1 ≤ rows * f.step + f.step by omega]
    omega
  unfold RrdFetch.readRows numPoints toULong
  rw [hrange]
  norm_cast

theorem window_div (hstep : 1 ≤ f.step) : (rows * f.step + f.step - 1) / f.step = rows := by
  rw [Nat.div_eq_iff (by omega)]
  omega

/-- No more rows are read than there are. -/
theorem RrdFetch.IsMatrix.readRows_le (h : f.IsMatrix rows) : f.readRows ≤ rows := by
  have hle : (rows * f.step + f.step - 1) % 2 ^ 64 / f.step ≤ rows := by
    calc (rows * f.step + f.step - 1) % 2 ^ 64 / f.step
        ≤ (rows * f.step + f.step - 1) / f.step := Nat.div_le_div_right (Nat.mod_le _ _)
      _ = rows := window_div h.step
  rw [h.readRows]
  generalize (rows * f.step + f.step - 1) % 2 ^ 64 / f.step = k at hle
  unfold toInt32
  omega

/-- With fewer than 2^31 rows, all of them are read. -/
theorem RrdFetch.IsMatrix.readRows_eq (h : f.IsMatrix rows) (hrows : rows < 2 ^ 31)
    (hwindow : rows * f.step + f.step ≤ 2 ^ 64) : f.readRows = rows := by
  rw [h.readRows, Nat.mod_eq_of_lt (by have := h.step; omega), window_div h.step]
  unfold toInt32
  omega

end

/-- What a fetch returns, by what librrd answers. -/
theorem rrdFetchData_series {w : RrdWorld} {addr filename : Bytes} {start : Int} {f : RrdFetch}
    (param1 : Option Bytes) (metric : MetricConfig) (hf : rrdAnswer w addr filename start = some f) :
    (rrdFetchData w addr filename start param1 metric).map (·.series)
      = seriesOrNull (f.series f.readRows metric.isSum) := by
  unfold rrdFetchData
  rw [hf]
  dsimp only
  by_cases hn : numPoints (f.stop - f.start) f.step ≤ 0
  · -- no row is read, and every series is empty
    have hzero : f.readRows = 0 := by
      unfold RrdFetch.readRows
      omega
    have hnil : (f.series 0 metric.isSum).any (fun s => !s.points.isEmpty) = false := by
      unfold RrdFetch.series RrdFetch.points
      cases metric.isSum with
      | true => rfl
      | false =>
          rw [if_neg (by decide), List.any_eq_false]
          intro s hs
          obtain ⟨ds, _, rfl⟩ := List.mem_mapIdx.mp hs
          simp
    rw [if_pos hn, hzero, seriesOrNull, if_neg (by rw [hnil]; decide), Option.map_none]
  · rw [if_neg hn, seriesOrNull, RrdFetch.readRows]
    split
    · rfl
    · rfl

-- from here on only its bound matters, and unfolding it would evaluate 2 ^ 64
attribute [irreducible] RrdFetch.readRows

/-- A result is `NULL` exactly if no series has a point. -/
theorem seriesOrNull_eq_none {series : List Series} :
    seriesOrNull series = none ↔ ∀ s ∈ series, s.points = [] := by
  unfold seriesOrNull
  split
  · rename_i h
    refine ⟨fun h' => absurd h' (by simp), fun h' => ?_⟩
    obtain ⟨s, hs, hne⟩ := List.any_eq_true.mp h
    rw [h' s hs] at hne
    exact absurd hne (by decide)
  · rename_i h
    refine ⟨fun _ s hs => ?_, fun _ => rfl⟩
    by_contra hne
    exact h (List.any_eq_true.mpr ⟨s, hs, by simpa using hne⟩)

theorem seriesOrNull_some {series series' : List Series}
    (h : seriesOrNull series = some series') : series' = series := by
  unfold seriesOrNull at h
  split at h
  · exact (Option.some.inj h).symm
  · exact absurd h (by simp)

/-- The points of the rows that are kept. -/
theorem mem_kept {n : Nat} {keep : Nat → Bool} {point : Nat → DataPoint} {p : DataPoint} :
    p ∈ (List.range n).filterMap (fun i => if keep i then some (point i) else none)
      ↔ ∃ i < n, keep i = true ∧ p = point i := by
  rw [List.mem_filterMap]
  constructor
  · rintro ⟨i, hi, h⟩
    split at h
    · rename_i hkeep
      exact ⟨i, List.mem_range.mp hi, hkeep, (Option.some.inj h).symm⟩
    · exact absurd h (by simp)
  · rintro ⟨i, hi, hkeep, rfl⟩
    exact ⟨i, List.mem_range.mpr hi, if_pos hkeep⟩

theorem mem_points {f : RrdFetch} {n : Nat} {value : Nat → Double} {keep : Double → Bool}
    {p : DataPoint} : p ∈ f.points n value keep
      ↔ ∃ i < n, keep (value i) = true ∧ p = ⟨f.start + i * f.step, value i⟩ := mem_kept

/-! ## The time of a row -/

/-- The points of a data source, each at the end of its interval. -/
def RrdFetch.intervalPoints (f : RrdFetch) (rows ds : Nat) : List DataPoint :=
  (List.range rows).filterMap fun i =>
    if isPoint (f.value i ds) then some ⟨f.start + (i + 1) * f.step, f.value i ds⟩ else none

/-- The series of the matrix, one for each data source and under its name. -/
def RrdFetch.intervalSeries (f : RrdFetch) (rows : Nat) : List Series :=
  f.dsNames.mapIdx fun ds name => ⟨some name, f.intervalPoints rows ds⟩

section

variable {f : RrdFetch} {rows : Nat}

theorem mem_intervalPoints {ds : Nat} {p : DataPoint} : p ∈ f.intervalPoints rows ds
    ↔ ∃ i < rows, isPoint (f.value i ds) = true ∧ p = ⟨f.start + (i + 1) * f.step, f.value i ds⟩ :=
  mem_kept

/-- If the points of a data source were at the ends of their intervals, there would be no last
one. -/
theorem no_point_of_eq (h : f.IsMatrix rows) {ds : Nat}
    (heq : f.points f.readRows (fun i => f.value i ds) isPoint = f.intervalPoints rows ds) :
    ∀ i < rows, isPoint (f.value i ds) = false := by
  have hread := h.readRows_le
  have hnext : ∀ i, i < rows ∧ isPoint (f.value i ds) = true →
      i + 1 < rows ∧ isPoint (f.value (i + 1) ds) = true := by
    rintro i ⟨hi, hpoint⟩
    have hmem : ⟨f.start + (i + 1) * f.step, f.value i ds⟩ ∈ f.intervalPoints rows ds :=
      mem_intervalPoints.mpr ⟨i, hi, hpoint, rfl⟩
    rw [← heq] at hmem
    obtain ⟨j, hj, hkeep, hp⟩ := mem_points.mp hmem
    obtain ⟨htime, -⟩ := DataPoint.mk.inj hp
    -- a row is found again at the time at which its interval ends
    have hrow : (i : Int) + 1 = j := by
      have hstep : (f.step : Int) ≠ 0 := by have := h.step; omega
      exact Int.eq_of_mul_eq_mul_right hstep (by omega)
    obtain rfl : j = i + 1 := by omega
    exact ⟨by omega, hkeep⟩
  intro i hi
  by_contra hne
  have hall : ∀ k, i + k < rows ∧ isPoint (f.value (i + k) ds) = true := by
    intro k
    induction k with
    | zero => exact ⟨hi, by simpa using hne⟩
    | succ k ih => exact hnext _ ih
  have := (hall rows).1
  omega

/--
**The points of a plain metric are one step early.**

For every fetch, the series are those of librrd's intervals only if there is no known and
non-negative value at all; then there is no result, as there should be.
-/
theorem rrd_interval_iff {w : RrdWorld} {addr filename : Bytes} {start : Int}
    {param1 : Option Bytes} {metric : MetricConfig} (hsum : metric.isSum = false)
    (hf : rrdAnswer w addr filename start = some f) (h : f.IsMatrix rows) :
    (rrdFetchData w addr filename start param1 metric).map (·.series)
        = seriesOrNull (f.intervalSeries rows)
      ↔ ∀ ds < f.dsNames.length, ∀ i < rows, isPoint (f.value i ds) = false := by
  have hseries : f.series f.readRows false
      = f.dsNames.mapIdx fun ds name =>
          ⟨some name, f.points f.readRows (fun i => f.value i ds) isPoint⟩ := rfl
  rw [rrdFetchData_series param1 metric hf, hsum, hseries]
  constructor
  · intro heq ds hds
    cases hnull : seriesOrNull (f.intervalSeries rows) with
    | none =>
        have hnil : f.intervalPoints rows ds = [] :=
          seriesOrNull_eq_none.mp hnull _ (List.mem_mapIdx.mpr ⟨ds, hds, rfl⟩)
        intro i hi
        by_contra hne
        have hmem := mem_intervalPoints.mpr ⟨i, hi, by simpa using hne, rfl⟩
        rw [hnil] at hmem
        exact absurd hmem (by simp)
    | some series =>
        rw [hnull] at heq
        have hsame := (seriesOrNull_some heq).symm.trans (seriesOrNull_some hnull)
        have hat := congrArg (·[ds]?) hsame
        simp only [RrdFetch.intervalSeries, List.getElem?_mapIdx, List.getElem?_eq_getElem hds,
          Option.map_some, Option.some.injEq, Series.mk.injEq, true_and] at hat
        exact no_point_of_eq h hat
  · intro hnone
    have hread := h.readRows_le
    rw [seriesOrNull_eq_none.mpr, seriesOrNull_eq_none.mpr]
    · intro s hs
      obtain ⟨ds, hds, rfl⟩ := List.mem_mapIdx.mp hs
      rw [List.eq_nil_iff_forall_not_mem]
      intro p hp
      obtain ⟨i, hi, hpoint, -⟩ := mem_intervalPoints.mp hp
      rw [hnone ds hds i hi] at hpoint
      exact absurd hpoint (by decide)
    · intro s hs
      obtain ⟨ds, hds, rfl⟩ := List.mem_mapIdx.mp hs
      rw [List.eq_nil_iff_forall_not_mem]
      intro p hp
      obtain ⟨i, hi, hpoint, -⟩ := mem_points.mp hp
      rw [hnone ds hds i (Nat.lt_of_lt_of_le hi hread)] at hpoint
      exact absurd hpoint (by decide)

end

/-- A world in which librrd answers every fetch alike. -/
def answering (f : RrdFetch) : RrdWorld where
  access _ := true
  rrdcConnect _ := false
  time := 100
  rrdInfo _ := none
  rrdFirst _ _ := -1
  rrdcFetch _ _ _ _ _ := none
  rrdFetch _ _ _ _ _ := some f

/-- Without a known value there is no result. -/
theorem rrd_interval_unknown :
    (rrdFetchData (answering ⟨60, 90, 15, [str "value"], [.nan false, .nan false]⟩) []
        (str "load.rrd") 0 none { endpoint := str "load" }).map (·.series)
      = seriesOrNull ((⟨60, 90, 15, [str "value"], [.nan false, .nan false]⟩
          : RrdFetch).intervalSeries 2) := by
  have hmatrix : (⟨60, 90, 15, [str "value"], [.nan false, .nan false]⟩ : RrdFetch).IsMatrix 2 :=
    ⟨by decide, by decide, by decide, by decide⟩
  refine (rrd_interval_iff (by decide) rfl hmatrix).mpr ?_
  intro ds hds i hi
  obtain rfl : ds = 0 := Nat.lt_one_iff.mp hds
  match i, hi with
  | 0, _ => rfl
  | 1, _ => rfl

/-- The value of the quarter of a minute that ends at 75 is drawn at 60. -/
theorem rrd_point_early :
    let f : RrdFetch := ⟨60, 75, 15, [str "value"], [.fin 1]⟩
    f.IsMatrix 1
      ∧ (rrdFetchData (answering f) [] (str "load.rrd") 0 none { endpoint := str "load" }).map (·.series)
        = some [⟨some (str "value"), [⟨60, .fin 1⟩]⟩]
      ∧ seriesOrNull (f.intervalSeries 1) = some [⟨some (str "value"), [⟨75, .fin 1⟩]⟩] := by
  refine ⟨⟨by decide, by decide, by decide, by decide⟩, ?_, ?_⟩
  · decide +kernel
  · decide +kernel

/-! ## The sum of a row -/

/-- The known values of the first `n` data sources in a row. -/
def RrdFetch.known (f : RrdFetch) (n i : Nat) : List Double :=
  ((List.range n).map (f.value i)).filter fun v => !v.isNan

/-- The known values of a row. -/
def RrdFetch.rowValues (f : RrdFetch) (i : Nat) : List Double := f.known f.dsNames.length i

/-- The point of a row: its sum, if anything is known and the sum is not negative. -/
def RrdFetch.sumPoint (f : RrdFetch) (i : Nat) : Option DataPoint :=
  if f.rowValues i = [] then none
  else if (Double.exactSum (f.rowValues i)).nonneg then
    some ⟨f.start + i * f.step, Double.exactSum (f.rowValues i)⟩
  else none

/-- The series `total`. -/
def RrdFetch.totalSeries (f : RrdFetch) (rows : Nat) : List Series :=
  [⟨some (str "total"), (List.range rows).filterMap f.sumPoint⟩]

/-- The points of a result as they compare, with one zero. -/
def pointLists (d : MetricData) : List (List (Int × Double)) :=
  d.series.map fun s => s.points.map fun p => (p.timestamp, p.value.unsigned)

/-- The sum is the sum of the rows, and with one data source the data source. -/
structure SumAgrees (sum plain : Option MetricData) (f : RrdFetch) (rows : Nat) : Prop where
  total : sum.map (·.series) = seriesOrNull (f.totalSeries rows)
  single : f.dsNames.length = 1 → sum.map pointLists = plain.map pointLists

/-- Two sums that are the same point, or both negative. -/
def SamePoint (a b : Double) : Prop := a = b ∨ (a.nonneg = false ∧ b.nonneg = false)

/-- Nothing in the matrix tells the sum of the first two data sources from the sum: in each row
something is known, and the other data sources do not change the sum. Rows that are not read,
which there are from 2^31 rows on, have no point. -/
def SumWhole (f : RrdFetch) (rows : Nat) : Prop :=
  ∀ i < rows, if i < f.readRows then
      f.rowValues i ≠ [] ∧ SamePoint (Double.exactSum (f.known (min 2 f.dsNames.length) i))
        (Double.exactSum (f.rowValues i))
    else f.sumPoint i = none

section

variable {f : RrdFetch}

theorem value_mem (f : RrdFetch) (i ds : Nat) : f.value i ds ∈ f.data ∨ f.value i ds = .nan false := by
  unfold RrdFetch.value
  rw [List.getD_eq_getElem?_getD]
  rcases hat : f.data[i * f.dsNames.length + ds]? with _ | v
  · exact Or.inr rfl
  · exact Or.inl (List.mem_of_getElem? hat)

theorem value_isBinary64 (h : ∀ v ∈ f.data, v.IsBinary64) (i ds : Nat) : (f.value i ds).IsBinary64 := by
  rcases value_mem f i ds with hm | hnan
  · exact h _ hm
  · rw [hnan]
    trivial

/-- **The code adds the known values of the first two data sources.** -/
theorem total_eq (h : ∀ v ∈ f.data, v.IsBinary64) (hds : 1 ≤ f.dsNames.length) (i : Nat) :
    f.total i = Double.exactSum (f.known (min 2 f.dsNames.length) i) := by
  have h0 := value_isBinary64 h i 0
  have h1 := value_isBinary64 h i 1
  have hzero : (Double.fin 0).add (.fin 0) = .fin 0 :=
    Double.unsigned_add_zero (a := .negZero) rfl trivial
  unfold RrdFetch.total
  dsimp only
  rw [if_pos hds]
  unfold orZero
  by_cases htwo : 2 ≤ f.dsNames.length
  · have hknown : f.known (min 2 f.dsNames.length) i
        = [f.value i 0, f.value i 1].filter fun v => !v.isNan := by
      rw [Nat.min_eq_left htwo]
      rfl
    rw [if_pos htwo, hknown]
    generalize f.value i 0 = a at h0
    generalize f.value i 1 = b at h1
    rcases ha : a.isNan with _ | _
    · rcases hb : b.isNan with _ | _
      · simp only [ha, hb, List.filter_cons, Bool.not_false, if_true, List.filter_nil,
          Bool.false_eq_true, if_false]
        rw [Double.fin_zero_add ha h0, Double.exactSum_pair ha hb h0 h1]
      · simp only [ha, hb, List.filter_cons, Bool.not_false, Bool.not_true, if_true, List.filter_nil,
          Bool.false_eq_true, if_false]
        rw [Double.fin_zero_add ha h0, Double.unsigned_add_zero ha h0, Double.exactSum_singleton ha h0]
    · rcases hb : b.isNan with _ | _
      · simp only [ha, hb, List.filter_cons, Bool.not_false, Bool.not_true, if_true, List.filter_nil,
          Bool.false_eq_true, if_false]
        rw [hzero, Double.fin_zero_add hb h1, Double.exactSum_singleton hb h1]
      · simp only [ha, hb, List.filter_cons, Bool.not_true, if_true, List.filter_nil,
          Bool.false_eq_true, if_false]
        rw [hzero, hzero, Double.exactSum_nil]
  · have hone : f.dsNames.length = 1 := by omega
    have hknown : f.known (min 2 f.dsNames.length) i
        = [f.value i 0].filter fun v => !v.isNan := by
      rw [hone]
      rfl
    rw [if_neg htwo, hknown]
    generalize f.value i 0 = a at h0
    rcases ha : a.isNan with _ | _
    · simp only [ha, List.filter_cons, Bool.not_false, if_true, List.filter_nil,
        Bool.false_eq_true, if_false]
      rw [Double.fin_zero_add ha h0, Double.exactSum_singleton ha h0]
    · simp only [ha, List.filter_cons, Bool.not_true, if_true, List.filter_nil,
        Bool.false_eq_true, if_false]
      rw [hzero, Double.exactSum_nil]

/-- Lists of points that are marked with their rows agree row by row. -/
theorem filterMap_eq_iff_of_mark {α β γ : Type*} {g h : α → Option β} (mark : β → γ) {tag : α → γ}
    (htag : Function.Injective tag) (hg : ∀ i p, g i = some p → mark p = tag i)
    (hh : ∀ i p, h i = some p → mark p = tag i) {l : List α} :
    l.filterMap g = l.filterMap h ↔ ∀ i ∈ l, g i = h i := by
  constructor
  · intro heq i hi
    have hfind : ∀ {g h : α → Option β}, (∀ i p, g i = some p → mark p = tag i) →
        (∀ i p, h i = some p → mark p = tag i) → l.filterMap g = l.filterMap h →
        ∀ p, g i = some p → h i = some p := by
      intro g h hg hh heq p hp
      have hmem : p ∈ l.filterMap h := by
        rw [← heq]
        exact List.mem_filterMap.mpr ⟨i, hi, hp⟩
      obtain ⟨j, -, hj⟩ := List.mem_filterMap.mp hmem
      obtain rfl : j = i := htag ((hh j p hj).symm.trans (hg i p hp))
      exact hj
    rcases hgi : g i with _ | p
    · rcases hhi : h i with _ | p
      · rfl
      · rw [hfind hh hg heq.symm p hhi] at hgi
        exact absurd hgi (by simp)
    · exact (hfind hg hh heq p hgi).symm
  · exact fun hall => List.filterMap_congr hall

/-- The rows behind the first `n` give nothing. -/
theorem filterMap_range_take {β : Type*} {n rows : Nat} (hn : n ≤ rows) (g : Nat → Option β) :
    (List.range n).filterMap g
      = (List.range rows).filterMap fun i => if i < n then g i else none := by
  obtain ⟨k, rfl⟩ := Nat.exists_eq_add_of_le hn
  rw [List.range_add, List.filterMap_append]
  have hfront : (List.range n).filterMap (fun i => if i < n then g i else none)
      = (List.range n).filterMap g :=
    List.filterMap_congr fun i hi => if_pos (List.mem_range.mp hi)
  have hback : ((List.range k).map (n + ·)).filterMap (fun i => if i < n then g i else none) = [] := by
    rw [List.filterMap_eq_nil_iff]
    intro i hi
    obtain ⟨j, -, rfl⟩ := List.mem_map.mp hi
    exact if_neg (by omega)
  rw [hfront, hback, List.append_nil]

theorem seriesOrNull_single {name : Option Bytes} {ps qs : List DataPoint} :
    seriesOrNull [⟨name, ps⟩] = seriesOrNull [⟨name, qs⟩] ↔ ps = qs := by
  constructor
  · intro h
    cases hps : seriesOrNull [⟨name, ps⟩] with
    | none =>
        rw [hps] at h
        have h1 : ps = [] := seriesOrNull_eq_none.mp hps ⟨name, ps⟩ (by simp)
        have h2 : qs = [] := seriesOrNull_eq_none.mp h.symm ⟨name, qs⟩ (by simp)
        rw [h1, h2]
    | some series =>
        have h1 := seriesOrNull_some hps
        have h2 := seriesOrNull_some (h.symm.trans hps)
        have h12 := h1.symm.trans h2
        rw [List.cons.injEq, Series.mk.injEq] at h12
        exact h12.1.2
  · rintro rfl
    rfl

/-- Nothing is known of the first data sources if nothing is known of all. -/
theorem known_eq_nil {n i : Nat} (hn : n ≤ f.dsNames.length) (h : f.rowValues i = []) :
    f.known n i = [] := by
  unfold RrdFetch.rowValues at h
  unfold RrdFetch.known at h ⊢
  rw [List.filter_eq_nil_iff] at h ⊢
  intro v hv
  obtain ⟨ds, hds, rfl⟩ := List.mem_map.mp hv
  have hlt := List.mem_range.mp hds
  exact h _ (List.mem_map.mpr ⟨ds, List.mem_range.mpr (by omega), rfl⟩)

/-- When the code has the point of a row. -/
theorem row_iff (h : ∀ v ∈ f.data, v.IsBinary64) (hds : 1 ≤ f.dsNames.length) (i : Nat) :
    (if (f.total i).nonneg then some (⟨f.start + i * f.step, f.total i⟩ : DataPoint) else none)
        = f.sumPoint i
      ↔ f.rowValues i ≠ [] ∧ SamePoint (Double.exactSum (f.known (min 2 f.dsNames.length) i))
        (Double.exactSum (f.rowValues i)) := by
  rw [total_eq h hds]
  unfold RrdFetch.sumPoint SamePoint
  by_cases hnil : f.rowValues i = []
  · -- the code takes an empty row for zero
    rw [known_eq_nil (Nat.min_le_right _ _) hnil, if_pos hnil, Double.exactSum_nil]
    refine ⟨fun heq => absurd heq (by simp [Double.nonneg]), fun heq => absurd hnil heq.1⟩
  · rw [if_neg hnil]
    generalize Double.exactSum (f.known (min 2 f.dsNames.length) i) = a
    generalize Double.exactSum (f.rowValues i) = b
    rcases ha : a.nonneg with _ | _
    · rcases hb : b.nonneg with _ | _
      · simp [hnil]
      · have hne : a ≠ b := by
          rintro rfl
          rw [ha] at hb
          exact absurd hb (by decide)
        simp [hne]
    · rcases hb : b.nonneg with _ | _
      · have hne : a ≠ b := by
          rintro rfl
          rw [ha] at hb
          exact absurd hb (by decide)
        simp [hne]
      · simp [hnil]

variable {rows : Nat}

/-- The sum of the code is the sum of the rows if it is so for every row. -/
theorem total_points_iff (hm : f.IsMatrix rows) (h : ∀ v ∈ f.data, v.IsBinary64) :
    seriesOrNull (f.series f.readRows true) = seriesOrNull (f.totalSeries rows) ↔ SumWhole f rows := by
  have hstep : (f.step : Int) ≠ 0 := by have := hm.step; omega
  have htag : Function.Injective fun i : Nat => f.start + i * f.step := by
    intro i j hij
    have : (i : Int) = j := Int.eq_of_mul_eq_mul_right hstep (by dsimp only at hij; omega)
    omega
  have hseries : f.series f.readRows true = [⟨some (str "total"), (List.range f.readRows).filterMap
      fun i => if (f.total i).nonneg then some ⟨f.start + i * f.step, f.total i⟩ else none⟩] := rfl
  rw [hseries, RrdFetch.totalSeries, seriesOrNull_single, filterMap_range_take hm.readRows_le,
    filterMap_eq_iff_of_mark DataPoint.timestamp htag]
  · unfold SumWhole
    constructor
    · intro hall i hi
      have hrow := hall i (List.mem_range.mpr hi)
      split
      · rename_i hread
        rw [if_pos hread] at hrow
        exact (row_iff h hm.sources i).mp hrow
      · rename_i hread
        rw [if_neg hread] at hrow
        exact hrow.symm
    · intro hall i hi
      have hrow := hall i (List.mem_range.mp hi)
      split at hrow
      · rename_i hread
        rw [if_pos hread]
        exact (row_iff h hm.sources i).mpr hrow
      · rename_i hread
        rw [if_neg hread, hrow]
  · intro i p hp
    split at hp
    · split at hp
      · rw [← Option.some.inj hp]
      · exact absurd hp (by simp)
    · exact absurd hp (by simp)
  · intro i p hp
    unfold RrdFetch.sumPoint at hp
    split at hp
    · exact absurd hp (by simp)
    · split at hp
      · rw [← Option.some.inj hp]
      · exact absurd hp (by simp)

/-- The points of a single series, as they compare. -/
theorem pointLists_single {r : Option MetricData} {name : Option Bytes} {ps : List DataPoint}
    (h : r.map (·.series) = seriesOrNull [⟨name, ps⟩]) :
    r.map pointLists = if ps = [] then none
      else some [ps.map fun p => (p.timestamp, p.value.unsigned)] := by
  have hlists : r.map pointLists = (r.map (·.series)).map
      fun series => series.map fun s => s.points.map fun p => (p.timestamp, p.value.unsigned) := by
    rw [Option.map_map]
    rfl
  rw [hlists, h]
  unfold seriesOrNull
  cases ps with
  | nil => rfl
  | cons p ps => rfl

/-- With one data source and no unknown row, both paths have the same points. -/
theorem single_points_eq (h : ∀ v ∈ f.data, v.IsBinary64) (hone : f.dsNames.length = 1) {n : Nat}
    (hknown : ∀ i < n, (f.value i 0).isNan = false) :
    (f.points n f.total (·.nonneg)).map (fun p => (p.timestamp, p.value.unsigned))
      = (f.points n (fun i => f.value i 0) isPoint).map fun p => (p.timestamp, p.value.unsigned) := by
  unfold RrdFetch.points
  rw [List.map_filterMap, List.map_filterMap]
  apply List.filterMap_congr
  intro i hi
  have hi' := hknown i (List.mem_range.mp hi)
  have htotal : f.total i = (f.value i 0).unsigned := by
    have hrow : f.known (min 2 f.dsNames.length) i = [f.value i 0] := by
      have hv : f.known (min 2 f.dsNames.length) i = [f.value i 0].filter fun v => !v.isNan := by
        rw [hone]
        rfl
      rw [hv, List.filter_cons_of_pos (by simp [hi'])]
      rfl
    rw [total_eq h (by omega), hrow, Double.exactSum_singleton hi' (value_isBinary64 h i 0)]
  have hpoint : isPoint (f.value i 0) = (f.value i 0).nonneg := by
    unfold isPoint
    rw [hi']
    rfl
  rw [htotal]
  dsimp only
  by_cases hkeep : (f.value i 0).nonneg = true
  · rw [if_pos ((Double.nonneg_unsigned _).trans hkeep), if_pos (hpoint.trans hkeep)]
    simp
  · have hdrop : ¬(f.value i 0).unsigned.nonneg = true := by
      rw [Double.nonneg_unsigned]
      exact hkeep
    have hdrop' : ¬isPoint (f.value i 0) = true := by
      rw [hpoint]
      exact hkeep
    rw [if_neg hdrop, if_neg hdrop']

/--
**When the sum is the sum of a row.**

The series `total` has the exact sum of the known values of each row, nothing for an unknown row,
and with one data source the points of the plain path, exactly if something is known in every row
and the third and later data sources do not change a sum.
-/
theorem sum_agrees_iff {w : RrdWorld} {addr filename : Bytes} {start : Int} {param1 : Option Bytes}
    {sum plain : MetricConfig} (hsum : sum.isSum = true) (hplain : plain.isSum = false)
    (hf : rrdAnswer w addr filename start = some f) (hm : f.IsMatrix rows)
    (h : ∀ v ∈ f.data, v.IsBinary64) :
    SumAgrees (rrdFetchData w addr filename start param1 sum)
        (rrdFetchData w addr filename start param1 plain) f rows
      ↔ SumWhole f rows := by
  have htotal := rrdFetchData_series param1 sum hf
  have hseries := rrdFetchData_series param1 plain hf
  rw [hsum] at htotal
  rw [hplain] at hseries
  constructor
  · intro hagrees
    rw [← total_points_iff hm h, ← htotal]
    exact hagrees.total
  · intro hwhole
    refine ⟨htotal.trans ((total_points_iff hm h).mpr hwhole), fun hone => ?_⟩
    obtain ⟨name, hname⟩ := List.length_eq_one_iff.mp hone
    have hread := hm.readRows_le
    have hknown : ∀ i < f.readRows, (f.value i 0).isNan = false := by
      intro i hi
      have hrow := hwhole i (Nat.lt_of_lt_of_le hi hread)
      rw [if_pos hi] at hrow
      by_contra hnan
      apply hrow.1
      have hv : f.rowValues i = [f.value i 0].filter fun v => !v.isNan := by
        unfold RrdFetch.rowValues
        rw [hone]
        rfl
      rw [hv, List.filter_cons_of_neg (by simpa using hnan)]
      rfl
    have hplainSeries : f.series f.readRows false
        = [⟨some name, f.points f.readRows (fun i => f.value i 0) isPoint⟩] := by
      unfold RrdFetch.series
      rw [hname]
      rfl
    rw [hplainSeries] at hseries
    rw [pointLists_single htotal, pointLists_single hseries]
    have hpoints := single_points_eq h hone hknown
    have hnil : f.points f.readRows f.total (·.nonneg) = []
        ↔ f.points f.readRows (fun i => f.value i 0) isPoint = [] := by
      rw [← List.map_eq_nil_iff (f := fun p : DataPoint => (p.timestamp, p.value.unsigned)), hpoints,
        List.map_eq_nil_iff]
    by_cases hempty : f.points f.readRows (fun i => f.value i 0) isPoint = []
    · rw [if_pos hempty, if_pos (hnil.mpr hempty)]
    · rw [if_neg hempty, if_neg (fun hp => hempty (hnil.mp hp)), hpoints]

end

/-- A metric that is summed, and one of the same file that is not. -/
def sumMetric : MetricConfig := { endpoint := str "net", transformType := str "sum" }

def plainMetric : MetricConfig := { endpoint := str "net" }

/-- A row in which one of two data sources is known is summed. -/
theorem sum_agrees_one_known :
    SumAgrees
      (rrdFetchData (answering ⟨60, 75, 15, [str "rx", str "tx"], [.fin 1, .nan false]⟩) []
        (str "net.rrd") 0 none sumMetric)
      (rrdFetchData (answering ⟨60, 75, 15, [str "rx", str "tx"], [.fin 1, .nan false]⟩) []
        (str "net.rrd") 0 none plainMetric)
      ⟨60, 75, 15, [str "rx", str "tx"], [.fin 1, .nan false]⟩ 1 := by
  have hmatrix : (⟨60, 75, 15, [str "rx", str "tx"], [.fin 1, .nan false]⟩ : RrdFetch).IsMatrix 1 :=
    ⟨by decide, by decide, by decide, by decide⟩
  have hone : Double.round 1 = .fin 1 := by decide +kernel
  refine (sum_agrees_iff (by decide) (by decide) rfl hmatrix ?_).mpr ?_
  · intro v hv
    rcases List.mem_cons.mp hv with rfl | hv
    · exact hone
    · rw [List.mem_singleton.mp hv]
      trivial
  · intro i hi
    obtain rfl : i = 0 := Nat.lt_one_iff.mp hi
    rw [if_pos (by rw [hmatrix.readRows_eq (by decide) (by decide)]; exact hi)]
    exact ⟨by decide, Or.inl rfl⟩

/-- A row in which nothing is known is summed to zero. -/
theorem unknown_row_summed :
    let f : RrdFetch := ⟨60, 75, 15, [str "value"], [.nan false]⟩
    let fetch := rrdFetchData (answering f) [] (str "net.rrd") 0 none
    f.IsMatrix 1
      ∧ (fetch sumMetric).map (·.series) = some [⟨some (str "total"), [⟨60, .fin 0⟩]⟩]
      ∧ fetch plainMetric = none
      ∧ ¬SumAgrees (fetch sumMetric) (fetch plainMetric) f 1 := by
  intro f fetch
  have hsum : (fetch sumMetric).map (·.series) = some [⟨some (str "total"), [⟨60, .fin 0⟩]⟩] := by
    decide +kernel
  have hnone : seriesOrNull (f.totalSeries 1) = none := by decide +kernel
  refine ⟨⟨by decide, by decide, by decide, by decide⟩, hsum, by decide +kernel, fun hagrees => ?_⟩
  rw [hagrees.total, hnone] at hsum
  exact absurd hsum (by simp)

end Svgd.Backend
