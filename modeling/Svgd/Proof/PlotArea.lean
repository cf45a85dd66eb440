import Svgd.Panel.GenerateSvg
import Svgd.Lib.JsExact
import Svgd.Backend.Handler
import Mathlib.Tactic.Linarith
import Mathlib.Tactic.FieldSimp
import Mathlib.Tactic.NormNum

/-!
# The area of the plot

In exact arithmetic every point that is drawn lies inside the plot. The handler keeps the sizes
within bounds that leave room between the margins. The loop over all points leaves the least and
the greatest time, and around the values there is always some padding: a tenth of their span, or
of their size if there is no span, or one. So the range is positive as soon as its upper end is
above a value that is drawn, whatever the transformation does to the values.
-/

namespace Svgd.Panel

open Lib Lib.Js

/-! ## Places -/

section

variable {N : Type} [Num N]

/-- The place of a time. -/
def Plot.x (g : Plot N) (d : Point N) : N :=
  g.graphWidth * (d.timestamp - g.minTime) / g.timeRange

/-- The place of a value. -/
def Plot.y (g : Plot N) (d : Point N) : N :=
  g.graphHeight * (num 1 - (Num.min g.maxVal (Num.max g.minVal d.value) - g.minVal) / g.valueRange)

/-- The places are what is printed. -/
theorem Plot.texts (g : Plot N) (d : Point N) :
    g.xText d = toFixed 2 (g.x d) ∧ g.yText d = toFixed 2 (g.y d) := ⟨rfl, rfl⟩

/-- What the script divides by: a divisor of the options, the steps of the grid, the number of
series, the mean number of points, the time the plot spans, and the two. -/
def divisors (options : PanelOptions N) (series : List (Series N)) : List N :=
  [options.divisor, num 5, num 100, xSteps (plot options series), len series,
    len (rangeData options series) / len series, (plot options series).timeRange, num 2]

end

/-- What a fetch delivers: whole seconds, and finite values that are not negative. -/
structure Delivered (series : List (Series Exact)) : Prop where
  nonempty : series ≠ []
  points : ∀ s ∈ series, ∀ d ∈ s.data, ∃ (t : Int) (v : ℚ), 0 ≤ v ∧ d = ⟨.fin t, .fin v⟩

/-- A point is inside the plot, and the plot has a height to place it in. -/
structure Plot.Inside (g : Plot Exact) (d : Point Exact) : Prop where
  valueRange : ∃ r : ℚ, g.valueRange = .fin r ∧ r ≠ 0
  x : ∃ x w : ℚ, g.x d = .fin x ∧ g.graphWidth = .fin w ∧ 0 ≤ x ∧ x ≤ w
  y : ∃ y h : ℚ, g.y d = .fin y ∧ g.graphHeight = .fin h ∧ 0 ≤ y ∧ y ≤ h

/-- The chart is drawn within its plot, and nothing is divided by zero. -/
structure DrawnInside (options : PanelOptions Exact) (series : List (Series Exact)) : Prop where
  graphWidth : ∃ w : ℚ, (plot options series).graphWidth = .fin w ∧ 0 < w
  graphHeight : ∃ h : ℚ, (plot options series).graphHeight = .fin h ∧ 0 < h
  timeRange : ∃ r : ℚ, (plot options series).timeRange = .fin r ∧ 0 < r
  points : ∀ s ∈ series, ∀ d ∈ validData options s, (plot options series).Inside d
  divisors : ∀ x ∈ divisors options series, ∃ q : ℚ, x = .fin q ∧ q ≠ 0

/-! ## The values -/

section

variable {options : PanelOptions Exact}

/-- A factor that is missing or zero is one. -/
theorem orNum_one {o : Option Exact} {m : Option ℚ} (h : o = m.map .fin) :
    ∃ q : ℚ, orNum o (num 1) = .fin q ∧ q ≠ 0 := by
  rw [h]
  cases m with
  | none => exact ⟨1, rfl, one_ne_zero⟩
  | some q =>
      by_cases hq : q = 0
      · rw [hq]
        exact ⟨1, Exact.orNum_zero _, one_ne_zero⟩
      · exact ⟨q, Exact.orNum_fin hq _, hq⟩

/-- The transformation multiplies by something. -/
theorem chartTransform_fin {m c : Option ℚ} (hm : options.valueMultiplier = m.map .fin)
    (hc : options.transformDivisor = c.map .fin) :
    ∃ k : ℚ, ∀ v, chartTransform options (.fin v) = .fin (v * k) := by
  obtain ⟨a, ha, -⟩ := orNum_one hm
  obtain ⟨b, hb, hb0⟩ := orNum_one hc
  unfold chartTransform PanelOptions.multiplier PanelOptions.divisor
  rw [ha, hb]
  by_cases h1 : options.transform = txt "multiply"
  · exact ⟨a, fun v => by rw [if_pos h1, Exact.fin_mul]⟩
  by_cases h2 : options.transform = txt "divide"
  · exact ⟨b⁻¹, fun v => by rw [if_neg h1, if_pos h2, Exact.fin_div _ hb0, div_eq_mul_inv]⟩
  · exact ⟨1, fun v => by rw [if_neg h1, if_neg h2, mul_one]⟩

theorem isValid_fin (v : ℚ) : isValid (Exact.fin v) = decide (0 ≤ v) := by
  unfold isValid
  rw [Exact.isNaN_fin, Exact.num_eq, Exact.ge_fin]
  rfl

end

/-! ## The loop over all points -/

/-- Bounds that are numbers. -/
def bounds (lo hi t0 t1 : ℚ) : Extent Exact := ⟨.fin lo, .fin hi, .fin t0, .fin t1⟩

theorem widen_bounds (isPercentage : Bool) (lo hi t0 t1 t v : ℚ) :
    (bounds lo hi t0 t1).widen isPercentage ⟨.fin t, .fin v⟩
      = bounds (if isPercentage then lo else min lo v) (if isPercentage then hi else max hi v)
        (min t0 t) (max t1 t) := by
  have hmin : ∀ a b : ℚ, (if Num.lt (Exact.fin b) (.fin a) then Exact.fin b else .fin a)
      = .fin (min a b) := by
    intro a b
    rw [Exact.lt_fin]
    rcases lt_or_ge b a with h | h
    · rw [if_pos (by simpa using h), min_eq_right h.le]
    · rw [if_neg (by simpa using h), min_eq_left h]
  have hmax : ∀ a b : ℚ, (if Num.lt (Exact.fin a) (.fin b) then Exact.fin b else .fin a)
      = .fin (max a b) := by
    intro a b
    rw [Exact.lt_fin]
    rcases lt_or_ge a b with h | h
    · rw [if_pos (by simpa using h), max_eq_right h.le]
    · rw [if_neg (by simpa using h), max_eq_left h]
  unfold Extent.widen bounds
  cases isPercentage with
  | true => simp only [Bool.not_true, Bool.false_and, Bool.false_eq_true, if_false, if_true, hmin, hmax]
  | false => simp only [Bool.not_false, Bool.true_and, Bool.false_eq_true, if_false, hmin, hmax]

/-- The first point. -/
theorem widen_start (isPercentage : Bool) (t v : ℚ) :
    (startExtent isPercentage).widen isPercentage ⟨.fin t, .fin v⟩
      = bounds (if isPercentage then 0 else v) (if isPercentage then 100 else v) t t := by
  cases isPercentage <;> rfl

/-- A point between bounds. -/
def Between (isPercentage : Bool) (lo hi t0 t1 : ℚ) (d : Point Exact) : Prop :=
  ∃ t v : ℚ, d = ⟨.fin t, .fin v⟩ ∧ t0 ≤ t ∧ t ≤ t1 ∧ (isPercentage = false → lo ≤ v ∧ v ≤ hi)

/-- The loop widens the bounds around every point. -/
theorem foldl_widen (isPercentage : Bool) :
    ∀ (l : List (Point Exact)) (lo hi t0 t1 : ℚ),
    (∀ d ∈ l, ∃ t v : ℚ, d = ⟨.fin t, .fin v⟩) →
    ∃ lo' hi' t0' t1' : ℚ, l.foldl (Extent.widen isPercentage) (bounds lo hi t0 t1)
        = bounds lo' hi' t0' t1'
      ∧ lo' ≤ lo ∧ hi ≤ hi' ∧ t0' ≤ t0 ∧ t1 ≤ t1'
      ∧ (isPercentage = true → lo' = lo ∧ hi' = hi)
      ∧ ∀ d ∈ l, Between isPercentage lo' hi' t0' t1' d
  | [], lo, hi, t0, t1, _ =>
      ⟨lo, hi, t0, t1, rfl, le_refl _, le_refl _, le_refl _, le_refl _, fun _ => ⟨rfl, rfl⟩, by simp⟩
  | d :: l, lo, hi, t0, t1, h => by
      obtain ⟨t, v, rfl⟩ := h d List.mem_cons_self
      obtain ⟨lo', hi', t0', t1', hfold, hlo, hhi, ht0, ht1, hpercent, hrest⟩ :=
        foldl_widen isPercentage l (if isPercentage then lo else min lo v)
          (if isPercentage then hi else max hi v) (min t0 t) (max t1 t)
          fun d hd => h d (List.mem_cons_of_mem _ hd)
      refine ⟨lo', hi', t0', t1', ?_, ?_, ?_, ht0.trans (min_le_left _ _),
        (le_max_left _ _).trans ht1, ?_, ?_⟩
      · rw [List.foldl_cons, widen_bounds, hfold]
      · cases isPercentage with
        | true => exact hlo
        | false => exact hlo.trans (min_le_left _ _)
      · cases isPercentage with
        | true => exact hhi
        | false => exact (le_max_left _ _).trans hhi
      · rintro rfl
        exact hpercent rfl
      · intro d hd
        rcases List.mem_cons.mp hd with rfl | hd
        · refine ⟨t, v, rfl, ht0.trans (min_le_right _ _), (le_max_right _ _).trans ht1, ?_⟩
          rintro rfl
          exact ⟨hlo.trans (min_le_right _ _), (le_max_right _ _).trans hhi⟩
        · exact hrest d hd

/-- All points, from the start. -/
theorem foldl_start (isPercentage : Bool) {l : List (Point Exact)} (hne : l ≠ [])
    (h : ∀ d ∈ l, ∃ t v : ℚ, d = ⟨.fin t, .fin v⟩) :
    ∃ lo hi t0 t1 : ℚ, l.foldl (Extent.widen isPercentage) (startExtent isPercentage)
        = bounds lo hi t0 t1
      ∧ lo ≤ hi ∧ t0 ≤ t1 ∧ (isPercentage = true → lo = 0 ∧ hi = 100)
      ∧ ∀ d ∈ l, Between isPercentage lo hi t0 t1 d := by
  obtain ⟨d, l, rfl⟩ := List.exists_cons_of_ne_nil hne
  obtain ⟨t, v, rfl⟩ := h d List.mem_cons_self
  obtain ⟨lo, hi, t0, t1, hfold, hlo, hhi, ht0, ht1, hpercent, hrest⟩ :=
    foldl_widen isPercentage l (if isPercentage then 0 else v) (if isPercentage then 100 else v) t t
      fun d hd => h d (List.mem_cons_of_mem _ hd)
  refine ⟨lo, hi, t0, t1, ?_, ?_, ht0.trans ht1, ?_, ?_⟩
  · rw [List.foldl_cons, widen_start, hfold]
  · cases isPercentage with
    | true =>
        obtain ⟨rfl, rfl⟩ := hpercent rfl
        norm_num
    | false => exact hlo.trans hhi
  · rintro rfl
    exact hpercent rfl
  · intro d hd
    rcases List.mem_cons.mp hd with rfl | hd
    · refine ⟨t, v, rfl, ht0, ht1, ?_⟩
      rintro rfl
      exact ⟨hlo, hhi⟩
    · exact hrest d hd

/-- There is always some padding. -/
theorem padded_bounds {lo hi : ℚ} (h : lo ≤ hi) (t0 t1 : ℚ) :
    ∃ p : ℚ, 0 < p ∧ (bounds lo hi t0 t1).padded false = bounds (max 0 (lo - p)) (hi + p) t0 t1 := by
  have hpad : (bounds lo hi t0 t1).padded false
      = let padding := (Exact.fin hi - Exact.fin lo) * Exact.fin 0.1
        let padding := if Num.eq padding (Exact.fin 0) then
          orNum (some (Num.abs (Exact.fin hi) * Exact.fin 0.1)) (Exact.fin 1) else padding
        { bounds lo hi t0 t1 with
          minVal := Num.max (Exact.fin 0) (Exact.fin lo - padding)
          maxVal := Exact.fin hi + padding } := rfl
  rw [hpad]
  simp only [Exact.fin_sub, Exact.fin_mul, Exact.eq_fin, Exact.abs_fin]
  by_cases hspan : (hi - lo) * 0.1 = 0
  · rw [if_pos (by simpa using hspan)]
    by_cases hsize : |hi| * 0.1 = 0
    · rw [hsize, Exact.orNum_zero]
      exact ⟨1, one_pos, by simp [bounds]⟩
    · rw [Exact.orNum_fin hsize]
      refine ⟨|hi| * 0.1, lt_of_le_of_ne (by positivity) (Ne.symm hsize), by simp [bounds]⟩
  · rw [if_neg (by simpa using hspan)]
    have hnonneg : 0 ≤ (hi - lo) * 0.1 := mul_nonneg (by linarith) (by norm_num)
    exact ⟨(hi - lo) * 0.1, lt_of_le_of_ne hnonneg (Ne.symm hspan), by simp [bounds]⟩

/-! ## The ranges -/

section

variable {options : PanelOptions Exact} {series : List (Series Exact)} {m c : Option ℚ}

/-- Everything that is delivered counts for the ranges. -/
theorem mem_rangeData (h : Delivered series) {s : Series Exact} (hs : s ∈ series)
    {d : Point Exact} (hd : d ∈ s.data) :
    ⟨d.timestamp, chartTransform options d.value⟩ ∈ rangeData options series := by
  obtain ⟨t, v, hv, rfl⟩ := h.points s hs d hd
  refine List.mem_map.mpr ⟨⟨.fin t, .fin v⟩, List.mem_flatMap.mpr ⟨s, hs, ?_⟩, rfl⟩
  rw [List.mem_filter]
  exact ⟨hd, by rw [isValid_fin]; exact decide_eq_true hv⟩

theorem rangeData_fin (hm : options.valueMultiplier = m.map .fin)
    (hc : options.transformDivisor = c.map .fin) (h : Delivered series) :
    ∀ d ∈ rangeData options series, ∃ t v : ℚ, d = ⟨.fin t, .fin v⟩ := by
  obtain ⟨k, hk⟩ := chartTransform_fin hm hc
  intro d hd
  obtain ⟨d', hd', rfl⟩ := List.mem_map.mp hd
  obtain ⟨s, hs, hmem⟩ := List.mem_flatMap.mp hd'
  obtain ⟨t, v, -, rfl⟩ := h.points s hs d' (List.mem_filter.mp hmem).1
  exact ⟨t, v * k, by rw [hk]⟩

/-- A point that is drawn counts for the ranges, and its value is not negative. -/
theorem validData_fin (hm : options.valueMultiplier = m.map .fin)
    (hc : options.transformDivisor = c.map .fin) (h : Delivered series) {s : Series Exact}
    (hs : s ∈ series) {d : Point Exact} (hd : d ∈ validData options s) :
    d ∈ rangeData options series ∧ ∃ t v : ℚ, 0 ≤ v ∧ d = ⟨.fin t, .fin v⟩ := by
  obtain ⟨k, hk⟩ := chartTransform_fin hm hc
  obtain ⟨d', hd', hpoint⟩ := List.mem_filterMap.mp hd
  obtain ⟨t, v, -, rfl⟩ := h.points s hs d' hd'
  unfold chartPoint at hpoint
  dsimp only at hpoint
  split at hpoint
  · rename_i hvalid
    rw [← Option.some.inj hpoint]
    refine ⟨mem_rangeData h hs hd', t, v * k, ?_, by rw [hk]⟩
    rw [hk, isValid_fin] at hvalid
    exact of_decide_eq_true hvalid
  · cases hpoint

/-- What the plot spans. -/
structure Spans (g : Plot Exact) (lo hi t0 range : ℚ) : Prop where
  minVal : g.minVal = .fin lo
  maxVal : g.maxVal = .fin hi
  minTime : g.minTime = .fin t0
  timeRange : g.timeRange = .fin range
  valueRange : g.valueRange = .fin (hi - lo)
  range_pos : 0 < range

/-- **The ranges**: the times of all points are in the time range, and above a value that is
drawn the value range has room. -/
theorem plot_spans (hm : options.valueMultiplier = m.map .fin)
    (hc : options.transformDivisor = c.map .fin) (h : Delivered series)
    (hne : rangeData options series ≠ []) :
    ∃ lo hi t0 range : ℚ, Spans (plot options series) lo hi t0 range
      ∧ ∀ s ∈ series, ∀ d ∈ validData options s, lo < hi ∧
        ∃ t v : ℚ, d = ⟨.fin t, .fin v⟩ ∧ t0 ≤ t ∧ t ≤ t0 + range := by
  obtain ⟨lo, hi, t0, t1, hfold, hle, htime, hpercent, hbetween⟩ :=
    foldl_start options.isPercentage hne (rangeData_fin hm hc h)
  -- the time range does not depend on the padding
  obtain ⟨range, hrange, hpos, hspan⟩ : ∃ range : ℚ,
      (if Num.eq (Exact.fin t1 - Exact.fin t0) (num 0) then num 1 else Exact.fin t1 - Exact.fin t0)
        = Exact.fin range ∧ 0 < range ∧ t1 ≤ t0 + range := by
    rw [Exact.fin_sub, Exact.num_eq, Exact.eq_fin]
    by_cases hzero : t1 - t0 = 0
    · exact ⟨1, by rw [if_pos (by simpa using hzero), Exact.num_eq], one_pos, by linarith⟩
    · refine ⟨t1 - t0, by rw [if_neg (by simpa using hzero)], ?_, by linarith⟩
      exact lt_of_le_of_ne (by linarith) (Ne.symm hzero)
  have hspans : ∀ lo' hi' : ℚ, (bounds lo hi t0 t1).padded options.isPercentage
      = bounds lo' hi' t0 t1 → Spans (plot options series) lo' hi' t0 range := by
    intro lo' hi' hpadded
    rw [← hfold] at hpadded
    unfold plot
    dsimp only
    rw [hpadded]
    exact ⟨rfl, rfl, rfl, hrange, Exact.fin_sub _ _, hpos⟩
  cases hpercentage : options.isPercentage with
  | true =>
      obtain ⟨rfl, rfl⟩ := hpercent hpercentage
      refine ⟨0, 100, t0, range, hspans 0 100 (by rw [hpercentage]; rfl), ?_⟩
      intro s hs d hd
      obtain ⟨hmem, -⟩ := validData_fin hm hc h hs hd
      obtain ⟨t, v, rfl, ht0, ht1, -⟩ := hbetween d hmem
      exact ⟨by norm_num, t, v, rfl, ht0, by linarith⟩
  | false =>
      obtain ⟨p, hp, hpadded⟩ := padded_bounds hle t0 t1
      refine ⟨max 0 (lo - p), hi + p, t0, range, hspans _ _ (by rw [hpercentage]; exact hpadded), ?_⟩
      intro s hs d hd
      obtain ⟨hmem, t', v', hv0, hd'⟩ := validData_fin hm hc h hs hd
      obtain ⟨t, v, rfl, ht0, ht1, hvalue⟩ := hbetween d hmem
      obtain ⟨hlo, hhi⟩ := hvalue hpercentage
      obtain rfl : v = v' := Exact.fin.inj (Point.mk.inj hd').2
      refine ⟨?_, t, v, rfl, ht0, by linarith⟩
      calc max 0 (lo - p) ≤ v := max_le hv0 (by linarith)
        _ < hi + p := by linarith

end

/-! ## The sizes -/

theorem boundSize_bounds {dflt lo hi : Int} (h : lo ≤ hi) (size : Int) :
    lo ≤ Svgd.Backend.boundSize dflt lo hi size ∧ Svgd.Backend.boundSize dflt lo hi size ≤ hi := by
  unfold Svgd.Backend.boundSize
  dsimp only
  split_ifs <;> omega

/-- Between the margins there is room, whichever of their two bounds counts. -/
theorem margins_lt {w a b p q : ℚ} (hab : a + b < w) (haq : a + w * q < w) (hpb : w * p + b < w)
    (hpq : w * p + w * q < w) : 0 < w - max a (w * p) - max b (w * q) := by
  rcases max_cases a (w * p) with ⟨h, -⟩ | ⟨h, -⟩ <;>
    rcases max_cases b (w * q) with ⟨h', -⟩ | ⟨h', -⟩ <;>
    · rw [h, h']
      linarith

/-- The steps of the grid are between four and eight. -/
theorem xSteps_fin {g : Plot Exact} {w : ℚ} (h : g.graphWidth = .fin w) :
    ∃ q : ℚ, xSteps g = .fin q ∧ q ≠ 0 := by
  refine ⟨min 8 (max 4 ⌊w / 100⌋), ?_, ?_⟩
  · unfold xSteps
    rw [h, Exact.num_eq, Exact.num_eq, Exact.num_eq, Exact.fin_div _ (by norm_num), Exact.floor_fin,
      Exact.max_fin, Exact.min_fin]
  · have h4 : (4 : ℚ) ≤ min 8 (max 4 (⌊w / 100⌋ : ℚ)) := le_min (by norm_num) (le_max_left 4 _)
    linarith

/-- A point between the ends of the ranges is inside the plot. -/
theorem Spans.inside {g : Plot Exact} {lo hi t0 range w h t v : ℚ} (hg : Spans g lo hi t0 range)
    (hw : g.graphWidth = .fin w) (hw0 : 0 < w) (hh : g.graphHeight = .fin h) (hh0 : 0 < h)
    (hlt : lo < hi) (ht : t0 ≤ t) (ht' : t ≤ t0 + range) : g.Inside ⟨.fin t, .fin v⟩ := by
  have hrange := hg.range_pos
  have hspan : 0 < hi - lo := by linarith
  refine ⟨⟨hi - lo, hg.valueRange, hspan.ne'⟩, ⟨w * (t - t0) / range, w, ?_, hw, ?_, ?_⟩,
    ⟨h * (1 - (min hi (max lo v) - lo) / (hi - lo)), h, ?_, hh, ?_, ?_⟩⟩
  · unfold Plot.x
    rw [hw, hg.minTime, hg.timeRange, Exact.fin_sub, Exact.fin_mul, Exact.fin_div _ hrange.ne']
  · exact div_nonneg (mul_nonneg hw0.le (by linarith)) hrange.le
  · rw [div_le_iff₀ hrange]
    exact mul_le_mul_of_nonneg_left (by linarith) hw0.le
  · unfold Plot.y
    dsimp only
    rw [hh, hg.maxVal, hg.minVal, hg.valueRange, Exact.max_fin, Exact.min_fin, Exact.fin_sub,
      Exact.fin_div _ hspan.ne', Exact.num_eq, Exact.fin_sub, Exact.fin_mul]
  all_goals
    -- the value is first moved between the ends
    have hclamp : lo ≤ min hi (max lo v) ∧ min hi (max lo v) ≤ hi :=
      ⟨le_min hlt.le (le_max_left _ _), min_le_left _ _⟩
    have hquot0 : 0 ≤ (min hi (max lo v) - lo) / (hi - lo) := div_nonneg (by linarith) hspan.le
    have hquot1 : (min hi (max lo v) - lo) / (hi - lo) ≤ 1 := by
      rw [div_le_one hspan]
      linarith
  · exact mul_nonneg hh0.le (by linarith)
  · have hle := mul_le_mul_of_nonneg_left (by linarith :
      1 - (min hi (max lo v) - lo) / (hi - lo) ≤ 1) hh0.le
    rwa [mul_one] at hle

/-- No size that the handler passes on is too small for the margins. -/
theorem plot_graphWidth {options : PanelOptions Exact} (args : Svgd.Backend.HandlerArgs)
    (series : List (Series Exact))
    (hwidth : options.width = some (.fin (Svgd.Backend.svgWidth args))) :
    ∃ w : ℚ, (plot options series).graphWidth = .fin w ∧ 0 < w := by
  obtain ⟨h200, h1600⟩ : 200 ≤ Svgd.Backend.svgWidth args ∧ Svgd.Backend.svgWidth args ≤ 1600 :=
    boundSize_bounds (by decide) _
  have hlow : (200 : ℚ) ≤ Svgd.Backend.svgWidth args := by exact_mod_cast h200
  have hchart : options.chartWidth = .fin (Svgd.Backend.svgWidth args) := by
    unfold PanelOptions.chartWidth
    rw [hwidth, Exact.orNum_fin (by linarith)]
  refine ⟨_, ?_, margins_lt (w := Svgd.Backend.svgWidth args) (a := 50) (b := 30) (p := 0.08)
    (q := 0.05) (by linarith) (by linarith) (by linarith) (by linarith)⟩
  unfold plot
  dsimp only
  rw [hchart]
  simp only [Exact.num_eq, Exact.fin_mul, Exact.max_fin, Exact.fin_sub]

theorem plot_graphHeight {options : PanelOptions Exact} (args : Svgd.Backend.HandlerArgs)
    (series : List (Series Exact))
    (hheight : options.height = some (.fin (Svgd.Backend.svgHeight args))) :
    ∃ h : ℚ, (plot options series).graphHeight = .fin h ∧ 0 < h := by
  obtain ⟨h120, h800⟩ : 120 ≤ Svgd.Backend.svgHeight args ∧ Svgd.Backend.svgHeight args ≤ 800 :=
    boundSize_bounds (by decide) _
  have hlow : (120 : ℚ) ≤ Svgd.Backend.svgHeight args := by exact_mod_cast h120
  have hchart : options.chartHeight = .fin (Svgd.Backend.svgHeight args) := by
    unfold PanelOptions.chartHeight
    rw [hheight, Exact.orNum_fin (by linarith)]
  refine ⟨_, ?_, margins_lt (w := Svgd.Backend.svgHeight args) (a := 30) (b := 65) (p := 0.08)
    (q := 0.18) (by linarith) (by linarith) (by linarith) (by linarith)⟩
  unfold plot
  dsimp only
  rw [hchart]
  simp only [Exact.num_eq, Exact.fin_mul, Exact.max_fin, Exact.fin_sub]

/-- **Every drawn point lies inside the plot**, for every size the handler passes; without a point
there is an error text and no plot. -/
theorem plot_drawn_inside (host : Host Exact) (args : Svgd.Backend.HandlerArgs)
    (options : PanelOptions Exact) (series : List (Series Exact)) (hseries : Delivered series)
    (hwidth : options.width = some (.fin (Svgd.Backend.svgWidth args)))
    (hheight : options.height = some (.fin (Svgd.Backend.svgHeight args)))
    (hmultiplier : ∃ m : Option ℚ, options.valueMultiplier = m.map .fin)
    (hdivisor : ∃ c : Option ℚ, options.transformDivisor = c.map .fin) :
    (collected series = [] → generateChart host series options
        = some (svgHead options.chartWidth options.chartHeight (resolveTheme host options.theme)
          ++ background (resolveTheme host options.theme)
          ++ chartError options.chartWidth options.chartHeight "Error: No valid data points"))
      ∧ (collected series ≠ [] → DrawnInside options series) := by
  constructor
  · intro hempty
    unfold generateChart
    dsimp only
    rw [if_neg hseries.nonempty, if_pos hempty]
  intro hcollected
  obtain ⟨m, hm⟩ := hmultiplier
  obtain ⟨c, hc⟩ := hdivisor
  have hne : rangeData options series ≠ [] := fun h => hcollected (List.map_eq_nil_iff.mp h)
  obtain ⟨lo, hi, t0, range, hspans, hpoints⟩ := plot_spans hm hc hseries hne
  obtain ⟨w, hw, hw0⟩ := plot_graphWidth args series hwidth
  obtain ⟨h, hh, hh0⟩ := plot_graphHeight args series hheight
  refine ⟨⟨w, hw, hw0⟩, ⟨h, hh, hh0⟩, ⟨range, hspans.timeRange, hspans.range_pos⟩, ?_, ?_⟩
  · intro s hs d hd
    obtain ⟨hlt, t, v, rfl, ht, ht'⟩ := hpoints s hs d hd
    exact hspans.inside hw hw0 hh hh0 hlt ht ht'
  · have hseriesLen : (series.length : ℚ) ≠ 0 := by
      exact_mod_cast (List.length_pos_of_ne_nil hseries.nonempty).ne'
    have hdataLen : ((rangeData options series).length : ℚ) ≠ 0 := by
      exact_mod_cast (List.length_pos_of_ne_nil hne).ne'
    have hmean : len (rangeData options series) / len series
        = Exact.fin ((rangeData options series).length / series.length) := Exact.fin_div _ hseriesLen
    intro x hx
    simp only [divisors, List.mem_cons, List.not_mem_nil, or_false] at hx
    rcases hx with rfl | rfl | rfl | rfl | rfl | rfl | rfl | rfl
    · exact orNum_one hc
    · exact ⟨5, rfl, by norm_num⟩
    · exact ⟨100, rfl, by norm_num⟩
    · exact xSteps_fin hw
    · exact ⟨series.length, rfl, hseriesLen⟩
    · exact ⟨_, hmean, div_ne_zero hdataLen hseriesLen⟩
    · exact ⟨range, hspans.timeRange, hspans.range_pos.ne'⟩
    · exact ⟨2, rfl, by norm_num⟩

/-- A chart of the least size. -/
def smallArgs : Svgd.Backend.HandlerArgs := ⟨[], none, 3600, 1, 1⟩

/-- Values that are negated: the only one that is drawn is zero. -/
def negatedOptions : PanelOptions Exact where
  width := some (.fin (Svgd.Backend.svgWidth smallArgs))
  height := some (.fin (Svgd.Backend.svgHeight smallArgs))
  transformType := some (txt "multiply")
  valueMultiplier := some (.fin (-1))

/-- A series with a zero in it. -/
def zeroSeries : List (Series Exact) := [⟨txt "rx", [⟨.fin 0, .fin 0⟩, ⟨.fin 15, .fin 3⟩]⟩]

theorem plot_negated_inside : DrawnInside negatedOptions zeroSeries := by
  have hdelivered : Delivered zeroSeries := by
    refine ⟨by decide, ?_⟩
    intro s hs d hd
    obtain rfl := List.mem_singleton.mp hs
    rcases List.mem_pair.mp hd with rfl | rfl
    · exact ⟨0, 0, le_refl _, by norm_num⟩
    · exact ⟨15, 3, by norm_num, by norm_num⟩
  have hcollected : collected zeroSeries ≠ [] := by decide +kernel
  exact (plot_drawn_inside ⟨fun s => s, fun x => x, fun x => x, fun x => x, fun x => x, fun x => x,
    fun _ l => l, fun _ _ => List.Perm.refl _⟩ smallArgs negatedOptions zeroSeries hdelivered rfl rfl
    ⟨some (-1), rfl⟩ ⟨none, rfl⟩).2 hcollected

end Svgd.Panel
