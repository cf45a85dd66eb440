import Svgd.Lib.JsDouble
import Svgd.Panel.GenerateSvg

/-!
# The numbers of the two panels

The script transforms values in four places. The chart transforms a value first and then asks
whether it can be drawn; its range, its legend and the stat panel ask first; and the stat panel
only knows how to divide. The panels agree exactly on the points for which neither matters.
-/

namespace Svgd.Panel

open Lib Lib.Js

section

variable {N : Type} [Num N] {options : PanelOptions N}

/-! ## Point by point -/

/-- What the range of the chart takes of a point. -/
def rangePoint (options : PanelOptions N) (d : Point N) : Option (Point N) :=
  if isValid d.value then some ⟨d.timestamp, chartTransform options d.value⟩ else none

theorem rangeData_eq (series : List (Series N)) :
    rangeData options series = series.flatMap fun s => s.data.filterMap (rangePoint options) := by
  unfold rangeData collected
  rw [List.map_flatMap]
  refine congrArg (fun f => series.flatMap f) (funext fun s => ?_)
  induction s.data with
  | nil => rfl
  | cons d data ih =>
      rw [List.filter_cons, List.filterMap_cons]
      unfold rangePoint
      split_ifs with hvalid
      · exact congrArg (_ :: ·) ih
      · exact ih

/-- A factor leaves a value that can be drawn as it is, and makes no other value one that can; and
a divisor does not change whether a value can be drawn. -/
def SameValue (options : PanelOptions N) (d : Point N) : Prop :=
  (options.transform = txt "multiply" →
      if isValid d.value then d.value * options.multiplier = d.value
      else isValid (d.value * options.multiplier) = false)
    ∧ (options.transform = txt "divide" → isValid (d.value / options.divisor) = isValid d.value)

theorem multiply_ne_divide : txt "multiply" ≠ txt "divide" := by decide

theorem sameValue_iff {d : Point N} :
    SameValue options d ↔
      isValid (chartTransform options d.value) = isValid d.value
        ∧ (isValid d.value = true → options.transform = txt "multiply" →
          d.value * options.multiplier = d.value) := by
  unfold SameValue chartTransform
  by_cases hm : options.transform = txt "multiply"
  · rw [hm, if_pos rfl]
    cases hraw : isValid d.value with
    | false => simp [multiply_ne_divide]
    | true =>
        simp only [if_true, forall_const, multiply_ne_divide, false_implies, and_true]
        constructor
        · intro hv
          exact ⟨by rw [hv, hraw], hv⟩
        · exact fun h => h.2
  · rw [if_neg hm]
    by_cases hd : options.transform = txt "divide"
    · rw [if_pos hd]
      simp [hd, multiply_ne_divide.symm]
    · rw [if_neg hd]
      simp [hm, hd]

/-- The stat panel divides as the chart does; it does not multiply. -/
theorem statTransform_eq_iff {v : N} :
    (if options.transform = txt "divide" then v / options.divisor else v) = chartTransform options v
      ↔ (options.transform = txt "multiply" → v * options.multiplier = v) := by
  unfold chartTransform
  by_cases hm : options.transform = txt "multiply"
  · have hd : ¬options.transform = txt "divide" := by
      rw [hm]
      exact multiply_ne_divide
    rw [if_neg hd, if_pos hm]
    exact ⟨fun h _ => h.symm, fun h => (h hm).symm⟩
  · rw [if_neg hm]
    exact iff_of_true rfl fun h => absurd h hm

theorem statPoint_eq_chartPoint_iff {d : Point N} :
    statPoint options d = chartPoint options d ↔ SameValue options d := by
  rw [sameValue_iff, ← statTransform_eq_iff]
  unfold statPoint chartPoint
  cases hraw : isValid d.value with
  | false =>
      cases hval : isValid (chartTransform options d.value) with
      | false => simp [hval]
      | true => simp [hval]
  | true =>
      cases hval : isValid (chartTransform options d.value) with
      | false => simp [hval]
      | true => simp [hval]

theorem rangePoint_eq_chartPoint {d : Point N} (h : SameValue options d) :
    rangePoint options d = chartPoint options d := by
  unfold rangePoint chartPoint
  rw [← (sameValue_iff.mp h).1]

/-- The legend asks in other words whether a value can be drawn. -/
theorem legendValue_eq (d : Point N) :
    legendValue options d
      = if isValid d.value then some (chartTransform options d.value) else none := by
  have hvalid : isValid d.value = !(isNaN d.value || Num.lt d.value (num 0)) := by
    unfold isValid ge
    rw [Num.isNaN_num]
    cases isNaN d.value with
    | true => rfl
    | false => rfl
  unfold legendValue
  rw [hvalid]
  cases isNaN d.value || Num.lt d.value (num 0) with
  | true => rfl
  | false => rfl

theorem legendValue_eq_statPoint {d : Point N} (h : SameValue options d) :
    legendValue options d = (statPoint options d).map Point.value := by
  rw [legendValue_eq]
  unfold statPoint
  by_cases hvalid : isValid d.value = true
  · rw [if_pos hvalid, if_pos hvalid]
    exact congrArg some (statTransform_eq_iff.mpr ((sameValue_iff.mp h).2 hvalid)).symm
  · rw [if_neg hvalid, if_neg hvalid]
    rfl

/-- Both formatters write a number in the same way. -/
theorem statFormatter_eq (v : N) : statFormatter options v = valueFormatter options v := by
  unfold statFormatter valueFormatter
  split_ifs <;> rfl

/-! ## The panels -/

/-- The two panels show the same numbers. -/
structure SamePanels (host : Host N) (series : List (Series N)) (options : PanelOptions N) :
    Prop where
  /-- What the stat panel keeps of a point is what the chart draws of it. -/
  points : ∀ s ∈ series, ∀ d ∈ s.data, statPoint options d = chartPoint options d
  /-- So the stat panel shows the points of the chart, by time. -/
  drawn : (sortedData host options series).Perm (series.flatMap (validData options))
  /-- They also span the axes of the chart. -/
  range : rangeData options series = series.flatMap (validData options)
  /-- The legend has the value that the stat panel has for the last point of a series. -/
  legend : ∀ s ∈ series, ∀ d, s.data.getLast? = some d →
    legendValue options d = (statPoint options d).map Point.value
  /-- A number has the same text on both. -/
  format : ∀ v, statFormatter options v = valueFormatter options v

omit [Num N] in
theorem flatMap_filterMap_congr {f g : Point N → Option (Point N)} {series : List (Series N)}
    (h : ∀ s ∈ series, ∀ d ∈ s.data, f d = g d) :
    (series.flatMap fun s => s.data.filterMap f) = series.flatMap fun s => s.data.filterMap g :=
  List.flatMap_congr fun s hs => List.filterMap_congr (h s hs)

/-- The panels show the same numbers if and only if a factor or a divisor makes no difference for
any of their points. -/
theorem samePanels_iff (host : Host N) (series : List (Series N)) (options : PanelOptions N) :
    SamePanels host series options ↔ ∀ s ∈ series, ∀ d ∈ s.data, SameValue options d := by
  constructor
  · intro h s hs d hd
    exact statPoint_eq_chartPoint_iff.mp (h.points s hs d hd)
  · intro h
    have hpoints : ∀ s ∈ series, ∀ d ∈ s.data, statPoint options d = chartPoint options d :=
      fun s hs d hd => statPoint_eq_chartPoint_iff.mpr (h s hs d hd)
    refine ⟨hpoints, ?_, ?_, ?_, statFormatter_eq⟩
    · have hdata : statData options series = series.flatMap (validData options) :=
        flatMap_filterMap_congr hpoints
      rw [← hdata]
      exact host.sort_perm _ _
    · rw [rangeData_eq]
      exact flatMap_filterMap_congr fun s hs d hd => rangePoint_eq_chartPoint (h s hs d hd)
    · intro s hs d hlast
      exact legendValue_eq_statPoint (h s hs d (List.mem_of_getLast? hlast))

end

/-- A value of 100 with a factor of 8: the stat panel shows it as it is, the legend of the chart
with the factor. -/
theorem samePanels_multiply :
    let options : PanelOptions Double :=
      { transformType := some (txt "multiply"), valueMultiplier := some (.fin 8) }
    let d : Point Double := ⟨.fin 0, .fin 100⟩
    (sortedData utcHost options [⟨txt "rx", [d]⟩]).getLast?.map
        (fun last => statFormatter options last.value) = some (txt "100.00")
      ∧ (legendValue options d).map (valueFormatter options) = some (txt "800.00")
      ∧ ¬SamePanels utcHost [⟨txt "rx", [d]⟩] options := by
  intro options d
  have hstat : statData options [⟨txt "rx", [d]⟩] = [d] := by decide +kernel
  have hsorted : sortedData utcHost options [⟨txt "rx", [d]⟩] = [d] := by
    unfold sortedData
    rw [hstat]
    exact List.mergeSort_singleton d
  refine ⟨?_, by decide +kernel, fun h => ?_⟩
  · rw [hsorted]
    decide +kernel
  · have hpoint := h.points _ List.mem_cons_self d List.mem_cons_self
    exact absurd hpoint (by decide +kernel)

end Svgd.Panel
