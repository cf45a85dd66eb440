import Svgd.Backend.Reader
import Svgd.Lib.Selection
import Mathlib.Data.Int.ConditionallyCompleteOrder
import Mathlib.Data.List.Find
import Mathlib.Data.Prod.Lex
import Mathlib.Tactic.NormNum

/-!
# The step that is chosen

`select_step_from_rras` keeps one candidate while it mixes two criteria: more points
below the window, a smaller step above it. Both are one order: an entry with too many
points is better than one with too few, since a candidate of the first kind has more
points and a smaller step than any of the second (`stepsIn_anti`). Without an entry in
the window the loop therefore selects by `preference` (`selectStepLoop_choose`).
-/

namespace Svgd.Backend

open Lib

/-- The number of points fits the window. -/
def inWindow (n : Int) : Prop := 100 ≤ n ∧ n ≤ 2400

instance (n : Int) : Decidable (inWindow n) := inferInstanceAs (Decidable (_ ∧ _))

/-- The entries the loop looks at. -/
def eligible (rras : List RraStepInfo) (minStep : Nat) : List RraStepInfo :=
  rras.filter fun r => r.cf == str "AVERAGE" && decide (minStep ≤ r.effectiveStep)

/-- The entry that stands in when there is none: the first one of raw averages. -/
def rawAverage (rras : List RraStepInfo) : Option RraStepInfo :=
  rras.find? fun r => r.cf == str "AVERAGE" && r.pdpPerRow == 1

/-- The number of points an entry gives. -/
def RraStepInfo.points (range : Int) (r : RraStepInfo) : Int := stepsIn range r.effectiveStep

/-- What the steps and the number of points of an entry are taken to be. -/
structure RraStepInfo.Fits (range : Int) (r : RraStepInfo) : Prop where
  pos : 1 ≤ r.effectiveStep
  le : r.effectiveStep ≤ 1000000
  points : r.points range < 2 ^ 31

/-- The order of the entries outside the window. -/
def RraStepInfo.preference (range : Int) (r : RraStepInfo) : Int ×ₗ Int :=
  if r.points range < 100 then toLex (0, r.points range) else toLex (1, -r.effectiveStep)

variable {range period : Int} {minStep baseStep : Nat} {r c : RraStepInfo}
  {rras : List RraStepInfo}

theorem points_eq (hpos : 1 ≤ r.effectiveStep) :
    r.points range = (range + r.effectiveStep - 1) / r.effectiveStep := stepsIn_eq hpos

/-- The unsigned division of the source is exact. -/
theorem numPoints_eq (hr : 0 < range) (h : r.Fits range) :
    numPoints range r.effectiveStep = r.points range := by
  have hn : range ≤ stepsIn range r.effectiveStep * r.effectiveStep := le_stepsIn_mul h.pos
  have heq : r.points range = (range + r.effectiveStep - 1) / r.effectiveStep := points_eq h.pos
  have hpos := stepsIn_pos hr h.pos
  obtain ⟨h1, h2, h3⟩ := h
  unfold RraStepInfo.points at h3 heq ⊢
  generalize hm : stepsIn range r.effectiveStep = n at *
  have hrange : range < 2 ^ 31 * 1000000 := by nlinarith
  unfold numPoints toULong
  have hmod : (range + r.effectiveStep - 1) % 2 ^ 64 = range + r.effectiveStep - 1 :=
    Int.emod_eq_of_lt (by omega) (by omega)
  have hdiv : (((range + r.effectiveStep - 1).toNat / r.effectiveStep : Nat) : Int) = n := by
    rw [Int.natCast_ediv, Int.toNat_of_nonneg (by omega), heq]
  rw [hmod, hdiv]
  unfold toInt32
  omega

theorem mem_eligible : r ∈ eligible rras minStep ↔
    r ∈ rras ∧ r.cf = str "AVERAGE" ∧ minStep ≤ r.effectiveStep := by
  simp [eligible]

/-- The loop skips the other entries. -/
theorem selectStepLoop_eligible (rras : List RraStepInfo) : ∀ optimal best,
    selectStepLoop range minStep rras optimal best
      = selectStepLoop range minStep (eligible rras minStep) optimal best := by
  induction rras with
  | nil => exact fun _ _ => rfl
  | cons r rras ih =>
      intro optimal best
      by_cases h : r.cf = str "AVERAGE" ∧ minStep ≤ r.effectiveStep
      · have he : eligible (r :: rras) minStep = r :: eligible rras minStep := by
          simp [eligible, h.1, h.2]
        rw [he]
        unfold selectStepLoop
        simp only [ih]
      · have he : eligible (r :: rras) minStep = eligible rras minStep := by
          simp only [eligible, List.filter_cons, Bool.and_eq_true, beq_iff_eq, decide_eq_true_eq,
            if_neg h]
        rw [he, ← ih]
        have hskip : r.cf ≠ str "AVERAGE" ∨ r.effectiveStep < minStep := by
          by_contra hc
          push Not at hc
          exact h hc
        conv_lhs => unfold selectStepLoop
        rw [if_pos hskip]

/-- What holds of every entry in the list the loop runs over. -/
def Eligible (range : Int) (minStep : Nat) (r : RraStepInfo) : Prop :=
  r.cf = str "AVERAGE" ∧ minStep ≤ r.effectiveStep ∧ r.Fits range

/-- The first entry whose counted points are in the window ends the loop. -/
theorem selectStepLoop_find {es : List RraStepInfo}
    (hes : ∀ e ∈ es, e.cf = str "AVERAGE" ∧ minStep ≤ e.effectiveStep)
    (hfind : es.find? (inWindow <| numPoints range ·.effectiveStep) = some r) :
    ∀ optimal best, selectStepLoop range minStep es optimal best = r.effectiveStep := by
  induction es with
  | nil => simp at hfind
  | cons e es ih =>
      intro optimal best
      obtain ⟨hcf, hmin⟩ := hes e (by simp)
      have hskip : ¬(e.cf ≠ str "AVERAGE" ∨ e.effectiveStep < minStep) := by
        simp [hcf]; omega
      unfold selectStepLoop
      rw [if_neg hskip]
      dsimp only
      by_cases hw : inWindow (numPoints range e.effectiveStep)
      · rw [List.find?_cons_of_pos (by simpa using hw)] at hfind
        obtain rfl := Option.some.inj hfind
        unfold inWindow at hw
        rw [if_pos hw]
      · rw [List.find?_cons_of_neg (by simpa using hw)] at hfind
        have hih := ih (fun x hx => hes x (by simp [hx])) hfind
        unfold inWindow at hw
        rw [if_neg hw]
        simp only [hih, ite_self]

/-- Two comparisons of the source are one of the preferences. -/
theorem preference_lt (hr : 0 < range) (hc : c.Fits range) (hwr : ¬inWindow (r.points range)) :
    c.preference range < r.preference range ↔
      (r.points range < 100 ∧ c.points range < r.points range)
        ∨ (2400 < r.points range ∧ r.effectiveStep < c.effectiveStep) := by
  have hanti : c.effectiveStep ≤ r.effectiveStep → r.points range ≤ c.points range :=
    stepsIn_anti (Int.le_of_lt hr) hc.pos
  unfold inWindow at hwr
  unfold RraStepInfo.preference
  split <;> split <;> simp [Prod.Lex.toLex_lt_toLex] <;> omega

/-- Without an entry in the window the loop selects by preference. -/
theorem selectStepLoop_choose (hr : 0 < range) {es : List RraStepInfo} :
    ∀ {c : RraStepInfo}, (∀ e ∈ c :: es, Eligible range minStep e) →
      (∀ e ∈ c :: es, ¬inWindow (e.points range)) →
      selectStepLoop range minStep es c.effectiveStep (c.points range)
        = (choose (·.preference range) c es).effectiveStep := by
  induction es with
  | nil => exact fun _ _ => rfl
  | cons e es ih =>
      intro c hes hw
      obtain ⟨hcf, hmin, hfits⟩ := hes e (by simp)
      obtain ⟨-, -, hcfits⟩ := hes c (by simp)
      have hwe := hw e (by simp)
      have hlt := preference_lt hr hcfits hwe
      have hn := numPoints_eq hr hfits
      have hskip : ¬(e.cf ≠ str "AVERAGE" ∨ e.effectiveStep < minStep) := by
        simp [hcf]; omega
      have hc0 : c.effectiveStep ≠ 0 := by have := hcfits.pos; omega
      have hrest : ∀ x, x = e ∨ x = c →
          selectStepLoop range minStep es x.effectiveStep (x.points range)
            = (choose (·.preference range) x es).effectiveStep := by
        intro x hx
        apply ih
        · intro y hy
          apply hes
          grind
        · intro y hy
          apply hw
          grind
      unfold selectStepLoop choose
      rw [if_neg hskip]
      simp only [hn, hc0, false_or, hlt]
      unfold inWindow at hwe
      rw [if_neg hwe]
      by_cases h1 : e.points range < 100 ∧ c.points range < e.points range
      · rw [if_pos h1, if_pos (.inl h1)]
        exact hrest e (.inl rfl)
      · rw [if_neg h1]
        by_cases h2 : 2400 < e.points range ∧ e.effectiveStep < c.effectiveStep
        · rw [if_pos h2, if_pos (.inr h2)]
          exact hrest e (.inl rfl)
        · rw [if_neg h2, if_neg (by simp only [h1, h2, or_self, not_false_eq_true])]
          exact hrest c (.inr rfl)

/-- The candidate after the loop, if no entry is in the window. -/
theorem selectStepLoop_start (hr : 0 < range) {es : List RraStepInfo}
    (hes : ∀ e ∈ c :: es, Eligible range minStep e)
    (hw : ∀ e ∈ c :: es, ¬inWindow (e.points range)) :
    selectStepLoop range minStep (c :: es) 0 0
      = (choose (·.preference range) c es).effectiveStep := by
  obtain ⟨hcf, hmin, hfits⟩ := hes c (by simp)
  have hwc := hw c (by simp)
  have hn := numPoints_eq hr hfits
  have hskip : ¬(c.cf ≠ str "AVERAGE" ∨ c.effectiveStep < minStep) := by
    simp [hcf]; omega
  have hrest := selectStepLoop_choose hr hes hw
  unfold selectStepLoop
  rw [if_neg hskip]
  unfold inWindow at hwc
  simp only [hn, true_or, and_true]
  rw [if_neg hwc]
  by_cases hlow : c.points range < 100
  · rw [if_pos hlow, hrest]
  · rw [if_neg hlow, if_pos (by omega), hrest]

section

variable (hr : 0 < range) (hfits : ∀ r ∈ rras, r.Fits range)

include hfits in
theorem mem_eligible_eligible {e : RraStepInfo} (he : e ∈ eligible rras minStep) :
    Eligible range minStep e := by
  obtain ⟨hmem, hcf, hmin⟩ := mem_eligible.mp he
  exact ⟨hcf, hmin, hfits e hmem⟩

/-- An entry that the loop found is the result. -/
theorem selectStepFromRras_of_loop {e : RraStepInfo} (hpos : 1 ≤ e.effectiveStep)
    (hloop : selectStepLoop range baseStep (eligible rras baseStep) 0 0 = e.effectiveStep) :
    selectStepFromRras rras range period baseStep = e.effectiveStep := by
  unfold selectStepFromRras
  rw [selectStepLoop_eligible, hloop]
  have h0 : e.effectiveStep ≠ 0 := by omega
  simp only [h0, false_and, if_false]

include hr hfits

/-- The first entry in the window is chosen. -/
theorem selectStepFromRras_inWindow {e : RraStepInfo}
    (hfind : (eligible rras baseStep).find? (inWindow <| ·.points range) = some e) :
    selectStepFromRras rras range period baseStep = e.effectiveStep := by
  have hall : ∀ x ∈ eligible rras baseStep, Eligible range baseStep x :=
    fun x hx => mem_eligible_eligible hfits hx
  have hfind' : (eligible rras baseStep).find? (inWindow <| numPoints range ·.effectiveStep)
      = some e := by
    rw [← hfind]
    apply List.find?_congr
    intro x hx
    rw [numPoints_eq hr (hall x hx).2.2]
  apply selectStepFromRras_of_loop (hall e (List.mem_of_find?_eq_some hfind)).2.2.pos
  exact selectStepLoop_find (fun x hx => ⟨(hall x hx).1, (hall x hx).2.1⟩) hfind' 0 0

/-- Outside the window an entry is chosen that no other one is preferred to. -/
theorem selectStepFromRras_preference
    (hw : ∀ e ∈ eligible rras baseStep, ¬inWindow (e.points range))
    (hne : eligible rras baseStep ≠ []) :
    ∃ e ∈ (eligible rras baseStep).argmax (·.preference range),
      selectStepFromRras rras range period baseStep = e.effectiveStep := by
  have hall : ∀ x ∈ eligible rras baseStep, Eligible range baseStep x :=
    fun x hx => mem_eligible_eligible hfits hx
  obtain ⟨c, es, hE⟩ := List.exists_cons_of_ne_nil hne
  refine ⟨choose (·.preference range) c es, hE ▸ choose_mem_argmax _ es c, ?_⟩
  rw [hE] at hw hall
  apply selectStepFromRras_of_loop (hall _ (choose_mem _ c es)).2.2.pos
  rw [hE]
  exact selectStepLoop_start hr hall hw

end

/-- Without an entry for the loop the raw averages stand in. -/
theorem selectStepFromRras_none (hpos : ∀ r ∈ rras, 1 ≤ r.effectiveStep)
    (hnil : eligible rras baseStep = []) :
    selectStepFromRras rras range period baseStep
      = if range ≤ period then (rawAverage rras).elim baseStep (·.effectiveStep) else baseStep := by
  unfold selectStepFromRras rawAverage
  rw [selectStepLoop_eligible, hnil]
  simp only [selectStepLoop, true_and]
  by_cases hp : range ≤ period
  · rw [if_pos hp, if_pos hp]
    cases hfind : rras.find? fun r => r.cf == str "AVERAGE" && r.pdpPerRow == 1 with
    | none => rfl
    | some r =>
        have hr := hpos r (List.mem_of_find?_eq_some hfind)
        show (if r.effectiveStep = 0 then baseStep else r.effectiveStep) = r.effectiveStep
        rw [if_neg (by omega)]
  · rw [if_neg hp, if_neg hp]
    rfl

/-! ## The specification -/

/-- Above the window the preferred entry has the smallest step. -/
theorem argmax_preference_high {es : List RraStepInfo} {e : RraStepInfo}
    (he : e ∈ es.argmax (·.preference range)) (hw : ∀ x ∈ es, ¬inWindow (x.points range))
    (hhigh : ∃ x ∈ es, 2400 < x.points range) :
    2400 < e.points range
      ∧ ∀ x ∈ es, 2400 < x.points range → e.effectiveStep ≤ x.effectiveStep := by
  have hwe := hw e (List.argmax_mem he)
  have hle : ∀ x ∈ es, 2400 < x.points range →
      2400 < e.points range ∧ e.effectiveStep ≤ x.effectiveStep := by
    intro x hx hxhigh
    have hpref := List.le_of_mem_argmax hx he
    unfold RraStepInfo.preference at hpref
    unfold inWindow at hwe
    rw [if_neg (by omega)] at hpref
    split at hpref <;> simp [Prod.Lex.toLex_le_toLex] at hpref
    omega
  obtain ⟨x, hx, hxhigh⟩ := hhigh
  exact ⟨(hle x hx hxhigh).1, fun y hy hyhigh => (hle y hy hyhigh).2⟩

/-- Below the window it has the most points. -/
theorem argmax_preference_low {es : List RraStepInfo} (hw : ∀ x ∈ es, ¬inWindow (x.points range))
    (hlow : ∀ x ∈ es, x.points range ≤ 2400) :
    es.argmax (·.preference range) = es.argmax (·.points range) := by
  apply argmax_congr
  have hlt : ∀ x ∈ es, x.points range < 100 := by
    intro x hx
    have hwx := hw x hx
    have hlowx := hlow x hx
    unfold inWindow at hwx
    omega
  intro x hx y hy
  unfold RraStepInfo.preference
  rw [if_pos (hlt x hx), if_pos (hlt y hy)]
  simp [Prod.Lex.toLex_lt_toLex]

/-- The number of points outside the window does not depend on the order of the entries. -/
theorem points_perm {es es' : List RraStepInfo} (hperm : es'.Perm es)
    (hw : ∀ x ∈ es, ¬inWindow (x.points range)) {e e' : RraStepInfo} (he : e ∈ es.argmax (·.preference range))
    (he' : e' ∈ es'.argmax (·.preference range)) : e'.points range = e.points range := by
  have hmem := List.argmax_mem he
  have hmem' := hperm.mem_iff.mp (List.argmax_mem he')
  have h1 := List.le_of_mem_argmax hmem' he
  have h2 := List.le_of_mem_argmax (hperm.mem_iff.mpr hmem) he'
  have heq : e.preference range = e'.preference range := le_antisymm h2 h1
  have hwe := hw e hmem
  have hwe' := hw e' hmem'
  unfold RraStepInfo.preference at heq
  split at heq <;> split at heq <;> simp at heq
  · exact heq.symm
  · unfold RraStepInfo.points
    rw [heq]

/-- **The step is chosen as the header says.** Of the averages whose step is not below the
base step, the first one in the window is chosen; else the one with the smallest step above
the window; else the first one with the most points. Without any, the raw averages or the
base step stand in. Outside the window the number of points does not depend on the order. -/
theorem selectStepFromRras_spec (hr : 0 < range) (hfits : ∀ r ∈ rras, r.Fits range)
    (period : Int) (baseStep : Nat) :
    let es := eligible rras baseStep
    let step := selectStepFromRras rras range period baseStep
    ((∃ e ∈ es, inWindow (e.points range)) →
      ∃ e, es.find? (inWindow <| ·.points range) = some e ∧ step = e.effectiveStep)
    ∧ ((∀ e ∈ es, ¬inWindow (e.points range)) → (∃ e ∈ es, 2400 < e.points range) →
      ∃ e ∈ es, 2400 < e.points range ∧ step = e.effectiveStep
        ∧ ∀ x ∈ es, 2400 < x.points range → e.effectiveStep ≤ x.effectiveStep)
    ∧ ((∀ e ∈ es, ¬inWindow (e.points range)) → (∀ e ∈ es, e.points range ≤ 2400) → es ≠ [] →
      ∃ e ∈ es.argmax (·.points range), step = e.effectiveStep)
    ∧ (es = [] → step
      = if range ≤ period then (rawAverage rras).elim baseStep (·.effectiveStep) else baseStep)
    ∧ ((∀ e ∈ es, ¬inWindow (e.points range)) → es ≠ [] → ∀ rras' : List RraStepInfo,
      rras'.Perm rras →
        stepsIn range (selectStepFromRras rras' range period baseStep) = stepsIn range step) := by
  intro es step
  refine ⟨?_, ?_, ?_, ?_, ?_⟩
  · intro hex
    have hsome : (es.find? (inWindow <| ·.points range)).isSome := by
      rw [List.find?_isSome]
      simpa using hex
    obtain ⟨e, he⟩ := Option.isSome_iff_exists.mp hsome
    exact ⟨e, he, selectStepFromRras_inWindow hr hfits he⟩
  · intro hw hhigh
    have hne : es ≠ [] := by
      obtain ⟨x, hx, -⟩ := hhigh
      exact List.ne_nil_of_mem hx
    obtain ⟨e, he, hstep⟩ := selectStepFromRras_preference hr hfits hw hne
    obtain ⟨hehigh, hmin⟩ := argmax_preference_high he hw hhigh
    exact ⟨e, List.argmax_mem he, hehigh, hstep, hmin⟩
  · intro hw hlow hne
    obtain ⟨e, he, hstep⟩ := selectStepFromRras_preference hr hfits hw hne
    exact ⟨e, argmax_preference_low hw hlow ▸ he, hstep⟩
  · exact selectStepFromRras_none fun r hr' => (hfits r hr').pos
  · intro hw hne rras' hperm
    have hperm' : (eligible rras' baseStep).Perm es := hperm.filter _
    have hfits' : ∀ r ∈ rras', r.Fits range := fun r hr' => hfits r (hperm.mem_iff.mp hr')
    have hw' : ∀ e ∈ eligible rras' baseStep, ¬inWindow (e.points range) :=
      fun e he => hw e (hperm'.mem_iff.mp he)
    have hne' : eligible rras' baseStep ≠ [] := fun hnil => hne (by
      rw [hnil] at hperm'
      exact hperm'.nil_eq.symm)
    obtain ⟨e, he, hstep⟩ := selectStepFromRras_preference hr hfits hw hne
    obtain ⟨e', he', hstep'⟩ :=
      selectStepFromRras_preference hr hfits' hw' hne'
    show stepsIn range (selectStepFromRras rras' range period baseStep)
      = stepsIn range (selectStepFromRras rras range period baseStep)
    rw [hstep, hstep']
    exact points_perm hperm' hw he he'

/-- A day in a file of ten-second averages, with a minute and an hour consolidated. -/
def sampleRras : List RraStepInfo :=
  [⟨1, 10, str "AVERAGE"⟩, ⟨360, 3600, str "AVERAGE"⟩, ⟨6, 60, str "MAX"⟩, ⟨6, 60, str "AVERAGE"⟩]

theorem sampleRras_fits : ∀ r ∈ sampleRras, r.Fits 86400 := by
  intro r hr
  have h : 1 ≤ r.effectiveStep ∧ r.effectiveStep ≤ 1000000
      ∧ (86400 + r.effectiveStep - 1 : Int) / r.effectiveStep < 2 ^ 31 := by
    simp only [sampleRras, List.mem_cons, List.not_mem_nil, or_false] at hr
    rcases hr with rfl | rfl | rfl | rfl <;> decide
  exact ⟨h.1, h.2.1, by rw [points_eq h.1]; exact h.2.2⟩

/-- A minute gives 1440 points, the one step of the sample in the window. -/
theorem selectStepFromRras_sample :
    ∃ e, (eligible sampleRras 10).find? (inWindow <| ·.points 86400) = some e
      ∧ selectStepFromRras sampleRras 86400 86400 10 = e.effectiveStep :=
  (selectStepFromRras_spec (by decide) sampleRras_fits 86400 10).1
    ⟨⟨6, 60, str "AVERAGE"⟩, by decide, by unfold inWindow; rw [points_eq (by decide)]; decide⟩

end Svgd.Backend
