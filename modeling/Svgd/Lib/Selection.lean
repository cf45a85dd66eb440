import Mathlib.Data.List.MinMax
import Mathlib.Data.Rat.Floor

/-!
# Selecting the best element in one pass

A pass over a list that keeps one candidate, and replaces it by a strictly better
element, ends with the first of the best elements, which is Mathlib's `List.argmax`.
What `argmax` selects depends on the order of the keys only.
-/

namespace Lib

variable {α β γ : Type*} [LinearOrder β] [LinearOrder γ]

/-- The candidate after a pass over a list. -/
def choose (key : α → β) : α → List α → α
  | c, [] => c
  | c, x :: l => choose key (if key c < key x then x else c) l

theorem choose_mem_argmax (key : α → β) (l : List α) :
    ∀ c, choose key c l ∈ (c :: l).argmax key := by
  induction l with
  | nil => exact fun c => rfl
  | cons x l ih =>
      intro c
      have h : (c :: x :: l).argmax key = ((if key c < key x then x else c) :: l).argmax key := by
        unfold List.argmax
        simp only [List.foldl_cons, List.argAux]
        split <;> rfl
      rw [h]
      exact ih _

theorem choose_mem (key : α → β) (c : α) (l : List α) : choose key c l ∈ c :: l :=
  List.argmax_mem (choose_mem_argmax key l c)

/-- Two keys that order the elements alike select the same element. -/
theorem choose_congr {key : α → β} {key' : α → γ} {l : List α} :
    ∀ {c : α}, (∀ x ∈ c :: l, ∀ y ∈ c :: l, key x < key y ↔ key' x < key' y) →
      choose key c l = choose key' c l := by
  induction l with
  | nil => exact fun _ => rfl
  | cons x l ih =>
      intro c h
      have hcx := h c (by simp) x (by simp)
      unfold choose
      simp only [hcx]
      apply ih
      intro y hy z hz
      apply h
      · split at hy <;> grind
      · split at hz <;> grind

theorem argmax_congr {key : α → β} {key' : α → γ} {l : List α}
    (h : ∀ x ∈ l, ∀ y ∈ l, key x < key y ↔ key' x < key' y) : l.argmax key = l.argmax key' := by
  cases l with
  | nil => rfl
  | cons c l =>
      have h1 : (c :: l).argmax key = some (choose key c l) := choose_mem_argmax key l c
      have h2 : (c :: l).argmax key' = some (choose key' c l) := choose_mem_argmax key' l c
      rw [h1, h2, choose_congr h]

/-- The number of steps of a given length that cover a range. -/
def stepsIn (range : Int) (step : Nat) : Int := ⌈(range : ℚ) / step⌉

theorem stepsIn_eq {range : Int} {step : Nat} (h : 1 ≤ step) :
    stepsIn range step = (range + step - 1) / step := by
  unfold stepsIn
  rw [Rat.ceil_intCast_div_natCast]
  have hs : (0 : Int) < step := by omega
  have h1 := Int.mul_ediv_add_emod (-range) step
  have h2 := Int.emod_nonneg (-range) (Int.ne_of_gt hs)
  have h3 := Int.emod_lt_of_pos (-range) hs
  rw [eq_comm, Int.ediv_eq_iff_of_pos hs]
  constructor
  · nlinarith
  · nlinarith

/-- A shorter step needs no fewer steps. -/
theorem stepsIn_anti {range : Int} (hr : 0 ≤ range) {step step' : Nat} (h : 1 ≤ step)
    (hle : step ≤ step') : stepsIn range step' ≤ stepsIn range step := by
  unfold stepsIn
  apply Int.ceil_le_ceil
  gcongr

theorem stepsIn_pos {range : Int} (hr : 0 < range) {step : Nat} (h : 1 ≤ step) :
    0 < stepsIn range step := by
  unfold stepsIn
  apply Int.ceil_pos.mpr
  have h' : (0 : ℚ) < step := by exact_mod_cast h
  have hr' : (0 : ℚ) < range := by exact_mod_cast hr
  positivity

theorem le_stepsIn_mul {range : Int} {step : Nat} (h : 1 ≤ step) :
    range ≤ stepsIn range step * step := by
  have hq : (0 : ℚ) < step := by exact_mod_cast h
  have hle : (range : ℚ) / step ≤ stepsIn range step := Int.le_ceil _
  have hmul : (range : ℚ) ≤ stepsIn range step * step := (div_le_iff₀ hq).mp hle
  exact_mod_cast hmul

end Lib
