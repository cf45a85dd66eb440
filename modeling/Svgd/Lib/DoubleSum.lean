import Svgd.Lib.Double

/-!
# The sum of doubles

The sum of a list of doubles is the exact sum of the numbers, rounded once. For two numbers
that is what `+` computes. With more of them it depends on no order, and on no rounding in
between.
-/

namespace Lib

namespace Double

/-- A value that a `double` can have: a rational is a binary64. -/
def IsBinary64 : Double → Prop
  | fin q => round q = fin q
  | _ => True

/-- The sum, rounded once. -/
def exactSum (ds : List Double) : Double :=
  if inf true ∈ ds then (if inf false ∈ ds then nan true else inf true)
  else if inf false ∈ ds then inf false
  else round (ds.map rat).sum

/-- Zero without its sign; `==` does not see the sign. -/
def unsigned : Double → Double
  | negZero => fin 0
  | d => d

theorem nonneg_unsigned (d : Double) : d.unsigned.nonneg = d.nonneg := by
  cases d with
  | negZero => rfl
  | nan _ => rfl
  | inf _ => rfl
  | fin _ => rfl

@[simp] theorem unsigned_unsigned (d : Double) : d.unsigned.unsigned = d.unsigned := by
  cases d with
  | negZero => rfl
  | nan _ => rfl
  | inf _ => rfl
  | fin _ => rfl

theorem round_zero : round 0 = fin 0 := if_pos rfl

theorem exactSum_nil : exactSum [] = fin 0 := by
  unfold exactSum
  simp [round_zero]

variable {a b : Double}

/-- Adding to zero loses nothing but the sign of a zero. -/
theorem fin_zero_add (ha : a.isNan = false) (hb : a.IsBinary64) : (fin 0).add a = a.unsigned := by
  cases a with
  | nan _ => exact absurd ha (by simp [isNan])
  | inf _ => rfl
  | negZero => rfl
  | fin q =>
      show round (0 + q) = fin q
      rw [zero_add]
      exact hb

theorem unsigned_add_zero (ha : a.isNan = false) (hb : a.IsBinary64) : a.unsigned.add (fin 0) = a.unsigned := by
  cases a with
  | nan _ => exact absurd ha (by simp [isNan])
  | inf _ => rfl
  | negZero =>
      show round (0 + 0) = fin 0
      rw [add_zero, round_zero]
  | fin q =>
      show round (q + 0) = fin q
      rw [add_zero]
      exact hb

theorem exactSum_singleton (ha : a.isNan = false) (hb : a.IsBinary64) : exactSum [a] = a.unsigned := by
  cases a with
  | nan _ => exact absurd ha (by simp [isNan])
  | inf s => cases s <;> rfl
  | negZero =>
      unfold exactSum
      simp [rat, unsigned, round_zero]
  | fin q =>
      unfold exactSum
      simp only [List.mem_singleton, reduceCtorEq, if_false, List.map_cons, List.map_nil,
        List.sum_singleton]
      exact hb

/-- **The sum of two numbers is what `+` computes.** -/
theorem exactSum_pair (ha : a.isNan = false) (hb : b.isNan = false) (ha' : a.IsBinary64)
    (hb' : b.IsBinary64) : exactSum [a, b] = a.unsigned.add b := by
  cases a with
  | nan _ => exact absurd ha (by simp [isNan])
  | inf s =>
      cases b with
      | nan _ => exact absurd hb (by simp [isNan])
      | inf t => cases s <;> cases t <;> rfl
      | negZero => cases s <;> simp [exactSum, unsigned, add]
      | fin q => cases s <;> simp [exactSum, unsigned, add]
  | negZero =>
      cases b with
      | nan _ => exact absurd hb (by simp [isNan])
      | inf t => cases t <;> simp [exactSum, unsigned, add]
      | negZero => simp [exactSum, unsigned, add, rat, round_zero]
      | fin q =>
          have hq : round q = fin q := hb'
          simp [exactSum, unsigned, add, rat, hq]
  | fin p =>
      cases b with
      | nan _ => exact absurd hb (by simp [isNan])
      | inf t => cases t <;> simp [exactSum, unsigned, add]
      | negZero =>
          have hp : round p = fin p := ha'
          simp [exactSum, unsigned, add, rat, hp]
      | fin q => simp [exactSum, unsigned, add, rat]

end Double

end Lib
