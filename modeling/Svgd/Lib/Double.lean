import Svgd.Lib.Json
import Mathlib.Data.Int.Log
import Mathlib.Data.Rat.Floor

/-!
# Doubles

A `double` is a rational, a negative zero, an infinity or a NaN. Arithmetic is exact
arithmetic followed by rounding to binary64, ties to even. `%g` rounds to six
significant digits, ties to even, and chooses between the plain and the exponent
style as C does; for a finite number its text is a decimal literal.
-/

namespace Lib

/-- A `double`; the rationals that occur are binary64 numbers. -/
inductive Double where
  | nan (neg : Bool)
  | inf (neg : Bool)
  | negZero
  | fin (q : ℚ)
deriving DecidableEq

/-- The nearest integer, the even one in the middle. -/
def roundHalfEven (x : ℚ) : Int :=
  let f := ⌊x⌋
  if x - f < 1 / 2 then f
  else if 1 / 2 < x - f then f + 1
  else if f % 2 = 0 then f
  else f + 1

namespace Double

/-- A number as the nearest binary64. -/
def round (q : ℚ) : Double :=
  if q = 0 then fin 0
  else
    -- the weight of the last of 53 bits, or of the last bit there is
    let e := max (Int.log 2 |q| - 52) (-1074)
    let v : ℚ := roundHalfEven (|q| / 2 ^ e) * 2 ^ e
    if 2 ^ 1024 ≤ v then inf (q < 0)
    else if v = 0 then (if q < 0 then negZero else fin 0)
    else fin (if q < 0 then -v else v)

/-- `isnan`. -/
def isNan : Double → Bool
  | nan _ => true
  | _ => false

/-- `isfinite`. -/
def isFinite : Double → Bool
  | nan _ | inf _ => false
  | negZero | fin _ => true

/-- `x >= 0`. -/
def nonneg : Double → Bool
  | nan _ => false
  | inf neg => !neg
  | negZero => true
  | fin q => 0 ≤ q

/-- `x + y`. -/
def add : Double → Double → Double
  | nan s, _ => nan s
  | _, nan s => nan s
  | inf s, inf t => if s = t then inf s else nan true
  | inf s, _ => inf s
  | _, inf s => inf s
  | negZero, negZero => negZero
  | negZero, fin q => fin q
  | fin q, negZero => fin q
  | fin p, fin q => round (p + q)

/-- The sign bit. -/
def isNeg : Double → Bool
  | nan s => s
  | inf s => s
  | negZero => true
  | fin q => decide (q < 0)

/-- The number, if it is finite. -/
def rat : Double → ℚ
  | fin q => q
  | _ => 0

/-- A zero with a sign. -/
def zero (neg : Bool) : Double := if neg then negZero else fin 0

/-- `x * y`. -/
def mul : Double → Double → Double
  | nan s, _ => nan s
  | _, nan s => nan s
  | inf s, inf t => inf (s != t)
  | inf s, y => if y.rat = 0 then nan true else inf (s != y.isNeg)
  | x, inf t => if x.rat = 0 then nan true else inf (x.isNeg != t)
  | x, y => if x.rat = 0 ∨ y.rat = 0 then zero (x.isNeg != y.isNeg) else round (x.rat * y.rat)

/-- `x / y`. -/
def div : Double → Double → Double
  | nan s, _ => nan s
  | _, nan s => nan s
  | inf _, inf _ => nan true
  | inf s, y => inf (s != y.isNeg)
  | x, inf t => zero (x.isNeg != t)
  | x, y =>
      if y.rat = 0 then if x.rat = 0 then nan true else inf (x.isNeg != y.isNeg)
      else if x.rat = 0 then zero (x.isNeg != y.isNeg)
      else round (x.rat / y.rat)

/-- `x < y`. -/
def lt : Double → Double → Bool
  | nan _, _ => false
  | _, nan _ => false
  | inf s, inf t => s && !t
  | inf s, _ => s
  | _, inf t => !t
  | x, y => decide (x.rat < y.rat)

/-- An integer as a `double`. -/
def ofInt (z : Int) : Double := round z

end Double

/-! ## `%g` -/

/-- The decimal exponent of a positive number rounded to six significant digits, and the
digits as a number. -/
def gSplit (q : ℚ) : Int × Nat :=
  let x := Int.log 10 q
  let m := (roundHalfEven (q / 10 ^ (x - 5))).toNat
  -- rounding up may carry into a seventh digit
  if m = 10 ^ 6 then (x + 1, 10 ^ 5) else (x, m)

/-- The `w` low digits of a number. -/
def padDigits : Nat → Nat → Bytes
  | 0, _ => []
  | w + 1, n => padDigits w (n / 10) ++ [digitChar (n % 10)]

/-- Digits without trailing zeros. -/
def stripZeros (s : Bytes) : Bytes := (s.reverse.dropWhile (· == ch '0')).reverse

theorem isDigit_of_mem_padDigits {w n : Nat} {b : UInt8} (h : b ∈ padDigits w n) :
    isDigit b = true := by
  induction w generalizing n with
  | zero => simp [padDigits] at h
  | succ w ih =>
      rcases List.mem_append.mp h with h | h
      · exact ih h
      · rw [List.mem_singleton] at h
        exact h ▸ isDigit_digitChar (Nat.mod_lt _ (by omega))

@[simp] theorem length_padDigits (w n : Nat) : (padDigits w n).length = w := by
  induction w generalizing n with
  | zero => rfl
  | succ w ih => rw [padDigits, List.length_append, ih, List.length_singleton]

theorem natValue_padDigits (w n : Nat) : natValue (padDigits w n) = n % 10 ^ w := by
  induction w generalizing n with
  | zero => rw [Nat.pow_zero, Nat.mod_one]; rfl
  | succ w ih =>
      have hdigit : natValue [digitChar (n % 10)] = n % 10 := by
        show 0 * 10 + digitVal (digitChar (n % 10)) = _
        rw [digitVal_digitChar (Nat.mod_lt _ (by decide))]
        omega
      rw [padDigits, natValue_append, ih, hdigit, List.length_singleton, Nat.pow_one, Nat.pow_succ,
        Nat.mul_comm (10 ^ w) 10, Nat.mod_mul]
      omega

theorem mem_of_mem_stripZeros {s : Bytes} {b : UInt8} (h : b ∈ stripZeros s) : b ∈ s := by
  have := (List.dropWhile_sublist _).subset (List.mem_reverse.mp h)
  exact List.mem_reverse.mp this

/-- The literal `%g` writes for a positive number, with a sign. -/
def gLit (neg : Bool) (q : ℚ) : NumLit :=
  let x := (gSplit q).1
  let m := (gSplit q).2
  if x < -4 ∨ 6 ≤ x then
    ⟨neg, m / 10 ^ 5, stripZeros (padDigits 5 m),
      fun _ h => isDigit_of_mem_padDigits (mem_of_mem_stripZeros h), some x⟩
  else if 0 ≤ x then
    ⟨neg, m / 10 ^ (5 - x.toNat), stripZeros (padDigits (5 - x.toNat) m),
      fun _ h => isDigit_of_mem_padDigits (mem_of_mem_stripZeros h), none⟩
  else
    ⟨neg, 0, stripZeros (padDigits (5 + (-x).toNat) m),
      fun _ h => isDigit_of_mem_padDigits (mem_of_mem_stripZeros h), none⟩

/-- The literal `%g` writes for a finite number. -/
def gLiteral : Double → NumLit
  | .fin q => if q = 0 then .ofInt 0 else gLit (q < 0) |q|
  | .negZero => { NumLit.ofInt 0 with neg := true }
  | _ => .ofInt 0

/-- `%g`. -/
def formatG : Double → Bytes
  | .nan neg => if neg then str "-nan" else str "nan"
  | .inf neg => if neg then str "-inf" else str "inf"
  | d => (gLiteral d).text

theorem formatG_of_isFinite {d : Double} (h : d.isFinite = true) :
    formatG d = (gLiteral d).text := by
  cases d with
  | nan _ => exact absurd h (by simp [Double.isFinite])
  | inf _ => exact absurd h (by simp [Double.isFinite])
  | negZero => rfl
  | fin q => rfl

example : formatG (.fin 1500000) = str "1.5e+06" ∧ formatG (.fin (1 / 8)) = str "0.125"
    ∧ formatG (.fin (-1234567 / 10)) = str "-123457" ∧ formatG .negZero = str "-0" := by
  decide +kernel

end Lib
