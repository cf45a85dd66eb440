import Svgd.Lib.JsDouble

/-!
# Exact numbers of a script

The numbers of a script without rounding: rationals, the two infinities and NaN, with one zero.
What a program computes with them is what it would compute on paper; only a text is that of the
engine, for the nearest double.
-/

namespace Lib.Js

/-- An exact number, or what an operation without one gives. -/
inductive Exact where
  | nan
  | inf (neg : Bool)
  | fin (q : ℚ)
deriving DecidableEq

namespace Exact

def add : Exact → Exact → Exact
  | nan, _ => nan
  | _, nan => nan
  | inf s, inf t => if s = t then inf s else nan
  | inf s, _ => inf s
  | _, inf t => inf t
  | fin p, fin q => fin (p + q)

def neg : Exact → Exact
  | nan => nan
  | inf s => inf (!s)
  | fin q => fin (-q)

/-- The sign. -/
def isNeg : Exact → Bool
  | nan => false
  | inf s => s
  | fin q => decide (q < 0)

def mul : Exact → Exact → Exact
  | nan, _ => nan
  | _, nan => nan
  | fin p, fin q => fin (p * q)
  | x, y => if x = fin 0 ∨ y = fin 0 then nan else inf (x.isNeg != y.isNeg)

def div : Exact → Exact → Exact
  | nan, _ => nan
  | _, nan => nan
  | inf _, inf _ => nan
  | inf s, y => inf (s != y.isNeg)
  | fin _, inf _ => fin 0
  | fin p, fin q => if q = 0 then (if p = 0 then nan else inf (p < 0)) else fin (p / q)

def lt : Exact → Exact → Bool
  | nan, _ => false
  | _, nan => false
  | inf s, inf t => s && !t
  | inf s, _ => s
  | _, inf t => !t
  | fin p, fin q => decide (p < q)

/-- `Math.max(x, y)`. -/
def maximum (x y : Exact) : Exact :=
  if x = nan ∨ y = nan then nan else if lt x y then y else x

/-- `Math.min(x, y)`. -/
def minimum (x y : Exact) : Exact :=
  if x = nan ∨ y = nan then nan else if lt y x then y else x

def abs : Exact → Exact
  | nan => nan
  | inf _ => inf false
  | fin q => fin |q|

def floor : Exact → Exact
  | fin q => fin ⌊q⌋
  | x => x

/-- `Math.round(x)`. -/
def nearest : Exact → Exact
  | fin q => fin ⌊q + 1 / 2⌋
  | x => x

/-- The nearest double. -/
def toDouble : Exact → Double
  | nan => .nan false
  | inf s => .inf s
  | fin q => Double.round q

/-- The number a double is. -/
def ofDouble : Double → Exact
  | .nan _ => nan
  | .inf s => inf s
  | .negZero => fin 0
  | .fin q => fin q

end Exact

instance : Num Exact where
  add := Exact.add
  sub x y := x.add y.neg
  mul := Exact.mul
  div := Exact.div
  num := .fin
  infinity := .inf false
  negInfinity := .inf true
  lt := Exact.lt
  eq x y := x != .nan && x == y
  isNaN x := x == .nan
  max := Exact.maximum
  min := Exact.minimum
  abs := Exact.abs
  floor := Exact.floor
  round := Exact.nearest
  toText x := doubleText x.toDouble
  toFixed k x := doubleFixed k x.toDouble
  parseFloat s := .ofDouble (parseDouble s)
  isNaN_num _ := rfl
  toText_numeric x := List.all_eq_true.mp (doubleText_numeric x.toDouble)
  toFixed_numeric k x := List.all_eq_true.mp (doubleFixed_numeric k x.toDouble)

namespace Exact

variable (p q : ℚ)

@[simp] theorem num_eq : (num q : Exact) = fin q := rfl

@[simp] theorem fin_add : fin p + fin q = fin (p + q) := rfl

@[simp] theorem fin_sub : fin p - fin q = fin (p - q) := by
  show fin (p + -q) = fin (p - q)
  rw [sub_eq_add_neg]

@[simp] theorem fin_mul : fin p * fin q = fin (p * q) := rfl

theorem fin_div {q : ℚ} (h : q ≠ 0) : fin p / fin q = fin (p / q) := if_neg h

@[simp] theorem lt_fin : Num.lt (fin p) (fin q) = decide (p < q) := rfl

@[simp] theorem lt_infinity : Num.lt (fin p) (Num.infinity : Exact) = true := rfl

@[simp] theorem negInfinity_lt : Num.lt (Num.negInfinity : Exact) (fin p) = true := rfl

@[simp] theorem isNaN_fin : isNaN (fin q) = false := rfl

@[simp] theorem eq_fin : Num.eq (fin p) (fin q) = decide (p = q) := by
  show (fin p != nan && fin p == fin q) = _
  rw [Bool.eq_iff_iff]
  simp

@[simp] theorem max_fin : Num.max (fin p) (fin q) = fin (max p q) := by
  have h : Num.max (fin p) (fin q) = if p < q then fin q else fin p := by
    show (if fin p = nan ∨ fin q = nan then nan else if decide (p < q) then fin q else fin p) = _
    simp
  rw [h]
  split_ifs with hlt
  · rw [max_eq_right hlt.le]
  · rw [max_eq_left (not_lt.mp hlt)]

@[simp] theorem min_fin : Num.min (fin p) (fin q) = fin (min p q) := by
  have h : Num.min (fin p) (fin q) = if q < p then fin q else fin p := by
    show (if fin p = nan ∨ fin q = nan then nan else if decide (q < p) then fin q else fin p) = _
    simp
  rw [h]
  split_ifs with hlt
  · rw [min_eq_right hlt.le]
  · rw [min_eq_left (not_lt.mp hlt)]

@[simp] theorem abs_fin : Num.abs (fin q) = fin |q| := rfl

@[simp] theorem floor_fin : Num.floor (fin q) = fin ⌊q⌋ := rfl

theorem ge_fin : ge (fin p) (fin q) = decide (q ≤ p) := by
  show (!isNaN (fin p) && !isNaN (fin q) && !Num.lt (fin p) (fin q)) = _
  rw [Bool.eq_iff_iff]
  simp

/-- A number that is neither missing nor zero is no default. -/
theorem orNum_fin {q : ℚ} (h : q ≠ 0) (d : Exact) : orNum (some (fin q)) d = fin q := by
  show (if isNaN (fin q) || Num.eq (fin q) (num 0) then d else fin q) = _
  simp [h]

theorem orNum_zero (d : Exact) : orNum (some (fin 0)) d = d := by
  show (if isNaN (fin 0) || Num.eq (fin 0) (num 0) then d else fin 0) = _
  simp

end Exact

end Lib.Js
