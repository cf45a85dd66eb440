import Svgd.Lib.Js
import Svgd.Lib.Double

/-!
# The numbers of the engine

Doubles with the operations of a script. A number is printed with the fewest digits that give
it back; `toFixed` rounds its exact value, up in the middle.
-/

namespace Lib

namespace Double

/-! ## Arithmetic -/

/-- `-x`. -/
def neg : Double → Double
  | nan s => nan s
  | inf s => inf (!s)
  | negZero => fin 0
  | fin q => if q = 0 then negZero else fin (-q)

/-- `x - y`. -/
def sub (x y : Double) : Double := add x (neg y)

/-- `x === y`. -/
def same (x y : Double) : Bool := !x.isNan && !y.isNan && !lt x y && !lt y x

/-- `Math.max(x, y)`; a positive zero is above a negative one. -/
def maximum (x y : Double) : Double :=
  if x.isNan then x
  else if y.isNan then y
  else if lt x y then y
  else if lt y x then x
  else if x = negZero then y
  else x

/-- `Math.min(x, y)`. -/
def minimum (x y : Double) : Double :=
  if x.isNan then x
  else if y.isNan then y
  else if lt y x then y
  else if lt x y then x
  else if y = negZero then y
  else x

/-- `Math.abs(x)`. -/
def abs : Double → Double
  | nan _ => nan false
  | inf _ => inf false
  | negZero => fin 0
  | fin q => fin |q|

/-- `Math.floor(x)`. -/
def floor : Double → Double
  | fin q => ofInt ⌊q⌋
  | x => x

/-- `Math.round(x)`: up in the middle, and a number rounded to zero keeps its sign. -/
def nearest : Double → Double
  | fin q => if q < 0 ∧ -1 / 2 ≤ q then negZero else ofInt ⌊q + 1 / 2⌋
  | x => x

end Double

namespace Js

/-! ## Texts of numbers -/

def digits (n : Nat) : Text := Nat.toDigits 10 n

def zeros (k : Nat) : Text := List.replicate k '0'

/-- The number with `k` digits nearest to `q`, if it has the same double: its digits, and how many
of them are in front of the point. -/
def candidate (q : ℚ) (k : Nat) : Option (Nat × Int) :=
  let n := Int.log 10 q + 1
  let s := (roundHalfEven (q / 10 ^ (n - k))).toNat
  if Double.round (s * 10 ^ (n - k)) = .fin q then
    -- one digit may be rounded up to ten
    if k = 1 ∧ s = 10 then some (1, n + 1) else some (s, n)
  else none

/-- The digits of a positive number. Seventeen are always enough. -/
def shortest (q : ℚ) : Nat × Int :=
  ((List.range 17).findSome? fun k => candidate q (k + 1)).getD (0, 1)

/-- The text of a positive number. -/
def positiveText (q : ℚ) : Text :=
  let ds := digits (shortest q).1
  let n := (shortest q).2
  let k := ds.length
  if k ≤ n ∧ n ≤ 21 then ds ++ zeros (n.toNat - k)
  else if 0 < n ∧ n ≤ 21 then ds.take n.toNat ++ '.' :: ds.drop n.toNat
  else if -6 < n ∧ n ≤ 0 then txt "0." ++ zeros (-n).toNat ++ ds
  else
    ds.take 1 ++ (if k = 1 then [] else '.' :: ds.drop 1)
      ++ 'e' :: (if 0 < n then '+' else '-') :: digits (n - 1).natAbs

/-- `x.toString()`. -/
def doubleText : Double → Text
  | .nan _ => txt "NaN"
  | .inf neg => if neg then txt "-Infinity" else txt "Infinity"
  | .negZero => txt "0"
  | .fin q => if q = 0 then txt "0" else if q < 0 then '-' :: positiveText (-q) else positiveText q

/-- A number that is not negative, with `f` digits behind the point. -/
def fixedText (f : Nat) (q : ℚ) : Text :=
  let ds := digits ⌊q * 10 ^ f + 1 / 2⌋.toNat
  let ds := zeros (f + 1 - ds.length) ++ ds
  if f = 0 then ds else ds.take (ds.length - f) ++ '.' :: ds.drop (ds.length - f)

/-- `x.toFixed(f)`. -/
def doubleFixed (f : Nat) : Double → Text
  | .fin q =>
      if 10 ^ 21 ≤ |q| then doubleText (.fin q)
      else if q < 0 then '-' :: fixedText f (-q)
      else fixedText f q
  | .negZero => fixedText f 0
  | x => doubleText x

/-- The value of a text of digits. -/
def digitsValue (ds : Text) : Nat := ds.foldl (fun n c => n * 10 + (c.toNat - 48)) 0

/-- `parseFloat` behind the sign. -/
def parseUnsigned (s : Text) : Double :=
  if (txt "Infinity").isPrefixOf s then .inf false
  else
    let int := s.takeWhile Char.isDigit
    let rest := s.drop int.length
    let frac := if rest.head? = some '.' then (rest.drop 1).takeWhile Char.isDigit else []
    if int = [] ∧ frac = [] then .nan false
    else
      let rest := if rest.head? = some '.' then rest.drop (frac.length + 1) else rest
      let exp : Int := match rest with
        | 'e' :: '-' :: ds => -(digitsValue (ds.takeWhile Char.isDigit))
        | 'e' :: '+' :: ds => digitsValue (ds.takeWhile Char.isDigit)
        | 'e' :: ds => digitsValue (ds.takeWhile Char.isDigit)
        | _ => 0
      Double.round (digitsValue (int ++ frac) * 10 ^ (exp - frac.length))

/-- `parseFloat(s)` for a text without white space in front. -/
def parseDouble : Text → Double
  | '-' :: s => (parseUnsigned s).neg
  | '+' :: s => parseUnsigned s
  | s => parseUnsigned s

example : doubleText (Double.round (1 / 10)) = txt "0.1" ∧ doubleText (.fin 1500000) = txt "1500000"
    ∧ doubleText (Double.round (1 / 3)) = txt "0.3333333333333333"
    ∧ doubleText (Double.round (10 ^ 21)) = txt "1e+21"
    ∧ doubleText (Double.round (-1 / 10 ^ 7)) = txt "-1e-7" := by decide +kernel

example : doubleFixed 2 (.fin (-1 / 1000)) = txt "-0.00" ∧ doubleFixed 1 (.fin (5 / 4)) = txt "1.3"
    ∧ parseDouble (txt "-12.50e1") = .fin (-125) := by decide +kernel

/-! ## Their characters -/

theorem isNumeric_of_isDigit {c : Char} (h : c.isDigit = true) : isNumeric c = true := by
  have hall : ∀ n < 10, isNumeric (Char.ofNat (48 + n)) = true := by decide +kernel
  simp only [Char.isDigit, Bool.and_eq_true, decide_eq_true_eq, UInt32.le_iff_toNat_le] at h
  change 48 ≤ c.toNat ∧ c.toNat ≤ 57 at h
  have hc : Char.ofNat (48 + (c.toNat - 48)) = c := by
    have hsum : 48 + (c.toNat - 48) = c.toNat := by omega
    rw [hsum, Char.ofNat_toNat]
  rw [← hc]
  exact hall _ (by omega)

@[simp] theorem digits_numeric (n : Nat) : (digits n).all isNumeric = true :=
  List.all_eq_true.mpr fun _ hc =>
    isNumeric_of_isDigit (Nat.isDigit_of_mem_toDigits (by omega) (by omega) hc)

@[simp] theorem zeros_numeric (k : Nat) : (zeros k).all isNumeric = true :=
  List.all_eq_true.mpr fun c hc => by
    rw [List.eq_of_mem_replicate hc]
    rfl

theorem take_numeric {s : Text} (h : s.all isNumeric = true) (k : Nat) :
    (s.take k).all isNumeric = true :=
  List.all_eq_true.mpr fun c hc => List.all_eq_true.mp h c (List.mem_of_mem_take hc)

theorem drop_numeric {s : Text} (h : s.all isNumeric = true) (k : Nat) :
    (s.drop k).all isNumeric = true :=
  List.all_eq_true.mpr fun c hc => List.all_eq_true.mp h c (List.mem_of_mem_drop hc)

/-- What a number is printed with besides digits. -/
@[simp] theorem signs_numeric : isNumeric '.' = true ∧ isNumeric '-' = true ∧ isNumeric '+' = true
    ∧ isNumeric 'e' = true ∧ (txt "0.").all isNumeric = true := by decide +kernel

theorem positiveText_numeric (q : ℚ) : (positiveText q).all isNumeric = true := by
  unfold positiveText
  dsimp only
  have htake := take_numeric (digits_numeric (shortest q).1)
  have hdrop := drop_numeric (digits_numeric (shortest q).1)
  have htail : (digits (shortest q).1).tail.all isNumeric = true := by
    rw [← List.drop_one]
    exact hdrop 1
  split_ifs <;> simp [htake, hdrop, htail]

theorem doubleText_numeric (x : Double) : (doubleText x).all isNumeric = true := by
  have hwords : (txt "NaN").all isNumeric = true ∧ (txt "Infinity").all isNumeric = true
      ∧ (txt "-Infinity").all isNumeric = true ∧ (txt "0").all isNumeric = true := by decide +kernel
  unfold doubleText
  split
  · exact hwords.1
  · split_ifs <;> simp [hwords]
  · exact hwords.2.2.2
  · split_ifs <;> simp [hwords, positiveText_numeric]

theorem fixedText_numeric (f : Nat) (q : ℚ) : (fixedText f q).all isNumeric = true := by
  unfold fixedText
  dsimp only
  have hds : (zeros (f + 1 - (digits ⌊q * 10 ^ f + 1 / 2⌋.toNat).length)
      ++ digits ⌊q * 10 ^ f + 1 / 2⌋.toNat).all isNumeric = true := by simp
  split_ifs
  · exact hds
  · rw [List.all_append, List.all_cons, take_numeric hds, drop_numeric hds, signs_numeric.1]
    rfl

theorem doubleFixed_numeric (f : Nat) (x : Double) : (doubleFixed f x).all isNumeric = true := by
  unfold doubleFixed
  split
  · split_ifs <;> simp [doubleText_numeric, fixedText_numeric]
  · exact fixedText_numeric f 0
  · exact doubleText_numeric _

theorem isNan_round (q : ℚ) : (Double.round q).isNan = false := by
  unfold Double.round
  dsimp only
  split_ifs <;> rfl

instance : Num Double where
  add := Double.add
  sub := Double.sub
  mul := Double.mul
  div := Double.div
  num := Double.round
  infinity := .inf false
  negInfinity := .inf true
  lt := Double.lt
  eq := Double.same
  isNaN := Double.isNan
  max := Double.maximum
  min := Double.minimum
  abs := Double.abs
  floor := Double.floor
  round := Double.nearest
  toText := doubleText
  toFixed := doubleFixed
  parseFloat := parseDouble
  isNaN_num := isNan_round
  toText_numeric x := List.all_eq_true.mp (doubleText_numeric x)
  toFixed_numeric k x := List.all_eq_true.mp (doubleFixed_numeric k x)

/-! ## An engine -/

/-- The year, month and day of a day since 1970, with the month from zero. -/
def civil (day : Int) : Int × Int × Int :=
  -- years begin in March here, and eras have 400 of them
  let z := day + 719468
  let era := z / 146097
  let dayOfEra := z % 146097
  let year := (dayOfEra - dayOfEra / 1460 + dayOfEra / 36524 - dayOfEra / 146096) / 365
  let dayOfYear := dayOfEra - (365 * year + year / 4 - year / 100)
  let month := (5 * dayOfYear + 2) / 153
  let date := dayOfYear - (153 * month + 2) / 5 + 1
  (year + era * 400 + (if month < 10 then 0 else 1), if month < 10 then month + 2 else month - 10, date)

example : civil 0 = (1970, 0, 1) ∧ civil 19782 = (2024, 1, 29) := by decide

/-- A field of a time in milliseconds. -/
def utcField (field : Int → Int) : Double → Double
  | .fin q => .ofInt (field ⌊q⌋)
  | .negZero => .ofInt (field 0)
  | _ => .nan false

/-- An engine in UTC, with a stable `sort`, that knows the letters of ASCII. -/
def utcHost : Host Double where
  toLowerCase s := s.map Char.toLower
  month := utcField fun ms => (civil (ms / 86400000)).2.1
  date := utcField fun ms => (civil (ms / 86400000)).2.2
  hours := utcField fun ms => ms / 3600000 % 24
  minutes := utcField fun ms => ms / 60000 % 60
  seconds := utcField fun ms => ms / 1000 % 60
  sort compare l := l.mergeSort fun a b => !(Double.lt (.fin 0) (compare a b))
  sort_perm _ l := List.mergeSort_perm l _

end Js

end Lib
