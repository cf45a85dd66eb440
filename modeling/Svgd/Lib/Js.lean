import Mathlib.Data.Rat.Defs
import Mathlib.Tactic.Common

/-!
# What a script computes with

Strings and numbers as a JavaScript program sees them. A string is a list of characters.
The numbers are any type with the operations of the language: binary64 for the real engine,
or exact numbers where rounding is not the point. What the engine knows and the program does
not compute (the local time, the order `sort` gives to equal elements, the letters of other
scripts) is a `Host`.
-/

namespace Lib.Js

/-- A string. -/
abbrev Text := List Char

/-- The text of a literal. -/
def txt (s : String) : Text := s.toList

/-- A character that occurs in the text of a number. -/
def isNumeric (c : Char) : Bool := (txt "0123456789+-.eaNIfinty").contains c

/-- The numbers of a script, with what the operators, `Math` and `Number` make of them. -/
class Num (N : Type) extends Add N, Sub N, Mul N, Div N where
  /-- A numeric literal. -/
  num : ℚ → N
  infinity : N
  negInfinity : N
  /-- `x < y`. -/
  lt : N → N → Bool
  /-- `x === y`. -/
  eq : N → N → Bool
  isNaN : N → Bool
  max : N → N → N
  min : N → N → N
  abs : N → N
  floor : N → N
  round : N → N
  /-- `x.toString()`, which is also the text in a concatenation. -/
  toText : N → Text
  toFixed : Nat → N → Text
  parseFloat : Text → N
  isNaN_num : ∀ q, isNaN (num q) = false
  toText_numeric : ∀ x, ∀ c ∈ toText x, isNumeric c = true
  toFixed_numeric : ∀ k x, ∀ c ∈ toFixed k x, isNumeric c = true

/-- What the engine provides. -/
structure Host (N : Type) where
  toLowerCase : Text → Text
  /-- The fields of `new Date(t)`, in local time. -/
  month : N → N
  date : N → N
  hours : N → N
  minutes : N → N
  seconds : N → N
  /-- `sort` with a comparison. -/
  sort : {α : Type} → (α → α → N) → List α → List α
  sort_perm : ∀ {α : Type} (compare : α → α → N) (l : List α), (sort compare l).Perm l

section

variable {N : Type} [Num N]

export Num (num toText toFixed isNaN)

/-- `x >= y`. -/
def ge (x y : N) : Bool := !isNaN x && !isNaN y && !Num.lt x y

/-- `x || d` for a number that may be missing. -/
def orNum (x : Option N) (d : N) : N :=
  match x with
  | none => d
  | some v => if isNaN v || Num.eq v (num 0) then d else v

/-- The number of elements, as a number. -/
def len {α : Type} (l : List α) : N := num l.length

end

/-- `s || d` for a string that may be missing. -/
def orText (s : Option Text) (d : Text) : Text :=
  match s with
  | none => d
  | some [] => d
  | some (c :: t) => c :: t

/-! ## Strings -/

/-- The single quote. -/
def quote : Char := Char.ofNat 39

/-- The text before the first occurrence of a pattern, and the text behind it. -/
def splitFirst (pat : Text) : Text → Option (Text × Text)
  | [] => if pat = [] then some ([], []) else none
  | c :: s =>
      if pat.isPrefixOf (c :: s) then some ([], (c :: s).drop pat.length)
      else (splitFirst pat s).map fun r => (c :: r.1, r.2)

/-- A replacement with its `$` patterns filled in; there are no groups. -/
def expand (before pat after : Text) : Text → Text
  | [] => []
  | [c] => [c]
  | c :: d :: s =>
      if c = '$' then
        if d = '$' then '$' :: expand before pat after s
        else if d = '&' then pat ++ expand before pat after s
        else if d = Char.ofNat 96 then before ++ expand before pat after s
        else if d = quote then after ++ expand before pat after s
        else c :: expand before pat after (d :: s)
      else c :: expand before pat after (d :: s)

/-- `s.replace(pat, replacement)` for a pattern that is a string. -/
def replaceFirst (s pat replacement : Text) : Text :=
  match splitFirst pat s with
  | none => s
  | some (before, after) => before ++ (expand before pat after replacement ++ after)

/-- The number of code units of a character. -/
def units (c : Char) : Nat := if 0x10000 ≤ c.toNat then 2 else 1

/-- A letter or digit of ASCII. -/
def isAsciiAlnum (c : Char) : Bool := c.isAlpha || c.isDigit

/-- `s.replace(/[^a-zA-Z0-9]/g, '_')`: every other code unit becomes an underscore. -/
def underscored (s : Text) : Text :=
  s.flatMap fun c => if isAsciiAlnum c then [c] else List.replicate (units c) '_'

/-- `s.replace(/'/g, "\\'")`. -/
def quoteEscaped (s : Text) : Text := s.flatMap fun c => if c = quote then ['\\', quote] else [c]

/-- `('0' + x).slice(-2)`. -/
def twoDigits (s : Text) : Text := ('0' :: s).drop (s.length + 1 - 2)

end Lib.Js
