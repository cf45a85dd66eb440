import Svgd.Lib.Decimal
import Svgd.Lib.JsonText
import Mathlib.Data.Rat.Defs
import Mathlib.Algebra.Order.Field.Rat
import Mathlib.Algebra.Field.Rat
import Mathlib.Tactic.Common

/-!
# JSON

Values, and a decoder for JSON texts. The decoder is the standard grammar: the text
is well-formed UTF-8, white space may stand around tokens, strings hold no raw
control character, numbers have no superfluous zeros. It is fuelled by the length of
the text, which bounds both nesting and the number of elements.
-/

namespace Lib

/-- A JSON value; strings are their UTF-8 bytes, objects keep every member in order. -/
inductive Json where
  | null
  | bool (b : Bool)
  | num (q : ℚ)
  | str (s : Bytes)
  | arr (items : List Json)
  | obj (members : List (Bytes × Json))

/-- The value of the last member with a key, which is the one a JavaScript object keeps. -/
def Json.member (members : List (Bytes × Json)) (key : Bytes) : Option Json :=
  (members.reverse.find? (·.1 == key)).map (·.2)

/-! ## Number literals -/

/-- The pieces of a decimal literal. -/
structure NumLit where
  neg : Bool
  int : Nat
  /-- The digits after the point. -/
  frac : Bytes
  frac_digits : ∀ b ∈ frac, isDigit b = true
  exp : Option Int

/-- The exponent as `printf` writes it: a sign and at least two digits. -/
def expText (e : Int) : Bytes :=
  (if e < 0 then ch '-' else ch '+') ::
    (if e.natAbs < 10 then ch '0' :: printNat e.natAbs else printNat e.natAbs)

/-- The exponent part of a literal, if it has one. -/
def expPart : Option Int → Bytes
  | none => []
  | some e => ch 'e' :: expText e

/-- The text of a literal. -/
def NumLit.text (n : NumLit) : Bytes :=
  (if n.neg then [ch '-'] else []) ++ (printNat n.int ++
    ((if n.frac = [] then [] else ch '.' :: n.frac) ++ expPart n.exp))

/-- The number with these sign, digits before and after the point, and exponent. -/
def decimalValue (neg : Bool) (int : Nat) (frac : Bytes) (exp : Int) : ℚ :=
  (if neg then -1 else 1) * ((int : ℚ) + natValue frac / 10 ^ frac.length) * 10 ^ exp

/-- The number a literal denotes. -/
def NumLit.value (n : NumLit) : ℚ := decimalValue n.neg n.int n.frac (n.exp.getD 0)

/-- An integer as a literal. -/
def NumLit.ofInt (z : Int) : NumLit :=
  ⟨decide (z < 0), z.natAbs, [], fun _ h => absurd h List.not_mem_nil, none⟩

/-! ## The decoder -/

/-- JSON white space. -/
def isJsonSpace (b : UInt8) : Bool :=
  b == ch ' ' || b == ch '\t' || b == ch '\n' || b == ch '\r'

/-- The text after leading white space. -/
def skipSpace (s : Bytes) : Bytes := s.dropWhile isJsonSpace

/-- A hex digit in either case. -/
def hexValue (b : UInt8) : Option Nat :=
  if isDigit b then some (b.toNat - 48)
  else if 97 ≤ b.toNat ∧ b.toNat ≤ 102 then some (b.toNat - 87)
  else if 65 ≤ b.toNat ∧ b.toNat ≤ 70 then some (b.toNat - 55)
  else none

/-- Four hex digits and the text after them. -/
def parseHex4 : Bytes → Option (Nat × Bytes)
  | a :: b :: c :: d :: s =>
      match hexValue a, hexValue b, hexValue c, hexValue d with
      | some a, some b, some c, some d => some (a * 4096 + b * 256 + c * 16 + d, s)
      | _, _, _, _ => none
  | _ => none

/-- What the letter after a backslash stands for. -/
def escapeLetter (e : UInt8) : Option UInt8 :=
  if e = ch '"' then some (ch '"')
  else if e = ch '\\' then some (ch '\\')
  else if e = ch '/' then some (ch '/')
  else if e = ch 'b' then some 8
  else if e = ch 'f' then some 12
  else if e = ch 'n' then some 10
  else if e = ch 'r' then some 13
  else if e = ch 't' then some 9
  else none

/-- The second half of a surrogate pair, if it stands at the front. -/
def parseLowSurrogate : Bytes → Option (Nat × Bytes)
  | b :: u :: s =>
      if b = ch '\\' ∧ u = ch 'u' then
        match parseHex4 s with
        | some (lo, s) => if isLowSurrogate lo then some (lo, s) else none
        | none => none
      else none
  | _ => none

/-- The escape after a backslash: the bytes it stands for and the text after it. -/
def parseEscape : Bytes → Option (Bytes × Bytes)
  | [] => none
  | e :: s =>
      if e = ch 'u' then
        match parseHex4 s with
        | none => none
        | some (c, s) =>
            if isHighSurrogate c then
              match parseLowSurrogate s with
              | some (lo, s) => some (utf8 (0x10000 + (c - 0xD800) * 0x400 + (lo - 0xDC00)), s)
              | none => some (utf8 c, s)
            else some (utf8 c, s)
      else (escapeLetter e).map fun b => ([b], s)

/-- The rest of a string, after its opening quote. -/
def parseStringGo : Nat → Bytes → Option (Bytes × Bytes)
  | 0, _ => none
  | _, [] => none
  | fuel + 1, b :: s =>
      if b = ch '"' then some ([], s)
      else if b = ch '\\' then
        match parseEscape s with
        | none => none
        | some (x, s) => (parseStringGo fuel s).map fun (t, r) => (x ++ t, r)
      else if b.toNat < 0x20 then none
      else (parseStringGo fuel s).map fun (t, r) => (b :: t, r)

/-- A string, after its opening quote. -/
def parseString (s : Bytes) : Option (Bytes × Bytes) := parseStringGo (s.length + 1) s

/-- Digits after a point; no point means none. -/
def parseFrac (s : Bytes) : Option (Bytes × Bytes) :=
  if startsWith s (str ".") then
    let ds := (s.drop 1).takeWhile isDigit
    if ds = [] then none else some (ds, (s.drop 1).dropWhile isDigit)
  else some ([], s)

/-- An exponent; none means zero. -/
def parseExp (s : Bytes) : Option (Int × Bytes) :=
  if startsWith s (str "e") ∨ startsWith s (str "E") then
    let neg := startsWith (s.drop 1) (str "-")
    let t := if neg ∨ startsWith (s.drop 1) (str "+") then s.drop 2 else s.drop 1
    let ds := t.takeWhile isDigit
    if ds = [] then none
    else some (if neg then -(natValue ds : Int) else natValue ds, t.dropWhile isDigit)
  else some (0, s)

/-- A number. -/
def parseNumber (s : Bytes) : Option (Json × Bytes) :=
  let neg := startsWith s (str "-")
  let s := if neg then s.drop 1 else s
  let ds := s.takeWhile isDigit
  if ds = [] ∨ (1 < ds.length ∧ ds.head? = some (ch '0')) then none
  else
    match parseFrac (s.dropWhile isDigit) with
    | none => none
    | some (frac, s) =>
        match parseExp s with
        | none => none
        | some (exp, s) => some (.num (decimalValue neg (natValue ds) frac exp), s)

mutual

/-- A value. -/
def parseValue : Nat → Bytes → Option (Json × Bytes)
  | 0, _ => none
  | fuel + 1, s =>
      match skipSpace s with
      | [] => none
      | b :: s =>
          if b = ch '"' then (parseString s).map fun (t, r) => (.str t, r)
          else if b = ch '[' then
            if startsWith (skipSpace s) (str "]") then some (.arr [], (skipSpace s).drop 1)
            else (parseItems fuel s).map fun (l, r) => (.arr l, r)
          else if b = ch '\x7b' then
            if startsWith (skipSpace s) (str "\x7d") then some (.obj [], (skipSpace s).drop 1)
            else (parseMembers fuel s).map fun (l, r) => (.obj l, r)
          else if startsWith (b :: s) (str "null") then some (.null, s.drop 3)
          else if startsWith (b :: s) (str "true") then some (.bool true, s.drop 3)
          else if startsWith (b :: s) (str "false") then some (.bool false, s.drop 4)
          else parseNumber (b :: s)

/-- The elements of an array, one at least, and its closing bracket. -/
def parseItems : Nat → Bytes → Option (List Json × Bytes)
  | 0, _ => none
  | fuel + 1, s =>
      match parseValue fuel s with
      | none => none
      | some (v, s) =>
          match skipSpace s with
          | [] => none
          | b :: s =>
              if b = ch ',' then (parseItems fuel s).map fun (l, r) => (v :: l, r)
              else if b = ch ']' then some ([v], s)
              else none

/-- The members of an object, one at least, and its closing brace. -/
def parseMembers : Nat → Bytes → Option (List (Bytes × Json) × Bytes)
  | 0, _ => none
  | fuel + 1, s =>
      match skipSpace s with
      | [] => none
      | q :: s =>
          if q = ch '"' then
            match parseString s with
            | none => none
            | some (k, s) =>
                match skipSpace s with
                | [] => none
                | c :: s =>
                    if c = ch ':' then
                      match parseValue fuel s with
                      | none => none
                      | some (v, s) =>
                          match skipSpace s with
                          | [] => none
                          | b :: s =>
                              if b = ch ',' then
                                (parseMembers fuel s).map fun (l, r) => ((k, v) :: l, r)
                              else if b = ch '\x7d' then some ([(k, v)], s)
                              else none
                    else none
          else none

end

/-- The value of a JSON text; `none` when it is not one. -/
def decodeJson (s : Bytes) : Option Json :=
  if validUtf8 s then
    match parseValue (s.length + 1) s with
    | some (v, rest) => if skipSpace rest = [] then some v else none
    | none => none
  else none

end Lib
