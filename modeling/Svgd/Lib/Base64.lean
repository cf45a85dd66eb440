import Svgd.Lib.CString

/-!
# Base64

The standard alphabet with padding and without line breaks: three bytes become
four characters.
-/

namespace Lib

/-- The character of a six-bit value. -/
def base64Char (v : Nat) : UInt8 :=
  if v < 26 then UInt8.ofNat (65 + v)
  else if v < 52 then UInt8.ofNat (71 + v)
  else if v < 62 then UInt8.ofNat (v - 4)
  else if v = 62 then ch '+'
  else ch '/'

/-- The six-bit value of a character. -/
def base64Val (c : UInt8) : Option Nat :=
  if ch 'A' ≤ c ∧ c ≤ ch 'Z' then some (c.toNat - 65)
  else if ch 'a' ≤ c ∧ c ≤ ch 'z' then some (c.toNat - 71)
  else if ch '0' ≤ c ∧ c ≤ ch '9' then some (c.toNat + 4)
  else if c = ch '+' then some 62
  else if c = ch '/' then some 63
  else none

/-- Encode, with padding. -/
def base64Text : Bytes → Bytes
  | [] => []
  | [a] =>
      [base64Char (a.toNat / 4), base64Char (a.toNat % 4 * 16), ch '=', ch '=']
  | [a, b] =>
      [base64Char (a.toNat / 4), base64Char (a.toNat % 4 * 16 + b.toNat / 16),
        base64Char (b.toNat % 16 * 4), ch '=']
  | a :: b :: c :: rest =>
      base64Char (a.toNat / 4) :: base64Char (a.toNat % 4 * 16 + b.toNat / 16)
        :: base64Char (b.toNat % 16 * 4 + c.toNat / 64) :: base64Char (c.toNat % 64)
        :: base64Text rest

/-- Decode groups of four; `none` on anything that is not complete base64. -/
def base64Bytes : Bytes → Option Bytes
  | [] => some []
  | w :: x :: y :: z :: rest =>
      match base64Val w, base64Val x, base64Val y, base64Val z, base64Bytes rest with
      | some w, some x, some y, some z, some tail =>
          some (UInt8.ofNat (w * 4 + x / 16) :: UInt8.ofNat (x % 16 * 16 + y / 4)
            :: UInt8.ofNat (y % 4 * 64 + z) :: tail)
      | some w, some x, some y, none, _ =>
          if z = ch '=' ∧ rest = [] then
            some [UInt8.ofNat (w * 4 + x / 16), UInt8.ofNat (x % 16 * 16 + y / 4)]
          else none
      | some w, some x, none, none, _ =>
          if y = ch '=' ∧ z = ch '=' ∧ rest = [] then some [UInt8.ofNat (w * 4 + x / 16)]
          else none
      | _, _, _, _, _ => none
  | _ => none

theorem length_base64Text : ∀ b : Bytes, (base64Text b).length = (b.length + 2) / 3 * 4
  | [] => rfl
  | [_] => by simp [base64Text]
  | [_, _] => by simp [base64Text]
  | _ :: _ :: _ :: rest => by
      have ih := length_base64Text rest
      simp only [base64Text, List.length_cons, ih]
      omega

/-! ## Reading back -/

theorem base64Val_base64Char {v : Nat} (h : v < 64) : base64Val (base64Char v) = some v := by
  have hall : ∀ w : Fin 64, base64Val (base64Char w) = some w.val := by decide
  exact hall ⟨v, h⟩

/-- Every byte gives six-bit values only. -/
theorem sixBits (a b : UInt8) :
    a.toNat / 4 < 64 ∧ a.toNat % 4 * 16 + b.toNat / 16 < 64 ∧ a.toNat % 16 * 4 + b.toNat / 64 < 64
      ∧ a.toNat % 64 < 64 ∧ a.toNat % 4 * 16 < 64 ∧ a.toNat % 16 * 4 < 64 := by
  have ha := a.toNat_lt
  have hb := b.toNat_lt
  omega

/-- The byte a quotient and a remainder are taken from. -/
theorem ofNat_eq_of {a : UInt8} {n : Nat} (h : n % 256 = a.toNat) : UInt8.ofNat n = a := by
  rw [← UInt8.toNat_inj, UInt8.toNat_ofNat']
  exact h

/-- **Decoding inverts encoding.** -/
theorem base64Bytes_base64Text : ∀ b : Bytes, base64Bytes (base64Text b) = some b
  | [] => rfl
  | [a] => by
      obtain ⟨h1, -, -, -, h2, -⟩ := sixBits a 0
      have hpad : base64Val (ch '=') = none := by decide
      have ha : UInt8.ofNat (a.toNat / 4 * 4 + a.toNat % 4 * 16 / 16) = a :=
        ofNat_eq_of (by have := a.toNat_lt; omega)
      simp only [base64Text, base64Bytes, base64Val_base64Char h1, base64Val_base64Char h2, hpad,
        ha, and_self, if_true]
  | [a, b] => by
      obtain ⟨h1, h2, -, -, -, -⟩ := sixBits a b
      obtain ⟨-, -, -, -, -, h3⟩ := sixBits b 0
      have hpad : base64Val (ch '=') = none := by decide
      have hb' := b.toNat_lt
      have ha : UInt8.ofNat (a.toNat / 4 * 4 + (a.toNat % 4 * 16 + b.toNat / 16) / 16) = a :=
        ofNat_eq_of (by have := a.toNat_lt; omega)
      have hb : UInt8.ofNat ((a.toNat % 4 * 16 + b.toNat / 16) % 16 * 16
          + b.toNat % 16 * 4 / 4) = b :=
        ofNat_eq_of (by omega)
      simp only [base64Text, base64Bytes, base64Val_base64Char h1, base64Val_base64Char h2,
        base64Val_base64Char h3, hpad, ha, hb, and_self, if_true]
  | a :: b :: c :: rest => by
      obtain ⟨h1, h2, -, -, -, -⟩ := sixBits a b
      obtain ⟨-, -, h3, -, -, -⟩ := sixBits b c
      obtain ⟨-, -, -, h4, -, -⟩ := sixBits c 0
      have hb' := b.toNat_lt
      have hc' := c.toNat_lt
      have ha : UInt8.ofNat (a.toNat / 4 * 4 + (a.toNat % 4 * 16 + b.toNat / 16) / 16) = a :=
        ofNat_eq_of (by have := a.toNat_lt; omega)
      have hb : UInt8.ofNat ((a.toNat % 4 * 16 + b.toNat / 16) % 16 * 16
          + (b.toNat % 16 * 4 + c.toNat / 64) / 4) = b :=
        ofNat_eq_of (by omega)
      have hc : UInt8.ofNat ((b.toNat % 16 * 4 + c.toNat / 64) % 4 * 64 + c.toNat % 64) = c :=
        ofNat_eq_of (by omega)
      simp only [base64Text, base64Bytes, base64Val_base64Char h1, base64Val_base64Char h2,
        base64Val_base64Char h3, base64Val_base64Char h4, base64Bytes_base64Text rest, ha, hb, hc]

/-- A character of the alphabet. -/
def isBase64Char (b : UInt8) : Bool := (base64Val b).isSome

theorem isBase64Char_base64Char {v : Nat} (h : v < 64) : isBase64Char (base64Char v) = true := by
  rw [isBase64Char, base64Val_base64Char h]
  rfl

/-- A text is characters of the alphabet and at most two signs of padding. -/
theorem base64Text_shape : ∀ b : Bytes, ∃ body k,
    base64Text b = body ++ List.replicate k (ch '=') ∧ k ≤ 2 ∧ body.all isBase64Char = true
  | [] => ⟨[], 0, rfl, by omega, rfl⟩
  | [a] => by
      obtain ⟨h1, -, -, -, h2, -⟩ := sixBits a 0
      exact ⟨[base64Char (a.toNat / 4), base64Char (a.toNat % 4 * 16)], 2, rfl, by omega,
        by simp [isBase64Char_base64Char h1, isBase64Char_base64Char h2]⟩
  | [a, b] => by
      obtain ⟨h1, h2, -, -, -, -⟩ := sixBits a b
      obtain ⟨-, -, -, -, -, h3⟩ := sixBits b 0
      exact ⟨[base64Char (a.toNat / 4), base64Char (a.toNat % 4 * 16 + b.toNat / 16),
        base64Char (b.toNat % 16 * 4)], 1, rfl, by omega,
        by simp [isBase64Char_base64Char h1, isBase64Char_base64Char h2,
          isBase64Char_base64Char h3]⟩
  | a :: b :: c :: rest => by
      obtain ⟨h1, h2, -, -, -, -⟩ := sixBits a b
      obtain ⟨-, -, h3, -, -, -⟩ := sixBits b c
      obtain ⟨-, -, -, h4, -, -⟩ := sixBits c 0
      obtain ⟨body, k, heq, hk, hbody⟩ := base64Text_shape rest
      refine ⟨base64Char (a.toNat / 4) :: base64Char (a.toNat % 4 * 16 + b.toNat / 16)
        :: base64Char (b.toNat % 16 * 4 + c.toNat / 64) :: base64Char (c.toNat % 64) :: body,
        k, by rw [base64Text, heq]; rfl, hk, ?_⟩
      simp only [List.all_cons, isBase64Char_base64Char h1, isBase64Char_base64Char h2,
        isBase64Char_base64Char h3, isBase64Char_base64Char h4, hbody, Bool.and_self]

end Lib
