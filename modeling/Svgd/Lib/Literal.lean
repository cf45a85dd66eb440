import Svgd.Lib.Decimal

/-!
# Numeric literals

The texts `strtod` and `strtoll` convert to their last byte, as the C standard writes their
subject sequences: an optional sign, then decimal or hexadecimal digits with at most one
point and at most one exponent. The names of the infinities and of NaN are not among them.

Nothing here says what a literal is worth. A parser that must not accept anything else needs
to know where a literal can stand: it has no blanks, no line ends and no braces in it.
-/

namespace Lib

/-- A text without the sign in front of it. -/
def dropSign : Bytes → Bytes
  | [] => []
  | b :: t => if b = ch '+' ∨ b = ch '-' then t else b :: t

/-- One or more decimal digits. -/
def isDigits (t : Bytes) : Bool := !t.isEmpty && t.all isDigit

/-- A decimal integer. -/
def isIntegerLiteral (t : Bytes) : Bool := isDigits (dropSign t)

/-- `isxdigit`. -/
def isHexDigit (b : UInt8) : Bool :=
  isDigit b || (65 ≤ b.toNat && b.toNat ≤ 70) || (97 ≤ b.toNat && b.toNat ≤ 102)

/-- An exponent with its mark, or nothing. -/
def isExponent (mark : UInt8 → Bool) : Bytes → Bool
  | [] => true
  | b :: t => mark b && isDigits (dropSign t)

/-- Digits of one kind with at most one point among them, and at most one exponent. -/
def isFloating (digit mark : UInt8 → Bool) (t : Bytes) : Bool :=
  let whole := t.takeWhile digit
  let r := t.dropWhile digit
  if startsWith r (str ".") then
    let frac := (r.drop 1).takeWhile digit
    !(whole ++ frac).isEmpty && isExponent mark ((r.drop 1).dropWhile digit)
  else !whole.isEmpty && isExponent mark r

/-- A floating-point literal. -/
def isFloatLiteral (t : Bytes) : Bool :=
  let u := dropSign t
  isFloating isDigit (fun b => b == ch 'e' || b == ch 'E') u
    || (startsWith u (str "0x") || startsWith u (str "0X"))
      && isFloating isHexDigit (fun b => b == ch 'p' || b == ch 'P') (u.drop 2)

/-- A byte that can stand in a literal. -/
def isLiteralByte (b : UInt8) : Bool :=
  isHexDigit b || b == ch '+' || b == ch '-' || b == ch '.'
    || b == ch 'x' || b == ch 'X' || b == ch 'p' || b == ch 'P'

theorem isLiteralByte_of_isHexDigit {b : UInt8} (h : isHexDigit b = true) : isLiteralByte b = true := by
  unfold isLiteralByte
  rw [h]
  rfl

theorem isLiteralByte_of_isDigit {b : UInt8} (h : isDigit b = true) : isLiteralByte b = true := by
  apply isLiteralByte_of_isHexDigit
  unfold isHexDigit
  rw [h]
  rfl

/-! ## The bytes of a literal -/

theorem mem_of_dropSign {t : Bytes} (h : ∀ b ∈ dropSign t, isLiteralByte b = true) :
    ∀ b ∈ t, isLiteralByte b = true := by
  cases t with
  | nil => exact h
  | cons c t =>
      rw [dropSign] at h
      by_cases hsign : c = ch '+' ∨ c = ch '-'
      · rw [if_pos hsign] at h
        intro b hb
        rcases List.mem_cons.mp hb with rfl | hb
        · rcases hsign with rfl | rfl
          · decide
          · decide
        · exact h b hb
      · rw [if_neg hsign] at h
        exact h

theorem isDigits_bytes {t : Bytes} (h : isDigits t = true) : ∀ b ∈ t, isLiteralByte b = true := by
  unfold isDigits at h
  rw [Bool.and_eq_true, List.all_eq_true] at h
  intro b hb
  exact isLiteralByte_of_isDigit (h.2 b hb)

theorem isExponent_bytes {mark : UInt8 → Bool} (hmark : ∀ b, mark b = true → isLiteralByte b = true)
    {t : Bytes} (h : isExponent mark t = true) : ∀ b ∈ t, isLiteralByte b = true := by
  cases t with
  | nil => simp
  | cons c t =>
      unfold isExponent at h
      rw [Bool.and_eq_true] at h
      intro b hb
      rcases List.mem_cons.mp hb with rfl | hb
      · exact hmark b h.1
      · exact mem_of_dropSign (isDigits_bytes h.2) b hb

theorem isFloating_bytes {digit mark : UInt8 → Bool}
    (hdigit : ∀ b, digit b = true → isLiteralByte b = true)
    (hmark : ∀ b, mark b = true → isLiteralByte b = true) {t : Bytes}
    (h : isFloating digit mark t = true) : t ≠ [] ∧ ∀ b ∈ t, isLiteralByte b = true := by
  have hwhole : ∀ s : Bytes, ∀ b ∈ s.takeWhile digit, isLiteralByte b = true :=
    fun s b hb => hdigit b (List.mem_takeWhile_imp hb)
  have hmem : ∀ (s : Bytes) (b : UInt8), b ∈ s → b ∈ s.takeWhile digit ∨ b ∈ s.dropWhile digit := by
    intro s b hb
    rw [← List.mem_append, List.takeWhile_append_dropWhile]
    exact hb
  unfold isFloating at h
  dsimp only at h
  split at h
  · rename_i hpoint
    rw [Bool.and_eq_true] at h
    obtain ⟨r, hr⟩ := startsWith_iff.mp hpoint
    rw [hr] at h
    have hrest := isExponent_bytes hmark h.2
    refine ⟨?_, ?_⟩
    · rintro rfl
      exact absurd hr (by simp [str])
    · intro b hb
      rcases hmem t b hb with hb | hb
      · exact hwhole t b hb
      · rw [hr] at hb
        rcases List.mem_append.mp hb with hb | hb
        · rw [List.mem_singleton.mp hb]
          decide
        · rcases hmem r b hb with hb | hb
          · exact hwhole r b hb
          · exact hrest b hb
  · rw [Bool.and_eq_true] at h
    have hrest := isExponent_bytes hmark h.2
    refine ⟨?_, ?_⟩
    · rintro rfl
      exact absurd h.1 (by simp)
    · intro b hb
      rcases hmem t b hb with hb | hb
      · exact hwhole t b hb
      · exact hrest b hb

/-- A literal is a word without blanks, line ends and braces. -/
theorem isFloatLiteral_bytes {t : Bytes} (h : isFloatLiteral t = true) :
    t ≠ [] ∧ ∀ b ∈ t, isLiteralByte b = true := by
  have hsign : ∀ u, dropSign t = u → u ≠ [] → t ≠ [] := by
    rintro u rfl hne rfl
    exact hne rfl
  unfold isFloatLiteral at h
  rw [Bool.or_eq_true, Bool.and_eq_true, Bool.or_eq_true] at h
  rcases h with h | ⟨hzero, h⟩
  · obtain ⟨hne, hbytes⟩ := isFloating_bytes (fun b hb => isLiteralByte_of_isDigit hb) (by
      intro b hb
      rw [Bool.or_eq_true, beq_iff_eq, beq_iff_eq] at hb
      rcases hb with rfl | rfl
      · decide
      · decide) h
    exact ⟨hsign _ rfl hne, mem_of_dropSign hbytes⟩
  · obtain ⟨hne, hbytes⟩ := isFloating_bytes (fun b hb => isLiteralByte_of_isHexDigit hb) (by
      intro b hb
      rw [Bool.or_eq_true, beq_iff_eq, beq_iff_eq] at hb
      rcases hb with rfl | rfl
      · decide
      · decide) h
    obtain ⟨x, u, hx, hu⟩ : ∃ x u, (∀ b ∈ x, isLiteralByte b = true) ∧ dropSign t = x ++ u
        ∧ u = (dropSign t).drop 2 := by
      rcases hzero with hzero | hzero
      · obtain ⟨u, hu⟩ := startsWith_iff.mp hzero
        exact ⟨str "0x", u, List.all_eq_true.mp (by decide), hu, by rw [hu]; rfl⟩
      · obtain ⟨u, hu⟩ := startsWith_iff.mp hzero
        exact ⟨str "0X", u, List.all_eq_true.mp (by decide), hu, by rw [hu]; rfl⟩
    rw [← hu.2] at hne hbytes
    refine ⟨hsign _ hu.1 (by simp [hne]), mem_of_dropSign ?_⟩
    rw [hu.1]
    intro b hb
    rcases List.mem_append.mp hb with hb | hb
    · exact hx b hb
    · exact hbytes b hb

theorem isIntegerLiteral_bytes {t : Bytes} (h : isIntegerLiteral t = true) :
    t ≠ [] ∧ ∀ b ∈ t, isLiteralByte b = true := by
  refine ⟨?_, mem_of_dropSign (isDigits_bytes h)⟩
  rintro rfl
  exact absurd h (by decide)

end Lib
