import Svgd.Lib.CString

/-!
# UTF-8

The encoding of code points, and the automaton that recognises well-formed text.
Surrogates are code points here and are given their three-byte form, so that a
JavaScript string with unpaired surrogates is a list of code points too; the
automaton rejects them, as the standard does.
-/

namespace Lib

/-- A Unicode code point, surrogates included. -/
abbrev CodePoint := Fin 0x110000

/-- The bytes of a code point. -/
def utf8 (c : Nat) : Bytes :=
  if c < 0x80 then [UInt8.ofNat c]
  else if c < 0x800 then [UInt8.ofNat (0xC0 + c / 64), UInt8.ofNat (0x80 + c % 64)]
  else if c < 0x10000 then
    [UInt8.ofNat (0xE0 + c / 4096), UInt8.ofNat (0x80 + c / 64 % 64),
      UInt8.ofNat (0x80 + c % 64)]
  else
    [UInt8.ofNat (0xF0 + c / 262144), UInt8.ofNat (0x80 + c / 4096 % 64),
      UInt8.ofNat (0x80 + c / 64 % 64), UInt8.ofNat (0x80 + c % 64)]

theorem utf8_ne_nil (c : Nat) : utf8 c ≠ [] := by
  unfold utf8
  split
  · simp
  split
  · simp
  split <;> simp

theorem length_utf8_le (c : Nat) : (utf8 c).length ≤ 4 := by
  unfold utf8
  split
  · simp
  split
  · simp
  split <;> simp

/-- Outside ASCII, every byte of an encoding has its top bit set. -/
theorem le_of_mem_utf8 {c : Nat} (hc : c < 0x110000) (h80 : 0x80 ≤ c) {b : UInt8}
    (h : b ∈ utf8 c) : 0x80 ≤ b.toNat := by
  unfold utf8 at h
  rw [if_neg (by omega)] at h
  split at h
  · simp only [List.mem_cons, List.not_mem_nil, or_false] at h
    rcases h with rfl | rfl <;> rw [UInt8.toNat_ofNat'] <;> omega
  split at h
  · simp only [List.mem_cons, List.not_mem_nil, or_false] at h
    rcases h with rfl | rfl | rfl <;> rw [UInt8.toNat_ofNat'] <;> omega
  · simp only [List.mem_cons, List.not_mem_nil, or_false] at h
    rcases h with rfl | rfl | rfl | rfl <;> rw [UInt8.toNat_ofNat'] <;> omega

/-! ## Reading back -/

/-- The code point at the front of a text and the text after it. -/
def utf8Head : Bytes → Option (Nat × Bytes)
  | [] => none
  | a :: s =>
      if a.toNat < 0x80 then some (a.toNat, s)
      else if a.toNat < 0xE0 then
        match s with
        | b :: s => some ((a.toNat - 0xC0) * 64 + (b.toNat - 0x80), s)
        | _ => none
      else if a.toNat < 0xF0 then
        match s with
        | b :: c :: s =>
            some ((a.toNat - 0xE0) * 4096 + (b.toNat - 0x80) * 64 + (c.toNat - 0x80), s)
        | _ => none
      else
        match s with
        | b :: c :: d :: s =>
            some ((a.toNat - 0xF0) * 262144 + (b.toNat - 0x80) * 4096
              + (c.toNat - 0x80) * 64 + (d.toNat - 0x80), s)
        | _ => none

/-- The bytes after the lead byte carry six bits each. -/
theorem toNat_tailByte (n : Nat) : (UInt8.ofNat (0x80 + n % 64)).toNat = 0x80 + n % 64 := by
  rw [UInt8.toNat_ofNat']
  omega

/-- **An encoding can be read off the front of any text.** -/
theorem utf8Head_utf8 {c : Nat} (hc : c < 0x110000) (s : Bytes) :
    utf8Head (utf8 c ++ s) = some (c, s) := by
  unfold utf8
  -- one case for each length; the lead byte tells which one it is
  split
  · rename_i h
    have ha : (UInt8.ofNat c).toNat = c := by rw [UInt8.toNat_ofNat']; omega
    simp only [List.cons_append, List.nil_append, utf8Head, ha, if_pos h]
  split
  · rename_i h1 h2
    have ha : (UInt8.ofNat (0xC0 + c / 64)).toNat = 0xC0 + c / 64 := by
      rw [UInt8.toNat_ofNat']; omega
    simp only [List.cons_append, List.nil_append, utf8Head, ha, toNat_tailByte]
    rw [if_neg (by omega), if_pos (by omega)]
    have hv : (0xC0 + c / 64 - 0xC0) * 64 + (0x80 + c % 64 - 0x80) = c := by omega
    rw [hv]
  split
  · rename_i h1 h2 h3
    have ha : (UInt8.ofNat (0xE0 + c / 4096)).toNat = 0xE0 + c / 4096 := by
      rw [UInt8.toNat_ofNat']; omega
    simp only [List.cons_append, List.nil_append, utf8Head, ha, toNat_tailByte]
    rw [if_neg (by omega), if_neg (by omega), if_pos (by omega)]
    have hv : (0xE0 + c / 4096 - 0xE0) * 4096 + (0x80 + c / 64 % 64 - 0x80) * 64
        + (0x80 + c % 64 - 0x80) = c := by omega
    rw [hv]
  · rename_i h1 h2 h3
    have ha : (UInt8.ofNat (0xF0 + c / 262144)).toNat = 0xF0 + c / 262144 := by
      rw [UInt8.toNat_ofNat']; omega
    simp only [List.cons_append, List.nil_append, utf8Head, ha, toNat_tailByte]
    rw [if_neg (by omega), if_neg (by omega), if_neg (by omega)]
    have hv : (0xF0 + c / 262144 - 0xF0) * 262144 + (0x80 + c / 4096 % 64 - 0x80) * 4096
        + (0x80 + c / 64 % 64 - 0x80) * 64 + (0x80 + c % 64 - 0x80) = c := by omega
    rw [hv]

/-! ## Well-formed text -/

/-- The ranges the bytes after a lead byte must lie in; `none` for no lead byte. -/
def utf8Lead (b : UInt8) : Option (List (Nat × Nat)) :=
  let n := b.toNat
  let tail := (0x80, 0xBF)
  if n < 0x80 then some []
  else if n < 0xC2 then none
  else if n < 0xE0 then some [tail]
  else if n = 0xE0 then some [(0xA0, 0xBF), tail]
  else if n = 0xED then some [(0x80, 0x9F), tail]
  else if n < 0xF0 then some [tail, tail]
  else if n = 0xF0 then some [(0x90, 0xBF), tail, tail]
  else if n < 0xF4 then some [tail, tail, tail]
  else if n = 0xF4 then some [(0x80, 0x8F), tail, tail]
  else none

/-- One byte: the ranges still to be met, `none` once the text is malformed. -/
def utf8Step : Option (List (Nat × Nat)) → UInt8 → Option (List (Nat × Nat))
  | none, _ => none
  | some [], b => utf8Lead b
  | some ((lo, hi) :: ranges), b => if lo ≤ b.toNat ∧ b.toNat ≤ hi then some ranges else none

/-- Well-formed UTF-8. -/
def validUtf8 (s : Bytes) : Bool := s.foldl utf8Step (some []) == some []

theorem utf8_foldl_none (s : Bytes) : s.foldl utf8Step none = none := by
  induction s with
  | nil => rfl
  | cons b s ih => exact ih

theorem utf8Lead_ranges {b : UInt8} {l : List (Nat × Nat)} (h : utf8Lead b = some l) :
    ∀ r ∈ l, 0x80 ≤ r.1 := by
  -- read off the table, lead byte by lead byte
  have htable : ∀ n < 256,
      ((utf8Lead (UInt8.ofNat n)).getD []).all (fun r => decide (0x80 ≤ r.1)) = true := by
    decide +kernel
  have hb := htable b.toNat b.toNat_lt
  rw [UInt8.ofNat_toNat, h, Option.getD_some, List.all_eq_true] at hb
  intro r hr
  exact of_decide_eq_true (hb r hr)

/-- No range that is waited for contains an ASCII byte. -/
theorem utf8Step_ranges {σ : Option (List (Nat × Nat))} {b : UInt8}
    (h : ∀ l, σ = some l → ∀ r ∈ l, 0x80 ≤ r.1) :
    ∀ l, utf8Step σ b = some l → ∀ r ∈ l, 0x80 ≤ r.1 := by
  intro l hl r hr
  match σ, h with
  | none, _ => simp [utf8Step] at hl
  | some [], _ => exact utf8Lead_ranges hl r hr
  | some ((lo, hi) :: ranges), h =>
      simp only [utf8Step] at hl
      split at hl
      · injection hl with hl
        exact h _ rfl r (List.mem_cons_of_mem _ (hl ▸ hr))
      · exact absurd hl (by simp)

theorem utf8_foldl_ranges (s : Bytes) : ∀ (σ : Option (List (Nat × Nat))),
    (∀ l, σ = some l → ∀ r ∈ l, 0x80 ≤ r.1) →
    ∀ l, s.foldl utf8Step σ = some l → ∀ r ∈ l, 0x80 ≤ r.1 := by
  induction s with
  | nil => exact fun σ h => h
  | cons b s ih => exact fun σ h => ih _ (utf8Step_ranges h)

theorem validUtf8_iff {s : Bytes} : validUtf8 s = true ↔ s.foldl utf8Step (some []) = some [] := by
  rw [validUtf8, beq_iff_eq]

/-- **An ASCII byte is a boundary**: the text is well formed exactly when both sides are. -/
theorem validUtf8_append_ascii {a t : Bytes} {c : UInt8} (hc : c.toNat < 0x80) :
    validUtf8 (a ++ c :: t) = true ↔ validUtf8 a = true ∧ validUtf8 t = true := by
  have hlead : utf8Lead c = some [] := by
    unfold utf8Lead
    exact if_pos hc
  rw [validUtf8_iff, validUtf8_iff, validUtf8_iff, List.foldl_append, List.foldl_cons]
  cases hσ : a.foldl utf8Step (some []) with
  | none => simp [utf8Step, utf8_foldl_none]
  | some l =>
      cases l with
      | nil => simp [utf8Step, hlead]
      | cons r l =>
          -- in the middle of an encoding an ASCII byte is malformed, and stays so
          have hlo := utf8_foldl_ranges a (some []) (by simp) _ hσ r List.mem_cons_self
          have hno : ¬ (r.1 ≤ c.toNat ∧ c.toNat ≤ r.2) := by omega
          simp [utf8Step, hno, utf8_foldl_none]

theorem validUtf8_ascii_cons {c : UInt8} {t : Bytes} (hc : c.toNat < 0x80) :
    validUtf8 (c :: t) = true ↔ validUtf8 t = true := by
  have h := validUtf8_append_ascii (a := []) (t := t) hc
  rw [List.nil_append] at h
  rw [h, and_iff_right (by rfl)]

/-- A piece of ASCII text in front changes nothing. -/
theorem validUtf8_ascii_append {a t : Bytes} (ha : ∀ c ∈ a, c.toNat < 0x80) :
    validUtf8 (a ++ t) = true ↔ validUtf8 t = true := by
  induction a with
  | nil => rfl
  | cons c a ih =>
      rw [List.cons_append, validUtf8_ascii_cons (ha c List.mem_cons_self)]
      exact ih fun d hd => ha d (List.mem_cons_of_mem _ hd)

end Lib
