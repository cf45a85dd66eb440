import Svgd.Lib.Json

/-!
# Spelling a string in JSON

What stands between the quotes of a string is a sequence of elements: a byte as it is, a
short escape, or `\u` with four hex digits. `Spells` says that an element stands for a byte
wherever it is read, and a string that is spelled element by element reads back as itself.
-/

namespace Lib

/-- Whole elements one after another. -/
inductive BodyText : Bytes → Prop where
  | nil : BodyText []
  | raw {b : UInt8} {s : Bytes} (hquote : b ≠ ch '"') (hbackslash : b ≠ ch '\\')
      (hcontrol : 0x20 ≤ b.toNat) (h : BodyText s) : BodyText (b :: s)
  | letter {e b : UInt8} {s : Bytes} (he : escapeLetter e = some b) (h : BodyText s) :
      BodyText (ch '\\' :: e :: s)
  | unicode {hex s : Bytes} {c : Nat} (hhex : parseHex4 hex = some (c, [])) (h : BodyText s) :
      BodyText (ch '\\' :: ch 'u' :: (hex ++ s))

theorem BodyText.append {s t : Bytes} (hs : BodyText s) (ht : BodyText t) : BodyText (s ++ t) := by
  induction hs with
  | nil => exact ht
  | raw hquote hbackslash hcontrol _ ih => exact .raw hquote hbackslash hcontrol ih
  | letter he _ ih => exact .letter he ih
  | unicode hhex _ ih =>
      rw [List.cons_append, List.cons_append, List.append_assoc]
      exact .unicode hhex ih

/-- Four hex digits are no four other bytes. -/
theorem parseHex4_digits {hex : Bytes} {c : Nat} (h : parseHex4 hex = some (c, [])) :
    ∀ b ∈ hex, ∃ d, hexValue b = some d := by
  match hex with
  | [] | [_] | [_, _] | [_, _, _] => simp [parseHex4] at h
  | b₀ :: b₁ :: b₂ :: b₃ :: rest =>
      simp only [parseHex4] at h
      split at h
      · rename_i d₀ d₁ d₂ d₃ h₀ h₁ h₂ h₃
        obtain rfl : rest = [] := congrArg Prod.snd (Option.some.inj h)
        intro b hb
        simp only [List.mem_cons, List.not_mem_nil, or_false] at hb
        rcases hb with rfl | rfl | rfl | rfl
        · exact ⟨d₀, h₀⟩
        · exact ⟨d₁, h₁⟩
        · exact ⟨d₂, h₂⟩
        · exact ⟨d₃, h₃⟩
      · cases h

theorem forall_control {P : UInt8 → Prop} (h : ∀ k < 0x20, P (UInt8.ofNat k)) {b : UInt8}
    (hb : b.toNat < 0x20) : P b := by
  have hk := h b.toNat hb
  rwa [UInt8.ofNat_toNat] at hk

/-- A string of elements has no control character in it, and no terminator. -/
theorem BodyText.no_control {s : Bytes} (h : BodyText s) : ∀ b ∈ s, 0x20 ≤ b.toNat := by
  have hletter : ∀ {e b : UInt8}, escapeLetter e = some b → 0x20 ≤ e.toNat := by
    intro e b he
    by_contra hlow
    have hnone : escapeLetter e = none := forall_control
      (P := fun e => escapeLetter e = none) (by decide) (Nat.lt_of_not_le hlow)
    rw [hnone] at he
    cases he
  have hdigit : ∀ {b : UInt8} {d : Nat}, hexValue b = some d → 0x20 ≤ b.toNat := by
    intro b d hd
    by_contra hlow
    have hnone : hexValue b = none := forall_control
      (P := fun b => hexValue b = none) (by decide) (Nat.lt_of_not_le hlow)
    rw [hnone] at hd
    cases hd
  have hbackslash : 0x20 ≤ (ch '\\').toNat := by decide
  induction h with
  | nil => exact fun b hb => absurd hb List.not_mem_nil
  | raw _ _ hcontrol _ ih => exact List.forall_mem_cons.mpr ⟨hcontrol, ih⟩
  | letter he _ ih =>
      exact List.forall_mem_cons.mpr ⟨hbackslash, List.forall_mem_cons.mpr ⟨hletter he, ih⟩⟩
  | unicode hhex _ ih =>
      refine List.forall_mem_cons.mpr ⟨hbackslash, List.forall_mem_cons.mpr ⟨by decide, ?_⟩⟩
      rw [List.forall_mem_append]
      refine ⟨fun b hb => ?_, ih⟩
      obtain ⟨d, hd⟩ := parseHex4_digits hhex b hb
      exact hdigit hd

theorem BodyText.no_nul {s : Bytes} (h : BodyText s) : (0 : UInt8) ∉ s :=
  fun hmem => absurd (h.no_control 0 hmem) (by decide)

/-! ## One element for one byte -/

/-- The element stands for the byte. -/
structure Spells (e : Bytes) (c : UInt8) : Prop where
  body : BodyText e
  reads : ∀ (fuel : Nat) (r : Bytes),
    parseStringGo (fuel + 1) (e ++ r) = (parseStringGo fuel r).map fun (t, r) => (c :: t, r)

theorem spells_raw {b : UInt8} (hquote : b ≠ ch '"') (hbackslash : b ≠ ch '\\')
    (hcontrol : 0x20 ≤ b.toNat) : Spells [b] b where
  body := .raw hquote hbackslash hcontrol .nil
  reads fuel r := by
    rw [List.singleton_append, parseStringGo, if_neg hquote, if_neg hbackslash, if_neg (by omega)]

theorem spells_letter {e b : UInt8} (h : escapeLetter e = some b) : Spells [ch '\\', e] b where
  body := .letter h .nil
  reads fuel r := by
    have hu : e ≠ ch 'u' := by
      rintro rfl
      rw [show escapeLetter (ch 'u') = none from rfl] at h
      cases h
    have hescape : parseEscape (e :: r) = some ([b], r) := by
      rw [parseEscape, if_neg hu, h]
      rfl
    show parseStringGo (fuel + 1) (ch '\\' :: e :: r) = _
    rw [parseStringGo, if_neg (by decide), if_pos rfl, hescape]
    rfl

theorem hexValue_hexDigitLower {d : Nat} (h : d < 16) : hexValue (hexDigitLower d) = some d :=
  (by decide : ∀ d < 16, hexValue (hexDigitLower d) = some d) d h

theorem parseHex4_hex4 {c : Nat} (h : c < 0x10000) (r : Bytes) :
    parseHex4 (hex4 c ++ r) = some (c, r) := by
  have hdigit : ∀ k, hexValue (hexDigitLower (k % 16)) = some (k % 16) := fun k =>
    hexValue_hexDigitLower (Nat.mod_lt _ (by decide))
  simp only [hex4, List.cons_append, List.nil_append, parseHex4, hdigit]
  congr 2
  omega

/-- Below `0x80` a character is one byte. -/
theorem spells_unicode {c : UInt8} (h : c.toNat < 0x80) : Spells (str "\\u" ++ hex4 c.toNat) c where
  body := by
    have hhex : parseHex4 (hex4 c.toNat) = some (c.toNat, []) := by
      have := parseHex4_hex4 (c := c.toNat) (by omega) []
      rwa [List.append_nil] at this
    have := BodyText.unicode hhex .nil
    rwa [List.append_nil] at this
  reads fuel r := by
    have hone : utf8 c.toNat = [c] := by
      rw [utf8, if_pos h]
      congr 1
      exact UInt8.ofNat_toNat
    have hhigh : isHighSurrogate c.toNat = false := by
      rw [isHighSurrogate, decide_eq_false (by omega), Bool.false_and]
    have hescape : parseEscape (ch 'u' :: (hex4 c.toNat ++ r)) = some ([c], r) := by
      rw [parseEscape, if_pos rfl, parseHex4_hex4 (by omega)]
      simp only [hhigh, Bool.false_eq_true, if_false, hone]
    show parseStringGo (fuel + 1) (ch '\\' :: ch 'u' :: (hex4 c.toNat ++ r)) = _
    rw [parseStringGo, if_neg (by decide), if_pos rfl, hescape]
    rfl

/-! ## A string, element by element -/

theorem parseStringGo_flatMap {enc : UInt8 → Bytes} {s : Bytes} (h : ∀ c ∈ s, Spells (enc c) c)
    (r : Bytes) : ∀ {fuel : Nat}, s.length < fuel →
      parseStringGo fuel (s.flatMap enc ++ ch '"' :: r) = some (s, r) := by
  induction s with
  | nil =>
      intro fuel hfuel
      obtain ⟨k, rfl⟩ : ∃ k, fuel = k + 1 := ⟨fuel - 1, by omega⟩
      rfl
  | cons c s ih =>
      intro fuel hfuel
      obtain ⟨k, rfl⟩ : ∃ k, fuel = k + 1 := ⟨fuel - 1, by omega⟩
      rw [List.length_cons] at hfuel
      rw [List.flatMap_cons, List.append_assoc, (h c List.mem_cons_self).reads,
        ih (fun d hd => h d (List.mem_cons_of_mem _ hd)) (by omega)]
      rfl

/-- An element is at least a byte long. -/
theorem Spells.ne_nil {e : Bytes} {c : UInt8} (h : Spells e c) : e ≠ [] := by
  rintro rfl
  have := h.reads 1 [ch '"']
  exact absurd this (by simp [parseStringGo])

theorem length_le_flatMap {enc : UInt8 → Bytes} {s : Bytes} (h : ∀ c ∈ s, Spells (enc c) c) :
    s.length ≤ (s.flatMap enc).length := by
  induction s with
  | nil => exact Nat.le_refl _
  | cons c s ih =>
      have hpos := List.length_pos_iff.mpr (h c List.mem_cons_self).ne_nil
      have := ih fun d hd => h d (List.mem_cons_of_mem _ hd)
      rw [List.flatMap_cons, List.length_append, List.length_cons]
      omega

/-- **A string that is spelled element by element reads back as itself.** -/
theorem parseString_flatMap {enc : UInt8 → Bytes} {s : Bytes} (h : ∀ c ∈ s, Spells (enc c) c)
    (r : Bytes) : parseString (s.flatMap enc ++ ch '"' :: r) = some (s, r) := by
  have hle := length_le_flatMap h
  apply parseStringGo_flatMap h
  rw [List.length_append]
  omega

end Lib
