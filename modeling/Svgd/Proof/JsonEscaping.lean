import Svgd.Backend.JsonEscape
import Svgd.Backend.LoadConfig

/-!
# Escaping never cuts an element

Every turn of the loop leaves the text so far, with or without the element of the next
character, and room for the terminator. A character that is left out does not end the
loop. If the whole escaped form leaves a byte to spare, no character is left out.
-/

namespace Svgd.Backend

open Lib

variable {control : UInt8 → Bool} {size : Nat} {c : UInt8} {s t : Bytes} {dest : TextBuffer}

/-- What is written as `\u`: everything below `0x20`, and nothing outside ASCII. -/
structure IsControl (control : UInt8 → Bool) : Prop where
  low : ∀ {c : UInt8}, c.toNat < 0x20 → control c = true
  ascii : ∀ {c : UInt8}, control c = true → c.toNat < 0x80

theorem isControl_isCntrl : IsControl isCntrl where
  low h := by
    unfold isCntrl
    rw [decide_eq_true h, Bool.true_or]
  ascii h := by
    unfold isCntrl at h
    rw [Bool.or_eq_true, decide_eq_true_iff, decide_eq_true_iff] at h
    omega

theorem isControl_low : IsControl (fun c => decide (c.toNat < 0x20)) where
  low h := decide_eq_true h
  ascii h := Nat.lt_trans (of_decide_eq_true h) (by decide)

theorem sizeSub_eq {a b : Nat} (hb : b ≤ a) (hb64 : b < 2 ^ 64) (ha : a < 2 ^ 64) :
    sizeSub a b = a - b := by
  unfold sizeSub
  omega

/-! ## One element -/

/-- The cases of an element: a short one, a `\u` one, or the character. -/
theorem escapeOf_cases (control : UInt8 → Bool) (c : UInt8) :
    (∃ e, escapeLetter e = some c ∧ escapeOf control c = ([ch '\\', e], 2)
      ∧ ∀ dest, escapeChar control c dest = putEscape e dest)
    ∨ (control c = true ∧ escapeOf control c = (str "\\u" ++ hex4 c.toNat, 7)
      ∧ ∀ dest, escapeChar control c dest = if dest.offset < sizeSub dest.size 7
          then dest.snprintf (str "\\u" ++ hex4 c.toNat) else some dest)
    ∨ (c ≠ ch '"' ∧ c ≠ ch '\\' ∧ control c = false ∧ escapeOf control c = ([c], 1)
      ∧ ∀ dest, escapeChar control c dest = dest.put c) := by
  unfold escapeOf escapeChar
  by_cases hquote : c = ch '"' ∨ c = ch '\\'
  · left
    refine ⟨c, ?_, if_pos hquote, fun dest => if_pos hquote⟩
    rcases hquote with rfl | rfl <;> rfl
  simp only [if_neg hquote]
  by_cases hnewline : c = ch '\n'
  · exact .inl ⟨ch 'n', hnewline ▸ rfl, if_pos hnewline, fun dest => if_pos hnewline⟩
  simp only [if_neg hnewline]
  by_cases hreturn : c = ch '\r'
  · exact .inl ⟨ch 'r', hreturn ▸ rfl, if_pos hreturn, fun dest => if_pos hreturn⟩
  simp only [if_neg hreturn]
  by_cases htab : c = ch '\t'
  · exact .inl ⟨ch 't', htab ▸ rfl, if_pos htab, fun dest => if_pos htab⟩
  simp only [if_neg htab]
  by_cases hcontrol : control c = true
  · exact .inr (.inl ⟨hcontrol, if_pos hcontrol, fun dest => if_pos hcontrol⟩)
  · have hquote := not_or.mp hquote
    exact .inr (.inr ⟨hquote.1, hquote.2, Bool.eq_false_iff.mpr hcontrol, if_neg hcontrol,
      fun dest => if_neg hcontrol⟩)

theorem spells_escapeOf (hcontrol : IsControl control) (c : UInt8) :
    Spells (escapeOf control c).1 c := by
  rcases escapeOf_cases control c with ⟨e, he, heq, -⟩ | ⟨hc, heq, -⟩ | ⟨hq, hbs, hc, heq, -⟩
  · rw [heq]
    exact spells_letter he
  · rw [heq]
    exact spells_unicode (hcontrol.ascii hc)
  · rw [heq]
    refine spells_raw hq hbs (Nat.le_of_not_lt fun hlow => ?_)
    rw [hcontrol.low hlow] at hc
    cases hc

/-- The check leaves room for the element and the terminator, and asks for a byte more at
most. -/
theorem escapeOf_room (control : UInt8 → Bool) (c : UInt8) :
    1 ≤ (escapeOf control c).2 ∧ (escapeOf control c).2 ≤ 7
      ∧ (escapeOf control c).1.length ≤ (escapeOf control c).2
      ∧ (escapeOf control c).2 ≤ (escapeOf control c).1.length + 1 := by
  rcases escapeOf_cases control c with ⟨e, -, heq, -⟩ | ⟨-, heq, -⟩ | ⟨-, -, -, heq, -⟩
  · rw [heq]
    show 1 ≤ 2 ∧ 2 ≤ 7 ∧ 2 ≤ 2 ∧ 2 ≤ 3
    omega
  · rw [heq]
    show 1 ≤ 7 ∧ 7 ≤ 7 ∧ 6 ≤ 7 ∧ 7 ≤ 7
    omega
  · rw [heq]
    show 1 ≤ 1 ∧ 1 ≤ 7 ∧ 1 ≤ 1 ∧ 1 ≤ 2
    omega

/-! ## One turn -/

/-- A pair of bytes is written, or there is no room for it. -/
theorem putEscape_spec (h : dest.Holds t) (hsize : 2 ≤ dest.size) (hmax : dest.size < 2 ^ 64)
    (e : UInt8) : ∃ dest', putEscape e dest = some dest'
      ∧ dest.Wrote dest' (if t.length < dest.size - 2 then t ++ [ch '\\', e] else t) := by
  unfold putEscape
  rw [h.offset, sizeSub_eq hsize (by decide) hmax]
  by_cases hroom : t.length < dest.size - 2
  · rw [if_pos hroom, if_pos hroom]
    obtain ⟨d₁, hd₁, hw₁⟩ := h.put (by omega) (ch '\\')
    have hfits : (t ++ [ch '\\']).length + 1 < d₁.size := by
      rw [hw₁.size, List.length_append, List.length_singleton]
      omega
    obtain ⟨d₂, hd₂, hw₂⟩ := hw₁.holds.put hfits e
    refine ⟨d₂, by rw [hd₁, Option.bind_some, hd₂], ?_⟩
    have hw := hw₁.trans hw₂
    rwa [List.append_assoc] at hw
  · rw [if_neg hroom, if_neg hroom]
    exact ⟨dest, rfl, .refl h⟩

/-- **A turn adds the element of the character, or leaves the text as it is.** -/
theorem escapeChar_spec (h : dest.Holds t) (hsize : 8 ≤ dest.size) (hmax : dest.size < 2 ^ 64)
    (hroom : t.length < dest.size - 1) (control : UInt8 → Bool) (c : UInt8) :
    ∃ dest', escapeChar control c dest = some dest'
      ∧ dest.Wrote dest' (withEscape control dest.size t c) := by
  unfold withEscape
  rcases escapeOf_cases control c with ⟨e, -, heq, hturn⟩ | ⟨-, heq, hturn⟩ | ⟨-, -, -, heq, hturn⟩
  · rw [hturn, heq]
    exact putEscape_spec h (by omega) hmax e
  · rw [hturn, heq, h.offset, sizeSub_eq (by omega) (by decide) hmax]
    dsimp only
    by_cases hseven : t.length < dest.size - 7
    · rw [if_pos hseven, if_pos hseven]
      apply h.print
      have hlen : (str "\\u" ++ hex4 c.toNat).length = 6 := rfl
      omega
    · rw [if_neg hseven, if_neg hseven]
      exact ⟨dest, rfl, .refl h⟩
  · rw [hturn, heq, if_pos hroom]
    exact h.put (by omega) c

/-! ## The loop -/

/-- The loop writes the text of the string, and the terminator. -/
theorem escapeLoop_spec (control : UInt8 → Bool) (hs : (0 : UInt8) ∉ s) :
    ∀ {dest : TextBuffer} {t : Bytes}, dest.Holds t → 8 ≤ dest.size → dest.size < 2 ^ 64 →
      ∃ dest', escapeLoop control s dest = some dest'
        ∧ dest.Wrote dest' (escapeText control dest.size s t) ∧ dest'.mem dest'.offset = 0 := by
  induction s with
  | nil => exact fun h _ _ => h.terminate
  | cons c s ih =>
      intro dest t h hsize hmax
      have hc : c ≠ 0 := fun heq => hs (heq ▸ List.mem_cons_self)
      rw [escapeLoop, escapeText, h.offset, sizeSub_eq (by omega) (by decide) hmax]
      by_cases hroom : t.length < dest.size - 1
      · rw [if_pos ⟨hc, hroom⟩, if_pos hroom]
        obtain ⟨d, hd, hw⟩ := escapeChar_spec h hsize hmax hroom control c
        rw [hd, Option.bind_some]
        obtain ⟨d', hd', hw', hend⟩ := ih (fun hmem => hs (List.mem_cons_of_mem _ hmem)) hw.holds
          (by rw [hw.size]; exact hsize) (by rw [hw.size]; exact hmax)
        rw [hw.size] at hw'
        exact ⟨d', hd', hw.trans hw', hend⟩
      · rw [if_neg fun hboth => hroom hboth.2, if_neg hroom]
        exact h.terminate

/-- Whole elements stay whole elements. -/
theorem bodyText_escapeText (hcontrol : IsControl control) (s : Bytes) :
    ∀ {t : Bytes}, BodyText t → BodyText (escapeText control size s t) := by
  induction s with
  | nil => exact fun h => h
  | cons c s ih =>
      intro t h
      rw [escapeText]
      split
      · apply ih
        unfold withEscape
        split
        · exact h.append (spells_escapeOf hcontrol c).body
        · exact h
      · exact h

/-- With a byte to spare, every element is written. -/
theorem escapeText_full (hsize : 2 ≤ size) (s : Bytes) : ∀ {t : Bytes},
    t.length + (fullEscape control s).length ≤ size - 2 →
      escapeText control size s t = t ++ fullEscape control s := by
  induction s with
  | nil => exact fun _ => (List.append_nil _).symm
  | cons c s ih =>
      intro t hlen
      have hfull : fullEscape control (c :: s) = (escapeOf control c).1 ++ fullEscape control s :=
        List.flatMap_cons
      obtain ⟨hpos, -, -, hroom⟩ := escapeOf_room control c
      rw [hfull, List.length_append] at hlen
      have hfits : t.length < size - (escapeOf control c).2 := by omega
      rw [escapeText, if_pos (by omega), withEscape, if_pos hfits, hfull, ← List.append_assoc]
      apply ih
      rw [List.length_append]
      omega

/-- The text of the listing is the one that is written. -/
theorem cfgJsonEscape_eq (size : Nat) (s : Bytes) :
    ∀ t, cfgJsonEscape size s t = escapeText isCntrl size s t := by
  induction s with
  | nil => exact fun _ => rfl
  | cons c s ih =>
      intro t
      rw [cfgJsonEscape, escapeText]
      by_cases hroom : t.length < size - 1
      · rw [if_pos hroom, if_neg (Nat.not_le_of_lt hroom)]
        simp only [ih, withEscape, escapeOf]
        have hcntrl : isCntrl c = true ↔ c.toNat < 32 ∨ c.toNat = 127 := by
          unfold isCntrl
          rw [Bool.or_eq_true, decide_eq_true_iff, decide_eq_true_iff]
        split
        · rfl
        split
        · rfl
        split
        · rfl
        split
        · rfl
        by_cases hc : isCntrl c = true
        · rw [if_pos hc, if_pos (hcntrl.mp hc)]
        · rw [if_neg hc, if_neg fun h => hc (hcntrl.mpr h)]
          dsimp only
          rw [if_pos hroom]
      · rw [if_neg hroom, if_pos (Nat.le_of_not_lt hroom)]

/-! ## Both functions -/

/-- What is left in the buffer of the escaped string. -/
structure EscapesTo (full s : Bytes) (dest dest' : TextBuffer) : Prop where
  size : dest'.size = dest.size
  /-- Nothing behind the buffer is written. -/
  outside : ∀ i, dest.size ≤ i → dest'.mem i = dest.mem i
  /-- The value returned is the length of the string. -/
  length : dest'.offset = dest'.text.length
  inside : dest'.offset < dest.size
  terminated : dest'.mem dest'.offset = 0
  body : BodyText dest'.text
  reads : full.length ≤ dest.size - 2 →
    ∀ r, parseString (dest'.text ++ ch '"' :: r) = some (s, r)

theorem escapeInto_sound (hcontrol : IsControl control) (hsize : 8 ≤ size) (hmax : size < 2 ^ 64)
    (hs : (0 : UInt8) ∉ s) (mem : Nat → UInt8) :
    ∃ dest', escapeInto control (some s) ⟨mem, size, 0⟩ = some dest'
      ∧ EscapesTo (fullEscape control s) s ⟨mem, size, 0⟩ dest' := by
  have hempty : TextBuffer.Holds ⟨mem, size, 0⟩ [] :=
    ⟨rfl, Nat.lt_of_lt_of_le (by decide) hsize, fun i hi => absurd hi (Nat.not_lt_zero i)⟩
  obtain ⟨d, hd, hw, hend⟩ := escapeLoop_spec control hs hempty hsize hmax
  have hbody : BodyText (escapeText control size s []) := bodyText_escapeText hcontrol s .nil
  have htext : d.text = escapeText control size s [] := hw.holds.text hend hbody.no_nul
  have hoffset := hw.holds.offset
  have hfits := hw.holds.fits
  refine ⟨d, ?_, hw.size, hw.outside, ?_, ?_, hend, ?_, fun hfull r => ?_⟩
  · show (if size = 0 then _ else _) = _
    rw [if_neg (by omega), hd]
  · rw [htext]
    exact hoffset
  · rw [hoffset]
    exact Nat.lt_of_lt_of_eq hfits hw.size
  · rw [htext]
    exact hbody
  · have hzero : ([] : Bytes).length + (fullEscape control s).length ≤ size - 2 := by
      rw [List.length_nil, Nat.zero_add]
      exact hfull
    rw [htext, escapeText_full (by omega) s hzero, List.nil_append]
    exact parseString_flatMap (fun c _ => spells_escapeOf hcontrol c) r

/-- **Escaping keeps within the buffer, cuts no element, and loses nothing that fits.** -/
theorem json_escape_sound {size : Nat} (hsize : 8 ≤ size) (hmax : size < 2 ^ 64) {s : Bytes}
    (hs : (0 : UInt8) ∉ s) (mem : Nat → UInt8) :
    (∃ dest', cfgJsonEscapeInto (some s) ⟨mem, size, 0⟩ = some dest'
      ∧ EscapesTo (fullEscape isCntrl s) s ⟨mem, size, 0⟩ dest')
    ∧ ∃ dest', httpJsonEscape (some s) ⟨mem, size, 0⟩ = some dest'
      ∧ EscapesTo (fullEscape (fun c => c.toNat < 0x20) s) s ⟨mem, size, 0⟩ dest' :=
  ⟨escapeInto_sound isControl_isCntrl hsize hmax hs mem,
    escapeInto_sound isControl_low hsize hmax hs mem⟩

theorem json_escape_sound_smallest :
    (∃ dest', cfgJsonEscapeInto (some (str "a\"")) ⟨fun _ => 0, 8, 0⟩ = some dest'
      ∧ EscapesTo (fullEscape isCntrl (str "a\"")) (str "a\"") ⟨fun _ => 0, 8, 0⟩ dest')
    ∧ ∃ dest', httpJsonEscape (some (str "a\"")) ⟨fun _ => 0, 8, 0⟩ = some dest'
      ∧ EscapesTo (fullEscape (fun c => c.toNat < 0x20) (str "a\"")) (str "a\"")
        ⟨fun _ => 0, 8, 0⟩ dest' :=
  json_escape_sound (by decide) (by decide) (by decide) _

end Svgd.Backend
