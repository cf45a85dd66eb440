import Svgd.Lib.Utf8
import Mathlib.Data.List.Chain
import Mathlib.Tactic.IntervalCases

/-!
# Writing strings as JSON

`jsonBody` is what `JSON.stringify` puts between the quotes: short escapes for the
characters that have one, `\u` escapes for the other control characters and for
unpaired surrogates, UTF-8 for everything else. The text of one character can be
read off the front of any continuation, so the body determines the string.

`rawText` is the part of a body before its first quote character, which is what a
reader that does not know about escapes takes for the whole string.
-/

namespace Lib

/-- The lower-case hex digit of a number below sixteen. -/
def hexDigitLower (d : Nat) : UInt8 := UInt8.ofNat (if d < 10 then 48 + d else 87 + d)

/-- The number of a lower-case hex digit. -/
def hexNumber (b : UInt8) : Nat := if b.toNat < 58 then b.toNat - 48 else b.toNat - 87

/-- Four hex digits. -/
def hex4 (c : Nat) : Bytes :=
  [hexDigitLower (c / 4096 % 16), hexDigitLower (c / 256 % 16), hexDigitLower (c / 16 % 16),
    hexDigitLower (c % 16)]

/-- The short escapes of JSON, as pairs of character and letter. -/
def shortEscapes : List (Nat × UInt8) :=
  [(0x22, ch '"'), (0x5C, ch '\\'), (0x08, ch 'b'), (0x09, ch 't'), (0x0A, ch 'n'),
    (0x0C, ch 'f'), (0x0D, ch 'r')]

/-- A high surrogate. -/
def isHighSurrogate (c : Nat) : Bool := 0xD800 ≤ c && c < 0xDC00

/-- A low surrogate. -/
def isLowSurrogate (c : Nat) : Bool := 0xDC00 ≤ c && c < 0xE000

/-- One character of a JSON string, as `JSON.stringify` writes it. -/
def jsonEscape (c : Nat) : Bytes :=
  match shortEscapes.lookup c with
  | some letter => [ch '\\', letter]
  | none =>
      if c < 0x20 ∨ isHighSurrogate c ∨ isLowSurrogate c then str "\\u" ++ hex4 c else utf8 c

/-- The text between the quotes of a JSON string. -/
def jsonBody (s : List CodePoint) : Bytes := s.flatMap fun c : CodePoint => jsonEscape c.val

/-- The body up to its first quote character, escaped or not. -/
def rawText : List CodePoint → Bytes
  | [] => []
  | c :: s => if c.val = 0x22 then [ch '\\'] else jsonEscape c ++ rawText s

/--
A string of JavaScript, by code points. Two surrogates that form a pair are one
code point, so they never stand next to each other.
-/
@[ext]
structure JsString where
  chars : List CodePoint
  paired : chars.IsChain fun a b : CodePoint => ¬ (isHighSurrogate a.val ∧ isLowSurrogate b.val)

/-- The string with the letter `a` after it. -/
def JsString.pushA (s : JsString) : JsString where
  chars := s.chars ++ [0x61]
  paired := by
    refine List.isChain_append.mpr ⟨s.paired, List.isChain_singleton _, ?_⟩
    intro x _ y hy
    simp only [List.head?_cons, Option.mem_some_iff] at hy
    rw [← hy]
    rintro ⟨-, hlow⟩
    exact absurd hlow (by decide)

/-! ## Reading one character -/

/-- The character at the front of a body and the text after it. -/
def jsonHead : Bytes → Option (Nat × Bytes)
  | [] => none
  | b :: s =>
      if b = ch '\\' then
        match s with
        | [] => none
        | e :: s =>
            if e = ch 'u' then
              match s with
              | d₁ :: d₂ :: d₃ :: d₄ :: s =>
                  some (hexNumber d₁ * 4096 + hexNumber d₂ * 256 + hexNumber d₃ * 16
                    + hexNumber d₄, s)
              | _ => none
            else
              match shortEscapes.find? (·.2 == e) with
              | some (c, _) => some (c, s)
              | none => none
      else utf8Head (b :: s)

theorem hexNumber_hexDigitLower {d : Nat} (h : d < 16) : hexNumber (hexDigitLower d) = d := by
  interval_cases d <;> rfl

theorem hexDigitLower_mem {d : Nat} (h : d < 16) :
    hexDigitLower d ≠ 0 ∧ hexDigitLower d ≠ ch '"' := by
  interval_cases d <;> decide

/-- The cases of an escape: a short one, a `\u` one, or the plain encoding. -/
theorem jsonEscape_cases (c : Nat) :
    (∃ letter, (c, letter) ∈ shortEscapes ∧ jsonEscape c = [ch '\\', letter])
    ∨ (c < 0xE000 ∧ jsonEscape c = str "\\u" ++ hex4 c)
    ∨ (0x20 ≤ c ∧ c ≠ 0x22 ∧ c ≠ 0x5C ∧ jsonEscape c = utf8 c) := by
  unfold jsonEscape
  cases hl : shortEscapes.lookup c with
  | some letter =>
      refine Or.inl ⟨letter, ?_, rfl⟩
      have := List.lookup_eq_some_iff.mp hl
      obtain ⟨l₁, l₂, heq, _⟩ := this
      rw [heq]
      simp
  | none =>
      dsimp only
      split
      · rename_i hc
        refine Or.inr (Or.inl ⟨?_, rfl⟩)
        simp only [isHighSurrogate, isLowSurrogate, Bool.and_eq_true, decide_eq_true_eq] at hc
        omega
      · rename_i hc
        refine Or.inr (Or.inr ⟨by omega, ?_, ?_, rfl⟩)
        · rintro rfl
          exact absurd hl (by decide)
        · rintro rfl
          exact absurd hl (by decide)

/-- **One character can be read off the front of any text.** -/
theorem jsonHead_jsonEscape (c : CodePoint) (s : Bytes) :
    jsonHead (jsonEscape c ++ s) = some (c.val, s) := by
  rcases jsonEscape_cases c with ⟨letter, hmem, he⟩ | ⟨hlt, he⟩ | ⟨h20, h22, h5c, he⟩
  · rw [he]
    have hall : ∀ e ∈ shortEscapes, e.2 ≠ ch 'u' ∧ shortEscapes.find? (·.2 == e.2) = some e := by
      decide
    obtain ⟨hu, hfind⟩ := hall _ hmem
    simp only [List.cons_append, List.nil_append, jsonHead, if_true]
    rw [if_neg hu]
    dsimp only at hfind
    rw [hfind]
  · rw [he]
    have hval : c.val / 4096 % 16 * 4096 + c.val / 256 % 16 * 256 + c.val / 16 % 16 * 16
        + c.val % 16 = c.val := by omega
    have hstr : str "\\u" = [ch '\\', ch 'u'] := rfl
    simp only [hstr, hex4, List.cons_append, List.nil_append, jsonHead, if_true,
      hexNumber_hexDigitLower (Nat.mod_lt _ (by decide : 0 < 16)), hval]
  · rw [he]
    -- the first byte is no backslash: it is the character itself or has its top bit set
    have hhead : ∀ b t, utf8 c.val = b :: t → b ≠ ch '\\' := by
      intro b t hb hbs
      rcases Nat.lt_or_ge c.val 0x80 with hlt | hge
      · rw [utf8, if_pos hlt] at hb
        injection hb with hb _
        have := congrArg UInt8.toNat (hb.trans hbs)
        rw [UInt8.toNat_ofNat'] at this
        have h92 : (ch '\\').toNat = 92 := rfl
        omega
      · have hle := le_of_mem_utf8 c.isLt hge (b := b) (by rw [hb]; simp)
        rw [hbs] at hle
        exact absurd hle (by decide)
    have hread := utf8Head_utf8 c.isLt s
    cases hu : utf8 c.val with
    | nil => exact absurd hu (utf8_ne_nil _)
    | cons b t =>
        rw [hu] at hread
        rw [List.cons_append] at hread ⊢
        unfold jsonHead
        dsimp only
        rw [if_neg (hhead b t hu)]
        exact hread

/-- A character other than the quote is written without quote characters, and none is
written with a NUL. -/
theorem not_mem_jsonEscape (c : CodePoint) :
    (0 : UInt8) ∉ jsonEscape c ∧ (c.val ≠ 0x22 → ch '"' ∉ jsonEscape c) := by
  rcases jsonEscape_cases c with ⟨letter, hmem, he⟩ | ⟨-, he⟩ | ⟨h20, h22, -, he⟩
  · have hall : ∀ e ∈ shortEscapes, (0 : UInt8) ∉ [ch '\\', e.2]
        ∧ (e.1 ≠ 0x22 → ch '"' ∉ [ch '\\', e.2]) := by
      decide
    rw [he]
    exact hall _ hmem
  · rw [he]
    have hd : ∀ d : Nat, hexDigitLower (d % 16) ≠ 0 ∧ hexDigitLower (d % 16) ≠ ch '"' :=
      fun d => hexDigitLower_mem (Nat.mod_lt _ (by decide))
    have hstr : str "\\u" = [ch '\\', ch 'u'] := rfl
    rw [hstr, hex4]
    constructor
    · simp only [List.cons_append, List.nil_append, List.mem_cons, List.not_mem_nil, or_false,
        not_or]
      exact ⟨by decide, by decide, (hd _).1.symm, (hd _).1.symm, (hd _).1.symm, (hd _).1.symm⟩
    · intro _
      simp only [List.cons_append, List.nil_append, List.mem_cons, List.not_mem_nil, or_false,
        not_or]
      exact ⟨by decide, by decide, (hd _).2.symm, (hd _).2.symm, (hd _).2.symm, (hd _).2.symm⟩
  · rw [he]
    have hbyte : ∀ b ∈ utf8 c.val, 0x20 ≤ b.toNat ∧ b.toNat ≠ 0x22 := by
      intro b hb
      rcases Nat.lt_or_ge c.val 0x80 with hlt | hge
      · rw [utf8, if_pos hlt, List.mem_singleton] at hb
        rw [hb, UInt8.toNat_ofNat']
        omega
      · have := le_of_mem_utf8 c.isLt hge hb
        omega
    exact ⟨fun h0 => absurd (hbyte _ h0).1 (by decide),
      fun _ hq => (hbyte _ hq).2 rfl⟩

/-! ## Bodies and what is cut from them -/

theorem zero_not_mem_jsonBody (s : List CodePoint) : (0 : UInt8) ∉ jsonBody s := by
  intro h
  obtain ⟨c, _, hc⟩ := List.mem_flatMap.mp h
  exact (not_mem_jsonEscape c).1 hc

/-- The first quote character of a quoted body stands right after `rawText`. -/
theorem jsonBody_split (s : List CodePoint) (t : Bytes) :
    ch '"' ∉ rawText s
      ∧ ∃ t', jsonBody s ++ ch '"' :: t = rawText s ++ ch '"' :: t' := by
  induction s with
  | nil => exact ⟨by simp [rawText], t, rfl⟩
  | cons c s ih =>
      obtain ⟨hq, t', ht⟩ := ih
      by_cases hc : c.val = 0x22
      · refine ⟨by rw [rawText, if_pos hc]; decide, jsonBody s ++ ch '"' :: t, ?_⟩
        rw [rawText, if_pos hc, jsonBody, List.flatMap_cons, hc]
        rfl
      · refine ⟨?_, t', ?_⟩
        · rw [rawText, if_neg hc]
          intro hm
          rcases List.mem_append.mp hm with h | h
          · exact (not_mem_jsonEscape c).2 hc h
          · exact hq h
        · rw [rawText, if_neg hc, jsonBody, List.flatMap_cons, List.append_assoc,
            List.append_assoc, ← ht]
          rfl

theorem rawText_of_no_quote {s : List CodePoint} (h : ∀ c ∈ s, c.val ≠ 0x22) :
    rawText s = jsonBody s := by
  induction s with
  | nil => rfl
  | cons c s ih =>
      rw [rawText, if_neg (h c List.mem_cons_self), jsonBody, List.flatMap_cons,
        ih fun d hd => h d (List.mem_cons_of_mem _ hd)]
      rfl

theorem jsonEscape_ne_nil (c : CodePoint) : jsonEscape c ≠ [] := by
  intro h
  have := jsonHead_jsonEscape c []
  rw [h] at this
  exact absurd this (by simp [jsonHead])

theorem rawText_ne_nil {s : List CodePoint} (h : s ≠ []) : rawText s ≠ [] := by
  cases s with
  | nil => exact absurd rfl h
  | cons c s =>
      rw [rawText]
      split
      · simp
      · intro he
        exact jsonEscape_ne_nil c (List.append_eq_nil_iff.mp he).1

/-- What follows the first quote has no part in `rawText`. -/
theorem rawText_append_of_quote {s : List CodePoint} (h : ∃ c ∈ s, c.val = 0x22)
    (t : List CodePoint) : rawText (s ++ t) = rawText s := by
  induction s with
  | nil => simp at h
  | cons c s ih =>
      rw [List.cons_append, rawText, rawText]
      by_cases hc : c.val = 0x22
      · rw [if_pos hc, if_pos hc]
      · rw [if_neg hc, if_neg hc, ih]
        obtain ⟨d, hd, hq⟩ := h
        rcases List.mem_cons.mp hd with rfl | hd
        · exact absurd hq hc
        · exact ⟨d, hd, hq⟩

/-- **A whole body is the cut of one string only.** -/
theorem eq_of_rawText_eq_jsonBody : ∀ {s t : List CodePoint}, rawText s = jsonBody t → s = t
  | [], [], _ => rfl
  | [], d :: t, h => by
      rw [jsonBody, List.flatMap_cons] at h
      exact absurd (List.append_eq_nil_iff.mp h.symm).1 (jsonEscape_ne_nil d)
  | c :: s, [], h => absurd h (rawText_ne_nil (by simp))
  | c :: s, d :: t, h => by
      have hd := jsonHead_jsonEscape d (jsonBody t)
      rw [jsonBody, List.flatMap_cons, rawText] at h
      split at h
      · -- a lone backslash is the text of no character
        rw [jsonBody, ← h] at hd
        have hnone : jsonHead [ch '\\'] = none := rfl
        rw [hnone] at hd
        exact absurd hd (by simp)
      · have hc := jsonHead_jsonEscape c (rawText s)
        rw [h] at hc
        obtain ⟨hcd, hst⟩ := Prod.mk.inj (Option.some.inj (hc.symm.trans hd))
        rw [Fin.ext hcd, eq_of_rawText_eq_jsonBody hst]

end Lib
