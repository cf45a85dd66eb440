import Svgd.Proof.JsonEscaping

/-!
# Reading an escaped string

A reader of JSON gets a string back as it was escaped, if the escaping left no element out, and
gets another string if it did. Escaping keeps text well-formed, and makes no text so.
-/

namespace Svgd.Backend

open Lib

section

variable {control : UInt8 → Bool}

/-- Text in ASCII is passed over like one ASCII byte. -/
theorem utf8_foldl_ascii {e : Bytes} (hne : e ≠ []) (he : ∀ b ∈ e, b.toNat < 0x80) {c : UInt8}
    (hc : c.toNat < 0x80) {σ : Option (List (Nat × Nat))}
    (hσ : ∀ l, σ = some l → ∀ r ∈ l, 0x80 ≤ r.1) : e.foldl utf8Step σ = utf8Step σ c := by
  have hstep : ∀ {b : UInt8}, b.toNat < 0x80 → utf8Step σ b
      = if σ = some [] then some [] else none := by
    intro b hb
    match σ, hσ with
    | none, _ => rfl
    | some [], _ =>
        rw [if_pos rfl]
        exact if_pos hb
    | some ((lo, hi) :: l), hσ =>
        have hlo : 0x80 ≤ lo := hσ _ rfl (lo, hi) List.mem_cons_self
        rw [if_neg (by simp)]
        exact if_neg (by omega)
  obtain ⟨b, e, rfl⟩ := List.exists_cons_of_ne_nil hne
  rw [List.foldl_cons, hstep (he b List.mem_cons_self), hstep hc]
  have hrest : ∀ d ∈ e, d.toNat < 0x80 := fun d hd => he d (List.mem_cons_of_mem _ hd)
  split
  · have hvalid := (validUtf8_ascii_append (t := []) hrest).mpr rfl
    rw [List.append_nil, validUtf8_iff] at hvalid
    exact hvalid
  · exact utf8_foldl_none e

theorem hexDigitLower_ascii {d : Nat} (h : d < 16) : (hexDigitLower d).toNat < 0x80 :=
  (by decide : ∀ d < 16, (hexDigitLower d).toNat < 0x80) d h

/-- The letters of the short escapes, and what they stand for. -/
theorem escapeLetter_ascii {e c : UInt8} (h : escapeLetter e = some c) :
    e.toNat < 0x80 ∧ c.toNat < 0x80 := by
  unfold escapeLetter at h
  split_ifs at h with h₁ h₂ h₃ h₄ h₅ h₆ h₇ h₈ <;> subst_vars <;> cases h <;> decide

theorem hex4_ascii (n : Nat) : ∀ b ∈ hex4 n, b.toNat < 0x80 := by
  have hdigit : ∀ k, (hexDigitLower (k % 16)).toNat < 0x80 := fun k =>
    hexDigitLower_ascii (Nat.mod_lt _ (by decide))
  intro b hb
  simp only [hex4, List.mem_cons, List.not_mem_nil, or_false] at hb
  rcases hb with rfl | rfl | rfl | rfl <;> exact hdigit _

/-- An element is the byte itself, or stands in ASCII for an ASCII byte. -/
theorem escapeOf_ascii (hcontrol : IsControl control) (c : UInt8) :
    (escapeOf control c).1 = [c]
      ∨ (c.toNat < 0x80 ∧ ∀ b ∈ (escapeOf control c).1, b.toNat < 0x80) := by
  rcases escapeOf_cases control c with ⟨e, he, heq, -⟩ | ⟨hc, heq, -⟩ | ⟨-, -, -, heq, -⟩
  · obtain ⟨hletter, hc⟩ := escapeLetter_ascii he
    refine Or.inr ⟨hc, ?_⟩
    rw [heq]
    intro b hb
    rcases List.mem_pair.mp hb with rfl | rfl
    · decide
    · exact hletter
  · refine Or.inr ⟨hcontrol.ascii hc, ?_⟩
    rw [heq]
    intro b hb
    rcases List.mem_append.mp hb with hb | hb
    · have hall : (str "\\u").all (·.toNat < 0x80) = true := by decide
      exact of_decide_eq_true (List.all_eq_true.mp hall b hb)
    · exact hex4_ascii _ b hb
  · exact Or.inl (by rw [heq])

/-- **Escaping keeps text well-formed, and makes no text so.** -/
theorem validUtf8_fullEscape (hcontrol : IsControl control) (s : Bytes) :
    validUtf8 (fullEscape control s) = validUtf8 s := by
  have hfold : ∀ (s : Bytes) (σ : Option (List (Nat × Nat))),
      (∀ l, σ = some l → ∀ r ∈ l, 0x80 ≤ r.1) →
      (fullEscape control s).foldl utf8Step σ = s.foldl utf8Step σ := by
    intro s
    induction s with
    | nil => exact fun _ _ => rfl
    | cons c s ih =>
        intro σ hσ
        have helement : ((escapeOf control c).1).foldl utf8Step σ = utf8Step σ c := by
          rcases escapeOf_ascii hcontrol c with heq | ⟨hc, hascii⟩
          · rw [heq]
            rfl
          · exact utf8_foldl_ascii (spells_escapeOf hcontrol c).ne_nil hascii hc hσ
        have hfull : fullEscape control (c :: s) = (escapeOf control c).1 ++ fullEscape control s :=
          List.flatMap_cons
        rw [hfull, List.foldl_append, helement, List.foldl_cons, ih _ (utf8Step_ranges hσ)]
  unfold validUtf8
  rw [hfold s (some []) fun l hl => by cases hl; simp]

/-- A string that is spelled with escapes, between quotes. -/
theorem readsAs_spelled {e s : Bytes} (h : ∀ r, parseString (e ++ ch '"' :: r) = some (s, r)) :
    ReadsAs (quoted e) (.str s) True where
  head := ⟨_, _, rfl, by decide, by decide, by decide⟩
  read := by
    intro fuel r t hf _
    obtain ⟨k, rfl⟩ : ∃ k, fuel = k + 1 := ⟨fuel - 1, by simp [quoted] at hf; omega⟩
    rw [quoted, List.cons_append, List.append_assoc, List.singleton_append, parseValue,
      skipSpace_cons (by decide)]
    dsimp only
    rw [if_pos rfl, h r]
    constructor
    · intro heq
      exact ⟨trivial, (congrArg Prod.snd (Option.some.inj heq)).symm⟩
    · rintro ⟨-, rfl⟩
      rfl

/-- A text that reads as one value reads as no other one. -/
theorem readsAs_other {t : Bytes} {v : Json} (h : ReadsAs t v True) (w : Json) :
    ReadsAs t w (w = v) where
  head := h.head
  read {n r s} hf hr := by
    have hread : parseValue n (t ++ r) = some (v, r) := (h.read hf hr).mpr ⟨trivial, rfl⟩
    rw [hread]
    constructor
    · intro heq
      obtain ⟨rfl, rfl⟩ := Prod.mk.inj (Option.some.inj heq)
      exact ⟨rfl, rfl⟩
    · rintro ⟨rfl, rfl⟩
      rfl

theorem fullEscape_injective (hcontrol : IsControl control) :
    Function.Injective (fullEscape control) := by
  intro s s' heq
  have hs := parseString_flatMap (fun c (_ : c ∈ s) => spells_escapeOf hcontrol c) []
  have hs' := parseString_flatMap (fun c (_ : c ∈ s') => spells_escapeOf hcontrol c) []
  have heq : s.flatMap (fun c => (escapeOf control c).1) = s'.flatMap fun c => (escapeOf control c).1 :=
    heq
  rw [heq] at hs
  exact congrArg Prod.fst (Option.some.inj (hs.symm.trans hs'))

/-- What is left out are whole characters. -/
theorem escapeText_sublist (size : Nat) (s : Bytes) : ∀ t : Bytes,
    ∃ s', escapeText control size s t = t ++ fullEscape control s' := by
  induction s with
  | nil => exact fun t => ⟨[], (List.append_nil t).symm⟩
  | cons c s ih =>
      intro t
      rw [escapeText]
      split
      · unfold withEscape
        split
        · obtain ⟨s', hs'⟩ := ih (t ++ (escapeOf control c).1)
          refine ⟨c :: s', ?_⟩
          rw [hs', List.append_assoc]
          rfl
        · exact ih t
      · exact ⟨[], (List.append_nil t).symm⟩

/-- **An escaped string reads back exactly if no character was left out.** -/
theorem readsAs_escaped (hcontrol : IsControl control) (size : Nat) (s : Bytes) :
    ReadsAs (quoted (escapeText control size s [])) (.str s)
      (escapeText control size s [] = fullEscape control s) := by
  have hsub : ∃ s', escapeText control size s [] = fullEscape control s' :=
    escapeText_sublist size s []
  obtain ⟨s', hs'⟩ := hsub
  rw [hs']
  have hreads := readsAs_spelled fun r =>
    parseString_flatMap (fun c (_ : c ∈ s') => spells_escapeOf hcontrol c) r
  refine (readsAs_other hreads (.str s)).congr ⟨fun heq => ?_, fun heq => ?_⟩
  · rw [Json.str.inj heq]
  · rw [fullEscape_injective hcontrol heq]

end

theorem readsAs_bool (b : Bool) : ReadsAs (boolText b) (.bool b) True where
  head := by
    cases b with
    | true => exact ⟨_, _, rfl, by decide, by decide, by decide⟩
    | false => exact ⟨_, _, rfl, by decide, by decide, by decide⟩
  read := by
    intro fuel r t hf _
    have hpos : 0 < (boolText b).length := by cases b <;> decide
    obtain ⟨k, rfl⟩ : ∃ k, fuel = k + 1 := ⟨fuel - 1, by omega⟩
    have hread : parseValue (k + 1) (boolText b ++ r) = some (.bool b, r) := by cases b <;> rfl
    rw [hread]
    simp [eq_comm]

end Svgd.Backend
