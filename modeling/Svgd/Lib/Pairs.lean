import Svgd.Lib.CString

/-!
# Pairs in one text

A text of `key=value` pairs, separated by `&`. A search for a word without separator goes
through the pairs one by one, and what it finds lies within one of them. Only where the
word is a key with its `=` can the two be mistaken for each other: a key may end in the
word, and a value may contain it.
-/

namespace Lib

/-- `key=value`. -/
def pairItem (p : Bytes × Bytes) : Bytes := p.1 ++ ch '=' :: p.2

/-- The pairs, separated by `&`. -/
def pairsText : List (Bytes × Bytes) → Bytes
  | [] => []
  | [p] => pairItem p
  | p :: q :: ps => pairItem p ++ ch '&' :: pairsText (q :: ps)

/-- A pair that can be told from its neighbours. -/
structure PlainPair (p : Bytes × Bytes) : Prop where
  key_no_eq : ch '=' ∉ p.1
  key_no_amp : ch '&' ∉ p.1
  value_no_amp : ch '&' ∉ p.2

/-- The value of the first pair with a key. -/
def lookupPair (ps : List (Bytes × Bytes)) (key : Bytes) : Option Bytes :=
  (ps.find? (·.1 == key)).map (·.2)

/-- What stands behind the first occurrence of a word in a pair. -/
def behind (w : Bytes) (p : Bytes × Bytes) : Option Bytes :=
  (strstr (pairItem p) w).map (·.drop w.length)

variable {p : Bytes × Bytes} {ps : List (Bytes × Bytes)} {key w v : Bytes}

theorem PlainPair.no_amp (h : PlainPair p) : ch '&' ∉ pairItem p := by
  unfold pairItem
  simp only [List.mem_append, List.mem_cons, not_or]
  exact ⟨h.key_no_amp, by decide, h.value_no_amp⟩

theorem lookupPair_cons_eq (v : Bytes) (ps : List (Bytes × Bytes)) :
    lookupPair ((key, v) :: ps) key = some v := by
  unfold lookupPair
  rw [List.find?_cons_of_pos (by simp), Option.map_some]

theorem lookupPair_cons_ne (h : p.1 ≠ key) (ps : List (Bytes × Bytes)) :
    lookupPair (p :: ps) key = lookupPair ps key := by
  unfold lookupPair
  rw [List.find?_cons_of_neg (by simpa using h)]

theorem lookupPair_append {qs : List (Bytes × Bytes)} (h : ∀ q ∈ ps, q.1 ≠ key) :
    lookupPair (ps ++ qs) key = lookupPair qs key := by
  have hnone : ps.find? (·.1 == key) = none := by
    rw [List.find?_eq_none]
    intro q hq
    simpa using h q hq
  unfold lookupPair
  rw [List.find?_append, hnone, Option.none_or]

theorem lookupPair_some (h : lookupPair ps key = some v) : (key, v) ∈ ps := by
  obtain ⟨p, hp, rfl⟩ := Option.map_eq_some_iff.mp h
  have hkey : p.1 = key := by simpa using List.find?_some hp
  exact hkey ▸ List.mem_of_find?_eq_some hp

/-- A pair is a piece of the text. -/
theorem pairItem_in_text (h : p ∈ ps) : pairItem p <:+: pairsText ps := by
  induction ps with
  | nil => exact absurd h (by simp)
  | cons q ps ih =>
      cases ps with
      | nil =>
          rw [List.mem_singleton] at h
          exact h ▸ List.infix_rfl
      | cons r ps =>
          unfold pairsText
          rcases List.mem_cons.mp h with rfl | h
          · exact (List.prefix_append _ _).isInfix
          · exact (ih h).trans ((List.suffix_cons _ _).trans (List.suffix_append _ _)).isInfix

/-! ## Searching -/

theorem behind_eq_none_iff : behind w p = none ↔ ¬ w <:+: pairItem p := by
  unfold behind
  rw [Option.map_eq_none_iff]
  constructor
  · rintro h ⟨u, t, hut⟩
    obtain ⟨a, b, hfind, -⟩ := strstr_isSome u w t
    rw [List.append_assoc] at hut
    rw [hut, h] at hfind
    exact absurd hfind (by simp)
  · intro h
    cases hfind : strstr (pairItem p) w with
    | none => rfl
    | some t =>
        obtain ⟨u, hu, ht⟩ := strstr_some hfind
        obtain ⟨r, rfl⟩ := startsWith_iff.mp ht
        exact absurd ⟨u, r, by rw [hu, List.append_assoc]⟩ h

/-- A word is found with the rest of its pair behind it, which holds no separator. -/
theorem strstr_pairItem_some {t : Bytes} (hplain : PlainPair p)
    (h : strstr (pairItem p) w = some t) : ∃ v, t = w ++ v ∧ ch '&' ∉ v := by
  obtain ⟨u, hu, ht⟩ := strstr_some h
  obtain ⟨v, rfl⟩ := startsWith_iff.mp ht
  exact ⟨v, rfl, fun hm => hplain.no_amp (by rw [hu]; simp [hm])⟩

/-- A word that starts with another byte is searched behind it. -/
theorem strstr_cons_ne {b c : UInt8} {x s : Bytes} (h : b ≠ c) :
    strstr (b :: s) (c :: x) = strstr s (c :: x) := by
  rw [strstr, if_neg (by simp [startsWith, Ne.symm h])]

/-- **A word without separator is found in the first pair that has it**, and what follows it up
to the next separator is the rest of that pair. -/
theorem behind_pairsText {c : UInt8} {x : Bytes} (hw : ch '&' ∉ c :: x) :
    ∀ {ps : List (Bytes × Bytes)}, (∀ p ∈ ps, PlainPair p) →
      ((strstr (pairsText ps) (c :: x)).map fun pos =>
          untilOr (pos.drop (c :: x).length) (strchr (pos.drop (c :: x).length) (ch '&')))
        = ps.findSome? (behind (c :: x))
  | [], _ => rfl
  | [p], hplain => by
      unfold pairsText
      rw [List.findSome?_cons, List.findSome?_nil]
      unfold behind
      cases hfind : strstr (pairItem p) (c :: x) with
      | none => rfl
      | some t =>
          obtain ⟨v, rfl, hv⟩ := strstr_pairItem_some (hplain p (by simp)) hfind
          rw [Option.map_some, Option.map_some, List.drop_left, untilOr_end hv]
  | p :: q :: ps, hplain => by
      unfold pairsText
      rw [List.findSome?_cons]
      have hplain' : ∀ r ∈ q :: ps, PlainPair r := fun r hr => hplain r (List.mem_cons_of_mem _ hr)
      have hrest := behind_pairsText hw hplain'
      cases hfind : strstr (pairItem p) (c :: x) with
      | none =>
          have hnone : behind (c :: x) p = none := by
            unfold behind
            rw [hfind, Option.map_none]
          have hne : ch '&' ≠ c := fun h => hw (h ▸ List.mem_cons_self)
          rw [strstr_append_of_none hfind hw, strstr_cons_ne hne, hnone]
          exact hrest
      | some t =>
          obtain ⟨v, rfl, hv⟩ := strstr_pairItem_some (hplain p (by simp)) hfind
          have hsome : behind (c :: x) p = some v := by
            unfold behind
            rw [hfind, Option.map_some, List.drop_left]
          rw [strstr_append_of_some hfind, hsome, Option.map_some, List.append_assoc, List.drop_left,
            untilOr_stop hv]

/-- A pair has its own key, and its value stands behind it. -/
theorem behind_self : behind (key ++ str "=") (key, v) = some v := by
  have hitem : pairItem (key, v) = (key ++ str "=") ++ v := by
    unfold pairItem
    rw [List.append_assoc]
    rfl
  unfold behind
  rw [hitem, strstr_head (startsWith_append _ _), Option.map_some, List.drop_left]

theorem mem_pairsText {b : UInt8} (h : b ∈ pairsText ps) :
    b = ch '&' ∨ ∃ p ∈ ps, b ∈ pairItem p := by
  induction ps with
  | nil => cases h
  | cons p ps ih =>
      cases ps with
      | nil => exact Or.inr ⟨p, List.mem_cons_self, h⟩
      | cons q ps =>
          unfold pairsText at h
          rcases List.mem_append.mp h with h | h
          · exact Or.inr ⟨p, List.mem_cons_self, h⟩
          · rcases List.mem_cons.mp h with rfl | h
            · exact Or.inl rfl
            · rcases ih h with rfl | ⟨p', hp', hb⟩
              · exact Or.inl rfl
              · exact Or.inr ⟨p', List.mem_cons_of_mem p hp', hb⟩

/-- A word is not found in a pair that lacks one of its bytes. -/
theorem behind_eq_none {c : UInt8} (hw : c ∈ w)
    (hp : c ∉ pairItem p) : behind w p = none :=
  behind_eq_none_iff.mpr fun hin => hp (hin.subset hw)

end Lib
