import Svgd.Proof.EndpointTransit
import Svgd.Lib.Pairs

/-!
# Parameters as pairs

`handler_get_param` searches the text for `key=`. In a text of pairs that is a lookup of the
key, unless `key=` stands somewhere else first: at the end of a longer key, or inside a
value.
-/

namespace Svgd.Backend

open Lib

/-- Where `key=` first stands in a text of pairs. -/
inductive Unambiguous (ps : List (Bytes × Bytes)) (key : Bytes) : Prop where
  /-- Nowhere. -/
  | absent (h : ¬Names (pairsText ps) key)
  /-- At the start of a pair. -/
  | exact (before : List (Bytes × Bytes)) (v : Bytes) (after : List (Bytes × Bytes))
      (split : ps = before ++ (key, v) :: after)
      (first : ∀ p ∈ before, ¬Names (pairItem p) key)
  /-- Within a pair with another key, where by chance the text behind it is the value of the
  right pair. -/
  | chance (before : List (Bytes × Bytes)) (p : Bytes × Bytes) (after : List (Bytes × Bytes))
      (v : Bytes) (split : ps = before ++ p :: after)
      (first : ∀ q ∈ before, ¬Names (pairItem q) key) (other : p.1 ≠ key)
      (found : behind (key ++ str "=") p = some v) (same : lookupPair after key = some v)

variable {ps : List (Bytes × Bytes)} {key : Bytes}

theorem names_own {v : Bytes} : Names (pairItem (key, v)) key :=
  ⟨[], v, by unfold pairItem; rw [List.nil_append, List.append_assoc]; rfl⟩

/-- Pairs that do not have `key=` do not have the key. -/
theorem ne_of_not_names (h : ∀ p ∈ ps, ¬Names (pairItem p) key) : ∀ p ∈ ps, p.1 ≠ key := by
  rintro ⟨k, v⟩ hp rfl
  exact h _ hp names_own

section

variable (hplain : ∀ p ∈ ps, PlainPair p)

include hplain

/-- A key with a separator in it belongs to no pair. -/
theorem lookupPair_of_amp (hamp : ch '&' ∈ key) : lookupPair ps key = none := by
  cases hfind : lookupPair ps key with
  | none => rfl
  | some v => exact absurd hamp (hplain _ (lookupPair_some hfind)).key_no_amp

variable (hshort : key.length < 255)

include hshort

/-- For a key without separator the text is searched pair by pair. -/
theorem handlerGetParam_pairs (hamp : ch '&' ∉ key) :
    handlerGetParam (pairsText ps) key = ps.findSome? (behind (key ++ str "=")) := by
  have hno : ch '&' ∉ key ++ str "=" := by
    simp only [List.mem_append, not_or]
    exact ⟨hamp, by decide⟩
  obtain ⟨c, x, hw⟩ : ∃ c x, key ++ str "=" = c :: x := List.exists_cons_of_ne_nil (by simp [str])
  rw [hw] at hno ⊢
  rw [← behind_pairsText hno hplain]
  unfold handlerGetParam
  dsimp only
  rw [searchKey_eq hshort, hw]
  cases strstr (pairsText ps) (c :: x) <;> rfl

end

/--
**When the search is a lookup.**

The value of the first pair with the key is returned, and `NULL` if there is none, exactly if
`key=` does not stand anywhere else first.
-/
theorem handlerGetParam_lookup_iff {ps : List (Bytes × Bytes)} (hplain : ∀ p ∈ ps, PlainPair p)
    {key : Bytes} (hkey : key.length ≤ 254) :
    handlerGetParam (pairsText ps) key = lookupPair ps key ↔ Unambiguous ps key := by
  have hshort : key.length < 255 := by omega
  have habsent : ¬Names (pairsText ps) key → lookupPair ps key = none := by
    intro h
    cases hfind : lookupPair ps key with
    | none => rfl
    | some v => exact absurd (names_own.trans (pairItem_in_text (lookupPair_some hfind))) h
  constructor
  · intro h
    by_cases hnames : Names (pairsText ps) key
    · by_cases hamp : ch '&' ∈ key
      · rw [lookupPair_of_amp hplain hamp, handlerGetParam_eq_none_iff hshort] at h
        exact absurd hnames h
      · -- the first pair that has `key=` decides
        rw [handlerGetParam_pairs hplain hshort hamp] at h
        cases hfound : ps.findSome? (behind (key ++ str "=")) with
        | none =>
            rw [← handlerGetParam_pairs hplain hshort hamp,
              handlerGetParam_eq_none_iff hshort] at hfound
            exact absurd hnames hfound
        | some v =>
            rw [hfound] at h
            obtain ⟨before, ⟨k, u⟩, after, hsplit, hv, hbefore⟩ := List.findSome?_eq_some_iff.mp hfound
            have hfirst : ∀ p ∈ before, ¬Names (pairItem p) key :=
              fun p hp => behind_eq_none_iff.mp (hbefore p hp)
            by_cases hk : k = key
            · subst hk
              exact .exact before u after hsplit hfirst
            · refine .chance before (k, u) after v hsplit hfirst hk hv ?_
              rw [h, hsplit, lookupPair_append (ne_of_not_names hfirst), lookupPair_cons_ne hk]
    · exact .absent hnames
  · rintro (h | ⟨before, v, after, hsplit, hfirst⟩ | ⟨before, p, after, v, hsplit, hfirst, hk, hv, hsame⟩)
    · rw [habsent h, handlerGetParam_eq_none_iff hshort]
      exact h
    · have hkey : PlainPair (key, v) := hplain _ (by rw [hsplit]; simp)
      rw [handlerGetParam_pairs hplain hshort hkey.key_no_amp, hsplit, List.findSome?_append,
        lookupPair_append (ne_of_not_names hfirst), lookupPair_cons_eq,
        List.findSome?_eq_none_iff.mpr fun p hp => behind_eq_none_iff.mpr (hfirst p hp),
        Option.none_or, List.findSome?_cons, behind_self]
    · have hkey : PlainPair (key, v) :=
        hplain _ (by rw [hsplit]; simp [lookupPair_some hsame])
      rw [handlerGetParam_pairs hplain hshort hkey.key_no_amp, hsplit, List.findSome?_append,
        lookupPair_append (ne_of_not_names hfirst),
        List.findSome?_eq_none_iff.mpr fun q hq => behind_eq_none_iff.mpr (hfirst q hq),
        Option.none_or, List.findSome?_cons, hv, lookupPair_cons_ne hk, hsame]

/-- The parameters of a chart are read as they are meant. -/
theorem handlerGetParam_lookup_chart :
    handlerGetParam (pairsText [(str "endpoint", str "cpu"), (str "period", str "60")])
        (str "period")
      = lookupPair [(str "endpoint", str "cpu"), (str "period", str "60")] (str "period") := by
  have hplain : ∀ p ∈ [(str "endpoint", str "cpu"), (str "period", str "60")], PlainPair p := by
    intro p hp
    rcases List.mem_cons.mp hp with rfl | hp
    · exact ⟨by decide, by decide, by decide⟩
    · obtain rfl := List.mem_singleton.mp hp
      exact ⟨by decide, by decide, by decide⟩
  refine (handlerGetParam_lookup_iff hplain (by decide)).mpr
    (.exact [(str "endpoint", str "cpu")] (str "60") [] rfl ?_)
  intro p hp
  obtain rfl := List.mem_singleton.mp hp
  exact (handlerGetParam_eq_none_iff (by decide)).mp (by decide)

/-- A key that ends in the requested one is taken for it. -/
theorem param_of_longer_key :
    let ps := [(str "endpoint", str "cpu"), (str "xperiod", str "5"), (str "period", str "60")]
    (∀ p ∈ ps, ch '=' ∉ p.1 ∧ ch '&' ∉ p.1 ∧ ch '&' ∉ p.2)
      ∧ handlerGetParam (pairsText ps) (str "period") = some (str "5")
      ∧ lookupPair ps (str "period") = some (str "60") := by
  decide

end Svgd.Backend
