import Svgd.Lib.CString

/-!
# The first place of a word

What a search for a word is for, said of the text alone: `Behind w s t` means that `t` is what
stands behind the first place of `w` in `s`, and `Between c s v` that `v` stands between the
first two `c` of `s`. `strstr` and `strchr` find these places (`strstr_eq_some_iff`,
`strchr_eq_some_iff`), so a reader that is built on them reads what these relations say.
-/

namespace Lib

section

variable {α : Type*}

/-- `t` is the text behind the first place of `w` in `s`. -/
def Behind (w s t : List α) : Prop :=
  ∃ p, s = p ++ (w ++ t) ∧ ∀ k < p.length, ¬ w <+: s.drop k

/-- `v` is the text between the first two `c` of `s`. -/
def Between (c : α) (s v : List α) : Prop := ∃ r, Behind [c] s (v ++ c :: r) ∧ c ∉ v

/-- A word that stands at the beginning has its first place there. -/
theorem behind_head (w t : List α) : Behind w (w ++ t) t := ⟨[], rfl, fun k hk => absurd hk (by simp)⟩

theorem behind_cons {w s t : List α} {b : α} (hb : ¬ w <+: b :: s) (h : Behind w s t) :
    Behind w (b :: s) t := by
  obtain ⟨p, rfl, hp⟩ := h
  refine ⟨b :: p, rfl, fun k hk => ?_⟩
  cases k with
  | zero => exact hb
  | succ k => exact hp k (by simpa using hk)

/-- What stands behind a place is shorter. -/
theorem Behind.length_lt {c : α} {s t : List α} (h : Behind [c] s t) : t.length < s.length := by
  obtain ⟨p, rfl, -⟩ := h
  simp only [List.length_append, List.length_singleton]
  omega

end

theorem prefix_iff_startsWith {s w : Bytes} : w <+: s ↔ startsWith s w = true :=
  List.isPrefixOf_iff_prefix.symm

/-- **`strstr` finds the first place.** -/
theorem strstr_eq_some_iff {s w k : Bytes} : strstr s w = some k ↔ ∃ t, k = w ++ t ∧ Behind w s t := by
  constructor
  · intro h
    induction s with
    | nil =>
        unfold strstr at h
        split at h
        · rename_i hw
          subst hw
          exact ⟨[], (Option.some.inj h).symm, behind_head [] []⟩
        · cases h
    | cons b s ih =>
        unfold strstr at h
        split at h
        · rename_i hb
          obtain ⟨t, ht⟩ := startsWith_iff.mp hb
          refine ⟨t, (Option.some.inj h).symm.trans ht, ?_⟩
          rw [ht]
          exact behind_head w t
        · rename_i hb
          obtain ⟨t, hk, ht⟩ := ih h
          exact ⟨t, hk, behind_cons (fun hpre => hb (prefix_iff_startsWith.mp hpre)) ht⟩
  · rintro ⟨t, rfl, p, hs, hp⟩
    induction p generalizing s with
    | nil =>
        rw [hs]
        exact strstr_head (startsWith_append w t)
    | cons b p ih =>
        subst hs
        have hb : ¬ startsWith (b :: (p ++ (w ++ t))) w = true := fun hb =>
          hp 0 (by simp) (prefix_iff_startsWith.mpr hb)
        rw [List.cons_append, strstr, if_neg hb]
        exact ih rfl fun k hk => hp (k + 1) (by simpa using hk)

theorem strchr_eq_strstr (s : Bytes) (c : UInt8) : strchr s c = strstr s [c] := by
  induction s with
  | nil => rfl
  | cons b s ih =>
      have hb : startsWith (b :: s) [c] = true ↔ b = c := by
        rw [startsWith_cons_cons, startsWith_nil, Bool.and_true, beq_iff_eq]
        exact eq_comm
      rw [strchr, strstr, ih]
      by_cases h : b = c
      · rw [if_pos h, if_pos (hb.mpr h)]
      · rw [if_neg h, if_neg fun hc => h (hb.mp hc)]

/-- **`strchr` finds the first place.** -/
theorem strchr_eq_some_iff {s k : Bytes} {c : UInt8} :
    strchr s c = some k ↔ ∃ t, k = c :: t ∧ Behind [c] s t := by
  rw [strchr_eq_strstr, strstr_eq_some_iff]
  rfl

/-- The text between the first two `c`, as it is cut out. -/
theorem between_iff {s v : Bytes} {c : UInt8} : Between c s v ↔
    ∃ start stop, strchr s c = some start ∧ strchr (start.drop 1) c = some stop
      ∧ v = upTo (start.drop 1) stop := by
  constructor
  · rintro ⟨r, hr, hv⟩
    refine ⟨c :: (v ++ c :: r), c :: r, strchr_eq_some_iff.mpr ⟨_, rfl, hr⟩, strchr_append hv, ?_⟩
    exact (upTo_append v (c :: r)).symm
  · rintro ⟨start, stop, hstart, hstop, rfl⟩
    obtain ⟨t, rfl, ht⟩ := strchr_eq_some_iff.mp hstart
    obtain ⟨v, r, hv, rfl, hc⟩ := strchr_some hstop
    have hv : t = v ++ c :: r := hv
    subst hv
    refine ⟨r, ?_, ?_⟩
    · rw [List.drop_succ_cons, List.drop_zero, upTo_append]
      exact ht
    · rw [List.drop_succ_cons, List.drop_zero, upTo_append]
      exact hc

end Lib
