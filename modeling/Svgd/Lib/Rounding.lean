import Svgd.Lib.Double
import Mathlib.Tactic.Linarith
import Mathlib.Tactic.FieldSimp

/-!
# Rounding to the nearest integer, and to six digits

`roundHalfEven` stays within the integers around a number, keeps the order, and moves nothing
but what is no integer. `%g` scales a number so that six digits stand in front of the point,
rounds, and scales back; its text denotes exactly that (`value_gLit`), so it keeps a number
exactly if the scaled one is an integer.
-/

namespace Lib

/-! ## The nearest integer -/

section

variable {x y : ℚ} {n : Int}

theorem floor_le_roundHalfEven (x : ℚ) : ⌊x⌋ ≤ roundHalfEven x ∧ roundHalfEven x ≤ ⌊x⌋ + 1 := by
  unfold roundHalfEven
  dsimp only
  split_ifs <;> omega

theorem le_roundHalfEven (h : (n : ℚ) ≤ x) : n ≤ roundHalfEven x :=
  Int.le_trans (Int.le_floor.mpr h) (floor_le_roundHalfEven x).1

@[simp] theorem roundHalfEven_intCast (n : Int) : roundHalfEven n = n := by
  unfold roundHalfEven
  dsimp only
  rw [Int.floor_intCast, if_pos (by norm_num)]

theorem roundHalfEven_le (h : x ≤ n) : roundHalfEven x ≤ n := by
  rcases Int.lt_or_eq_of_le (Int.floor_le_iff.mpr (by linarith : x < n + 1)) with hlt | heq
  · exact Int.le_trans (floor_le_roundHalfEven x).2 hlt
  · have hx : x = n := le_antisymm h (heq ▸ Int.floor_le x)
    rw [hx, roundHalfEven_intCast]

theorem roundHalfEven_mono (h : x ≤ y) : roundHalfEven x ≤ roundHalfEven y := by
  rcases Int.lt_or_eq_of_le (Int.floor_le_floor h) with hlt | heq
  · have hx := (floor_le_roundHalfEven x).2
    have hy := (floor_le_roundHalfEven y).1
    omega
  · -- within one unit the middle decides, and in the middle both do the same
    unfold roundHalfEven
    dsimp only
    rw [heq]
    split_ifs with h1 h2 h3 h4 h5 h6 h7 h8
    all_goals first
      | omega
      | (exfalso; linarith)

/-- Rounding moves a number by half a unit at most. -/
theorem roundHalfEven_near (x : ℚ) :
    (roundHalfEven x : ℚ) ≤ x + 1 / 2 ∧ x - 1 / 2 ≤ (roundHalfEven x : ℚ) := by
  have hle := Int.floor_le x
  have hlt := Int.lt_floor_add_one x
  unfold roundHalfEven
  dsimp only
  split_ifs <;> push_cast <;> constructor <;> linarith

/-- Only integers are kept. -/
theorem roundHalfEven_eq_self_iff : (roundHalfEven x : ℚ) = x ↔ ∃ z : Int, x = z := by
  constructor
  · exact fun h => ⟨roundHalfEven x, h.symm⟩
  · rintro ⟨z, rfl⟩
    rw [roundHalfEven_intCast]

end

/-! ## Digits without trailing zeros -/

/-- The zeros are put back. -/
theorem stripZeros_append (s : Bytes) :
    ∃ k, s = stripZeros s ++ List.replicate k (ch '0') := by
  refine ⟨(s.reverse.takeWhile (· == ch '0')).length, ?_⟩
  have hzeros : s.reverse.takeWhile (· == ch '0')
      = List.replicate (s.reverse.takeWhile (· == ch '0')).length (ch '0') := by
    apply List.eq_replicate_of_mem
    intro b hb
    simpa using List.mem_takeWhile_imp hb
  have hsplit := List.takeWhile_append_dropWhile (p := (· == ch '0')) (l := s.reverse)
  unfold stripZeros
  rw [← List.reverse_replicate, ← hzeros, ← List.reverse_append, hsplit, List.reverse_reverse]

theorem natValue_zeros (k : Nat) : natValue (List.replicate k (ch '0')) = 0 := by
  induction k with
  | zero => rfl
  | succ k ih =>
      rw [List.replicate_succ', natValue_append, ih, Nat.zero_mul, Nat.zero_add]
      rfl

/-- A fraction is the same without its trailing zeros. -/
theorem fraction_stripZeros (s : Bytes) :
    (natValue (stripZeros s) : ℚ) / 10 ^ (stripZeros s).length = natValue s / 10 ^ s.length := by
  obtain ⟨k, hk⟩ := stripZeros_append s
  have hvalue : natValue s = natValue (stripZeros s) * 10 ^ k := by
    conv_lhs => rw [hk]
    rw [natValue_append, natValue_zeros, List.length_replicate, Nat.add_zero]
  have hlength : s.length = (stripZeros s).length + k := by
    conv_lhs => rw [hk]
    rw [List.length_append, List.length_replicate]
  rw [hvalue, hlength, pow_add]
  push_cast
  field_simp

/-- Digits in front of the point and behind it. -/
theorem digits_split (m k : Nat) :
    ((m / 10 ^ k : Nat) : ℚ) + natValue (stripZeros (padDigits k m))
      / 10 ^ (stripZeros (padDigits k m)).length = m / 10 ^ k := by
  rw [fraction_stripZeros, natValue_padDigits, length_padDigits]
  have h : ((10 ^ k * (m / 10 ^ k) + m % 10 ^ k : Nat) : ℚ) = m := by rw [Nat.div_add_mod]
  push_cast at h
  have hpos : (10 : ℚ) ^ k ≠ 0 := by positivity
  field_simp
  linarith

/-! ## What `%g` keeps -/

/-- The digits `%g` prints for a positive number, in units of the last of them. -/
def sixDigits (q : ℚ) : Int := roundHalfEven (q / 10 ^ (Int.log 10 q - 5))

/-- There are six of them, or seven after a carry. -/
theorem sixDigits_bounds {q : ℚ} (hq : 0 < q) : 10 ^ 5 ≤ sixDigits q ∧ sixDigits q ≤ 10 ^ 6 := by
  have hlow : (10 : ℚ) ^ Int.log 10 q ≤ q := by
    exact_mod_cast Int.zpow_log_le_self (b := 10) (by decide) hq
  have hhigh : q < (10 : ℚ) ^ (Int.log 10 q + 1) := by
    exact_mod_cast Int.lt_zpow_succ_log_self (b := 10) (by decide) q
  have hpos : (0 : ℚ) < 10 ^ (Int.log 10 q - 5) := zpow_pos (by norm_num) _
  have hlog : (10 : ℚ) ^ Int.log 10 q = 10 ^ (5 : Int) * 10 ^ (Int.log 10 q - 5) := by
    rw [← zpow_add₀ (by norm_num)]
    congr 1
    omega
  have hlog' : (10 : ℚ) ^ (Int.log 10 q + 1) = 10 ^ (6 : Int) * 10 ^ (Int.log 10 q - 5) := by
    rw [← zpow_add₀ (by norm_num)]
    congr 1
    omega
  constructor
  · apply le_roundHalfEven
    rw [le_div_iff₀ hpos]
    norm_num at hlog ⊢
    linarith
  · apply roundHalfEven_le
    rw [div_le_iff₀ hpos]
    norm_num at hlog' ⊢
    linarith

/-- The digits and the exponent denote the rounded number. -/
theorem gSplit_value {q : ℚ} (hq : 0 < q) : (gSplit q).2 < 10 ^ 6
    ∧ ((gSplit q).2 : ℚ) * 10 ^ ((gSplit q).1 - 5)
      = sixDigits q * 10 ^ (Int.log 10 q - 5) := by
  obtain ⟨hlow, hhigh⟩ := sixDigits_bounds hq
  obtain ⟨m, hm⟩ : ∃ m : Nat, sixDigits q = m := ⟨(sixDigits q).toNat, by omega⟩
  unfold gSplit
  dsimp only
  rw [show roundHalfEven (q / 10 ^ (Int.log 10 q - 5)) = m from hm, Int.toNat_natCast, hm]
  by_cases hcarry : m = 10 ^ 6
  · rw [if_pos hcarry, hcarry]
    refine ⟨show 10 ^ 5 < 10 ^ 6 by decide, ?_⟩
    have hexp : Int.log 10 q + 1 - 5 = (Int.log 10 q - 5) + 1 := by omega
    dsimp only
    rw [hexp, zpow_add₀ (by norm_num), zpow_one]
    push_cast
    ring
  · rw [if_neg hcarry]
    refine ⟨by dsimp only; omega, ?_⟩
    push_cast
    rfl

/-- The three styles of `%g`. -/
theorem value_gLit_cases (neg : Bool) (q : ℚ) : (gLit neg q).value
    = if (gSplit q).1 < -4 ∨ 6 ≤ (gSplit q).1 then
        decimalValue neg ((gSplit q).2 / 10 ^ 5) (stripZeros (padDigits 5 (gSplit q).2)) (gSplit q).1
      else if 0 ≤ (gSplit q).1 then
        decimalValue neg ((gSplit q).2 / 10 ^ (5 - (gSplit q).1.toNat))
          (stripZeros (padDigits (5 - (gSplit q).1.toNat) (gSplit q).2)) 0
      else decimalValue neg 0 (stripZeros (padDigits (5 + (-(gSplit q).1).toNat) (gSplit q).2)) 0 := by
  unfold gLit NumLit.value
  dsimp only
  split_ifs <;> rfl

/-- Digits with the point behind the first `k` from the right, and an exponent. -/
theorem decimalValue_split (m k : Nat) (e : Int) :
    decimalValue false (m / 10 ^ k) (stripZeros (padDigits k m)) e = m * 10 ^ (e - k) := by
  unfold decimalValue
  rw [digits_split, zpow_sub₀ (by norm_num), zpow_natCast, if_neg (by decide)]
  ring

/-- **The text of `%g` denotes the number rounded to six digits.** -/
theorem value_gLit {q : ℚ} (hq : 0 < q) :
    (gLit false q).value = sixDigits q * 10 ^ (Int.log 10 q - 5) := by
  obtain ⟨hlt, hvalue⟩ := gSplit_value hq
  rw [← hvalue, value_gLit_cases]
  by_cases hexp : (gSplit q).1 < -4 ∨ 6 ≤ (gSplit q).1
  · rw [if_pos hexp, decimalValue_split]
    rfl
  rw [if_neg hexp]
  by_cases hpos : 0 ≤ (gSplit q).1
  · rw [if_pos hpos, decimalValue_split]
    congr 2
    omega
  · have hzero : (gSplit q).2 / 10 ^ (5 + (-(gSplit q).1).toNat) = 0 := by
      apply Nat.div_eq_of_lt
      exact Nat.lt_of_lt_of_le hlt (Nat.pow_le_pow_right (by decide) (by omega))
    have hsplit := decimalValue_split (gSplit q).2 (5 + (-(gSplit q).1).toNat) 0
    rw [hzero] at hsplit
    rw [if_neg hpos, hsplit]
    congr 2
    omega

/-- At most six digits, and zeros behind them. -/
def HasSixDigits (v : Nat) : Prop := ∃ m k, m < 10 ^ 6 ∧ v = m * 10 ^ k

/-- A number has six digits exactly if it is a multiple of the weight of its sixth digit. -/
theorem hasSixDigits_iff {v : Nat} (hv : 0 < v) :
    (∃ z : Int, (v : ℚ) / 10 ^ ((Nat.log 10 v : Int) - 5) = z) ↔ HasSixDigits v := by
  have hlow : 10 ^ Nat.log 10 v ≤ v := Nat.pow_log_le_self 10 hv.ne'
  have hhigh : v < 10 ^ (Nat.log 10 v + 1) := Nat.lt_pow_succ_log_self (by decide) v
  rcases Nat.lt_or_ge (Nat.log 10 v) 5 with hsmall | hlarge
  · obtain ⟨j, hj⟩ : ∃ j : Nat, (Nat.log 10 v : Int) - 5 = -(j : Int) := ⟨5 - Nat.log 10 v, by omega⟩
    have hlt : v < 10 ^ 6 :=
      Nat.lt_of_lt_of_le hhigh (Nat.pow_le_pow_right (by decide) (by omega))
    refine ⟨fun _ => ⟨v, 0, hlt, by rw [Nat.pow_zero, Nat.mul_one]⟩, fun _ => ⟨v * 10 ^ j, ?_⟩⟩
    rw [hj, zpow_neg, zpow_natCast, div_inv_eq_mul]
    push_cast
    rfl
  · obtain ⟨j, hj⟩ : ∃ j : Nat, Nat.log 10 v = 5 + j := ⟨Nat.log 10 v - 5, by omega⟩
    have hexp : (Nat.log 10 v : Int) - 5 = (j : Int) := by omega
    have hpos : (0 : ℚ) < 10 ^ j := by positivity
    rw [hexp, zpow_natCast]
    simp only [div_eq_iff hpos.ne']
    constructor
    · rintro ⟨z, hz⟩
      have hint : (v : Int) = z * 10 ^ j := by exact_mod_cast hz
      have hz0 : 0 ≤ z := by
        by_contra hneg
        have : z * 10 ^ j ≤ 0 := Int.mul_nonpos_of_nonpos_of_nonneg (by omega) (by positivity)
        omega
      obtain ⟨m, rfl⟩ := Int.eq_ofNat_of_zero_le hz0
      have hnat : v = m * 10 ^ j := by exact_mod_cast hint
      refine ⟨m, j, ?_, hnat⟩
      have hlt : m * 10 ^ j < 10 ^ 6 * 10 ^ j := by
        rw [← hnat, ← Nat.pow_add]
        exact Nat.lt_of_lt_of_le hhigh (Nat.pow_le_pow_right (by decide) (by omega))
      exact Nat.lt_of_mul_lt_mul_right hlt
    · rintro ⟨m, k, hm, hv⟩
      have hjk : j ≤ k := by
        by_contra hlt
        have h1 : m * 10 ^ k < 10 ^ 6 * 10 ^ k := Nat.mul_lt_mul_of_pos_right hm (by positivity)
        have h2 : 10 ^ 6 * 10 ^ k ≤ 10 ^ Nat.log 10 v := by
          rw [← Nat.pow_add]
          exact Nat.pow_le_pow_right (by decide) (by omega)
        omega
      obtain ⟨i, rfl⟩ := Nat.exists_eq_add_of_le hjk
      refine ⟨(m * 10 ^ i : Nat), ?_⟩
      rw [hv]
      push_cast
      rw [pow_add]
      ring

/-- **`%g` keeps a natural number exactly if it has at most six digits in front of its zeros.** -/
theorem gLiteral_natCast_iff (v : Nat) : (gLiteral (.fin v)).value = v ↔ HasSixDigits v := by
  rcases Nat.eq_zero_or_pos v with rfl | hv
  · refine ⟨fun _ => ⟨0, 0, by decide, rfl⟩, fun _ => ?_⟩
    have hzero : gLiteral (.fin ((0 : Nat) : ℚ)) = NumLit.ofInt 0 := by
      unfold gLiteral
      dsimp only
      rw [if_pos Nat.cast_zero]
    rw [hzero]
    simp [NumLit.value, NumLit.ofInt, decimalValue, natValue]
  · have hq : (0 : ℚ) < v := by exact_mod_cast hv
    have hlit : gLiteral (.fin (v : ℚ)) = gLit false v := by
      unfold gLiteral
      dsimp only
      rw [if_neg hq.ne', abs_of_pos hq, decide_eq_false (by linarith)]
    have hlog : Int.log 10 (v : ℚ) = (Nat.log 10 v : Int) := Int.log_natCast 10 v
    have hpos : (0 : ℚ) < 10 ^ (Int.log 10 (v : ℚ) - 5) := zpow_pos (by norm_num) _
    rw [hlit, value_gLit hq, ← eq_div_iff hpos.ne']
    show (roundHalfEven ((v : ℚ) / 10 ^ (Int.log 10 (v : ℚ) - 5)) : ℚ) = _ ↔ _
    rw [roundHalfEven_eq_self_iff, hlog]
    exact hasSixDigits_iff hv

end Lib
