import Svgd.Lib.Rounding

/-!
# Rounding to binary64

What a number that is not negative is rounded to, as a rational. Rounding keeps the order and
the numbers of 53 bits, so a bound by such a number outlives it.
-/

namespace Lib

namespace Double

/-- The exponent of the last bit of a number. -/
def lastBit (q : ℚ) : Int := max (Int.log 2 |q| - 52) (-1074)

/-- The number a rational is rounded to, without its sign and without a bound. -/
def rounded (q : ℚ) : ℚ := roundHalfEven (|q| / 2 ^ lastBit q) * 2 ^ lastBit q

@[simp] theorem rounded_zero : rounded 0 = 0 := by
  have h := roundHalfEven_intCast 0
  unfold rounded
  rw [abs_zero, zero_div, ← Int.cast_zero, h, Int.cast_zero, zero_mul]

variable {q r : ℚ}

theorem round_def (q : ℚ) : round q = if q = 0 then fin 0
    else if 2 ^ 1024 ≤ rounded q then inf (q < 0)
    else if rounded q = 0 then (if q < 0 then negZero else fin 0)
    else fin (if q < 0 then -rounded q else rounded q) := rfl

theorem round_of_nonneg (hq : 0 ≤ q) (hlt : rounded q < 2 ^ 1024) : round q = fin (rounded q) := by
  rcases hq.eq_or_lt with rfl | hpos
  · rw [rounded_zero]
    exact if_pos rfl
  · rw [round_def, if_neg hpos.ne', if_neg (not_le.mpr hlt)]
    by_cases hzero : rounded q = 0
    · rw [if_pos hzero, if_neg (not_lt.mpr hq), hzero]
    · rw [if_neg hzero, if_neg (not_lt.mpr hq)]

theorem zpow_two_pos (e : Int) : (0 : ℚ) < 2 ^ e := zpow_pos (by norm_num) _

/-- A higher power of two is a multiple of a lower one. -/
theorem zpow_two_split {b e : Int} (h : b ≤ e) :
    ∃ k : Nat, (2 : ℚ) ^ e = ((2 ^ k : Nat) : Int) * 2 ^ b := by
  obtain ⟨k, hk⟩ := Int.eq_ofNat_of_zero_le (Int.sub_nonneg_of_le h)
  refine ⟨k, ?_⟩
  have hexp : e = k + b := by omega
  rw [hexp, zpow_add₀ (by norm_num), zpow_natCast]
  push_cast
  rfl

/-- A multiple of the last bit is kept, and what is on one side of it stays there. -/
theorem rounded_le_of_bit {e : Int} (hq : 0 ≤ q) (he : lastBit q ≤ e) (h : q ≤ 2 ^ e) :
    rounded q ≤ 2 ^ e := by
  obtain ⟨k, hsplit⟩ := zpow_two_split he
  have hpos := zpow_two_pos (lastBit q)
  unfold rounded
  rw [hsplit, abs_of_nonneg hq]
  apply mul_le_mul_of_nonneg_right _ hpos.le
  rw [hsplit] at h
  exact Int.cast_le.mpr (roundHalfEven_le ((div_le_iff₀ hpos).mpr h))

theorem le_rounded_of_bit {e : Int} (hq : 0 ≤ q) (he : lastBit q ≤ e) (h : 2 ^ e ≤ q) :
    2 ^ e ≤ rounded q := by
  obtain ⟨k, hsplit⟩ := zpow_two_split he
  have hpos := zpow_two_pos (lastBit q)
  unfold rounded
  rw [hsplit, abs_of_nonneg hq]
  apply mul_le_mul_of_nonneg_right _ hpos.le
  rw [hsplit] at h
  exact Int.cast_le.mpr (le_roundHalfEven ((le_div_iff₀ hpos).mpr h))

theorem rounded_nonneg (q : ℚ) : 0 ≤ rounded q := by
  have hpos := zpow_two_pos (lastBit q)
  have h : ((0 : Int) : ℚ) ≤ |q| / 2 ^ lastBit q := by
    rw [Int.cast_zero]
    exact div_nonneg (abs_nonneg q) hpos.le
  have hround := le_roundHalfEven h
  unfold rounded
  exact mul_nonneg (by exact_mod_cast hround) hpos.le

/-- **Rounding keeps the order.** -/
theorem rounded_mono (hq : 0 ≤ q) (h : q ≤ r) : rounded q ≤ rounded r := by
  rcases hq.eq_or_lt with rfl | hpos
  · rw [rounded_zero]
    exact rounded_nonneg r
  have hr : 0 < r := lt_of_lt_of_le hpos h
  have hlog : Int.log 2 q ≤ Int.log 2 r := Int.log_mono_right hpos h
  have hbit : lastBit q ≤ lastBit r := by
    unfold lastBit
    rw [abs_of_pos hpos, abs_of_pos hr]
    omega
  rcases hbit.eq_or_lt with heq | hlt
  · unfold rounded
    rw [heq, abs_of_pos hpos, abs_of_pos hr]
    have hunit := zpow_two_pos (lastBit r)
    apply mul_le_mul_of_nonneg_right _ hunit.le
    exact_mod_cast roundHalfEven_mono ((div_le_div_iff_of_pos_right hunit).mpr h)
  · -- a power of two lies between the two
    have hbits : lastBit r = Int.log 2 r - 52 ∧ Int.log 2 q < Int.log 2 r := by
      unfold lastBit at hlt ⊢
      rw [abs_of_pos hpos, abs_of_pos hr] at *
      omega
    have hlow : (2 : ℚ) ^ Int.log 2 r ≤ r := by
      exact_mod_cast Int.zpow_log_le_self (b := 2) (by decide) hr
    have hhigh : q ≤ (2 : ℚ) ^ Int.log 2 r := by
      have hlt := Int.lt_zpow_succ_log_self (b := 2) (by decide) q
      push_cast at hlt
      exact hlt.le.trans (zpow_le_zpow_right₀ (by norm_num) (by omega))
    calc rounded q ≤ 2 ^ Int.log 2 r := rounded_le_of_bit hq (by omega) hhigh
      _ ≤ rounded r := le_rounded_of_bit hr.le (by omega) hlow

/-- **A number of 53 bits is kept.** -/
theorem rounded_bits {m : Nat} {j : Int} (hm : m < 2 ^ 53) (hj : -1074 ≤ j) :
    rounded (m * 2 ^ j) = m * 2 ^ j := by
  rcases Nat.eq_zero_or_pos m with rfl | hpos
  · simp
  have hunit := zpow_two_pos j
  have hq : (0 : ℚ) < m * 2 ^ j := mul_pos (by exact_mod_cast hpos) hunit
  have hlt : (m : ℚ) * 2 ^ j < 2 ^ (53 + j) := by
    rw [zpow_add₀ (by norm_num)]
    exact mul_lt_mul_of_pos_right (by exact_mod_cast hm) hunit
  have hlog : Int.log 2 ((m : ℚ) * 2 ^ j) < 53 + j := by
    rw [← Int.lt_zpow_iff_log_lt (by decide) hq]
    exact_mod_cast hlt
  have hbit : lastBit (m * 2 ^ j) ≤ j := by
    unfold lastBit
    rw [abs_of_pos hq]
    omega
  obtain ⟨k, hk⟩ := zpow_two_split hbit
  have hlast := zpow_two_pos (lastBit (m * 2 ^ j))
  have hscaled : (m : ℚ) * 2 ^ j / 2 ^ lastBit (m * 2 ^ j) = ((m * 2 ^ k : Nat) : Int) := by
    rw [div_eq_iff hlast.ne']
    conv_lhs => rw [hk]
    push_cast
    ring
  unfold rounded
  rw [abs_of_pos hq, hscaled, roundHalfEven_intCast, ← hscaled, div_mul_cancel₀ _ hlast.ne']

theorem rounded_natCast {n : Nat} (h : n ≤ 2 ^ 53) : rounded n = n := by
  rcases h.lt_or_eq with hlt | rfl
  · have hkept := rounded_bits (j := 0) hlt (by decide)
    rwa [zpow_zero, mul_one] at hkept
  · have hkept := rounded_bits (m := 1) (j := 53) (by decide) (by decide)
    norm_num at hkept ⊢
    exact hkept

theorem rounded_two_mul {h : Nat} (hmax : 2 * h ≤ 2 ^ 53) : rounded (2 * h : ℚ) = 2 * h := by
  have hkept := rounded_natCast hmax
  rwa [Nat.cast_mul, Nat.cast_ofNat] at hkept

theorem rounded_two_pow {k : Nat} : rounded (2 ^ k) = 2 ^ k := by
  have h := rounded_bits (m := 1) (j := k) (by decide) (by omega)
  rwa [Nat.cast_one, one_mul, zpow_natCast] at h

/-- A number below zero is not above one that is not. -/
theorem not_lt_round (hr : 0 ≤ r) (hq : q < 0) : lt (fin r) (round q) = false := by
  have hnonneg := rounded_nonneg q
  rw [round_def, if_neg hq.ne, if_pos hq, if_pos hq, decide_eq_true hq]
  split_ifs
  · rfl
  · exact decide_eq_false (not_lt.mpr hr)
  · exact decide_eq_false (not_lt.mpr (show -rounded q ≤ r by linarith))

/-! ## Three times a third -/

/-- Below an even number, the middle is rounded up. -/
theorem roundHalfEven_even_sub_half (c : Int) : roundHalfEven (2 * c - 1 / 2) = 2 * c := by
  have hfloor : ⌊(2 : ℚ) * c - 1 / 2⌋ = 2 * c - 1 := by
    rw [Int.floor_eq_iff]
    push_cast
    exact ⟨by linarith, by linarith⟩
  unfold roundHalfEven
  dsimp only
  rw [hfloor]
  push_cast
  rw [if_neg (by linarith), if_neg (by linarith), if_neg (by omega)]
  omega

theorem roundHalfEven_sub_quarter (c : Int) : roundHalfEven (c - 1 / 4) = c := by
  have hfloor : ⌊(c : ℚ) - 1 / 4⌋ = c - 1 := by
    rw [Int.floor_eq_iff]
    push_cast
    exact ⟨by linarith, by linarith⟩
  unfold roundHalfEven
  dsimp only
  rw [hfloor]
  push_cast
  rw [if_neg (by linarith), if_pos (by linarith)]
  omega

/-- The last bit of an integer number of bits that has more than 53. -/
theorem lastBit_mul {e m : Int} (k : Nat) (he : -1074 ≤ e + k) (hlow : 2 ^ (52 + k) ≤ m)
    (hhigh : m < 2 ^ (53 + k)) : lastBit (m * 2 ^ e) = e + k := by
  have hunit := zpow_two_pos e
  have hm : 0 < m := lt_of_lt_of_le (by positivity) hlow
  have hq : (0 : ℚ) < m * 2 ^ e := mul_pos (by exact_mod_cast hm) hunit
  have hscale : ∀ k : Nat, (2 : ℚ) ^ (((k : Nat) : Int) + e) = 2 ^ k * 2 ^ e := by
    intro k
    rw [zpow_add₀ (by norm_num), zpow_natCast]
  have h1 : ((52 + k : Nat) : Int) + e ≤ Int.log 2 ((m : ℚ) * 2 ^ e) := by
    rw [← Int.zpow_le_iff_le_log (by decide) hq, Nat.cast_ofNat, hscale]
    exact mul_le_mul_of_nonneg_right (by exact_mod_cast hlow) hunit.le
  have h2 : Int.log 2 ((m : ℚ) * 2 ^ e) < ((53 + k : Nat) : Int) + e := by
    rw [← Int.lt_zpow_iff_log_lt (by decide) hq, Nat.cast_ofNat, hscale]
    exact mul_lt_mul_of_pos_right (by exact_mod_cast hhigh) hunit
  unfold lastBit
  rw [abs_of_pos hq]
  omega

/-- Three quarters of the last bit below a multiple of four of it are not lost. -/
theorem rounded_below_multiple {e c : Int} (he : -1074 ≤ e) (hlow : 3 * 2 ^ 52 ≤ 4 * c)
    (hhigh : 4 * c < 3 * 2 ^ 53) : rounded (((4 * c - 1 : Int) : ℚ) * 2 ^ e) = 4 * c * 2 ^ e := by
  have hunit := zpow_two_pos e
  have hpos : (0 : ℚ) < ((4 * c - 1 : Int) : ℚ) * 2 ^ e :=
    mul_pos (by exact_mod_cast (by omega : (0 : Int) < 4 * c - 1)) hunit
  have hscale : ∀ k : Nat, (2 : ℚ) ^ (e + (k : Int)) = 2 ^ k * 2 ^ e := by
    intro k
    rw [zpow_add₀ (by norm_num), zpow_natCast, mul_comm]
  unfold rounded
  rw [abs_of_pos hpos]
  rcases Int.lt_or_le (4 * c - 1) (2 ^ 54) with hsmall | hlarge
  · -- the last bit is twice as large, and the number lies in the middle
    rw [lastBit_mul 1 (by omega) (by norm_num; omega) (by norm_num; omega), hscale]
    have hdiv : ((4 * c - 1 : Int) : ℚ) * 2 ^ e / (2 ^ 1 * 2 ^ e) = 2 * c - 1 / 2 := by
      push_cast
      field_simp
      ring
    rw [hdiv, roundHalfEven_even_sub_half]
    push_cast
    ring
  · rw [lastBit_mul 2 (by omega) (by norm_num; omega) (by norm_num; omega), hscale]
    have hdiv : ((4 * c - 1 : Int) : ℚ) * 2 ^ e / (2 ^ 2 * 2 ^ e) = c - 1 / 4 := by
      push_cast
      field_simp
      ring
    rw [hdiv, roundHalfEven_sub_quarter]
    ring

/-- In units of its last bit a number has 53 bits, unless it is very small. -/
theorem scaled_bounds (hq : 0 < q) (hlog : -1022 ≤ Int.log 2 q) :
    2 ^ 52 ≤ q / 2 ^ lastBit q ∧ q / 2 ^ lastBit q < 2 ^ 53 := by
  have hbit : Int.log 2 q = ((52 : Nat) : Int) + lastBit q := by
    rw [lastBit, abs_of_pos hq]
    omega
  have hunit := zpow_two_pos (lastBit q)
  have hlow := Int.zpow_log_le_self (b := 2) (by decide) hq
  have hhigh := Int.lt_zpow_succ_log_self (b := 2) (by decide) q
  rw [le_div_iff₀ hunit, div_lt_iff₀ hunit]
  rw [hbit] at hlow hhigh
  rw [zpow_add₀ (by norm_num), zpow_natCast] at hlow
  rw [show ((52 : Nat) : Int) + lastBit q + 1 = ((53 : Nat) : Int) + lastBit q by omega,
    zpow_add₀ (by norm_num), zpow_natCast] at hhigh
  exact ⟨hlow, hhigh⟩

/-- A third of an even number and its last bit: the number is a multiple of four of them. -/
theorem third_units {h : Nat} (hpos : 0 < h) (hmax : 2 * h ≤ 2 ^ 53) :
    ∃ e c : Int, lastBit (2 * h / 3 : ℚ) = e ∧ -1074 ≤ e ∧ (2 * h : ℚ) = 4 * c * 2 ^ e
      ∧ 3 * 2 ^ 52 ≤ 4 * c ∧ 4 * c < 3 * 2 ^ 53 := by
  have h1 : (1 : ℚ) ≤ h := by exact_mod_cast hpos
  have hx : (0 : ℚ) < 2 * h / 3 := by positivity
  have hlog1 : -1 ≤ Int.log 2 (2 * h / 3 : ℚ) := by
    rw [← Int.zpow_le_iff_le_log (by decide) hx]
    norm_num
    linarith
  have hlog2 : Int.log 2 (2 * h / 3 : ℚ) < 52 := by
    rw [← Int.lt_zpow_iff_log_lt (by decide) hx]
    have h2 : (2 * h : ℚ) ≤ 2 ^ 53 := by exact_mod_cast hmax
    norm_num at h2 ⊢
    linarith
  obtain ⟨hlow, hhigh⟩ := scaled_bounds hx (by omega)
  obtain ⟨e, he⟩ : ∃ e, lastBit (2 * h / 3 : ℚ) = e := ⟨_, rfl⟩
  have hbit : e = Int.log 2 (2 * h / 3 : ℚ) - 52 := by
    rw [← he, lastBit, abs_of_pos hx]
    omega
  obtain ⟨j, hj⟩ : ∃ j : Nat, e = -((j : Int) + 1) := ⟨(-e - 1).toNat, by omega⟩
  have hunit := zpow_two_pos e
  have hwhole : (2 * h : ℚ) = 4 * (h * 2 ^ j : Int) * 2 ^ e := by
    rw [hj, zpow_neg, zpow_add_one₀ (by norm_num), zpow_natCast]
    push_cast
    field_simp
    ring
  have hscaled : (2 * h / 3 : ℚ) / 2 ^ e = 4 * (h * 2 ^ j : Int) / 3 := by
    rw [hwhole]
    field_simp
  rw [he, hscaled] at hlow hhigh
  refine ⟨e, h * 2 ^ j, he, by omega, hwhole, ?_, ?_⟩
  · have hle : ((3 * 2 ^ 52 : Int) : ℚ) ≤ (4 * (h * 2 ^ j) : Int) := by
      push_cast at hlow ⊢
      linarith
    exact_mod_cast hle
  · have hlt : ((4 * (h * 2 ^ j) : Int) : ℚ) < (3 * 2 ^ 53 : Int) := by
      push_cast at hhigh ⊢
      linarith
    exact_mod_cast hlt

/-- Four thirds of an integer that are rounded down are a third short. -/
theorem roundHalfEven_thirds {c : Int} (h : (roundHalfEven (4 * c / 3) : ℚ) < 4 * c / 3) :
    3 * roundHalfEven (4 * c / 3) = 4 * c - 1 := by
  have hnear := (roundHalfEven_near (4 * c / 3)).2
  have h1 : ((3 * roundHalfEven (4 * c / 3) : Int) : ℚ) < (4 * c : Int) := by
    push_cast
    linarith
  have h2 : ((4 * c - 2 : Int) : ℚ) < (3 * roundHalfEven (4 * c / 3) : Int) := by
    push_cast
    linarith
  have h1' : 3 * roundHalfEven (4 * c / 3) < 4 * c := by exact_mod_cast h1
  have h2' : 4 * c - 2 < 3 * roundHalfEven (4 * c / 3) := by exact_mod_cast h2
  omega

/-- **Three times a third of an even number is not less than the number.** -/
theorem le_rounded_third {h : Nat} (hpos : 0 < h) (hmax : 2 * h ≤ 2 ^ 53) :
    (2 * h : ℚ) ≤ rounded (rounded (2 * h / 3) * 3) := by
  rcases le_or_gt (2 * h / 3 : ℚ) (rounded (2 * h / 3)) with hle | hlt
  · calc (2 * h : ℚ) = rounded (2 * h) := (rounded_two_mul hmax).symm
      _ ≤ rounded (rounded (2 * h / 3) * 3) := rounded_mono (by positivity) (by linarith)
  · -- the quotient was rounded down: in units of its last bit, a third of one is missing
    obtain ⟨e, c, he, hemin, hwhole, hlow, hhigh⟩ := third_units hpos hmax
    have hunit := zpow_two_pos e
    have hscaled : (2 * h / 3 : ℚ) / 2 ^ e = 4 * c / 3 := by
      rw [hwhole]
      field_simp
    have hround : rounded (2 * h / 3) = roundHalfEven (4 * c / 3) * 2 ^ e := by
      unfold rounded
      rw [he, abs_of_nonneg (by positivity), hscaled]
    rw [hround, ← lt_div_iff₀ hunit, hscaled] at hlt
    have hproduct : rounded (2 * h / 3) * 3 = ((4 * c - 1 : Int) : ℚ) * 2 ^ e := by
      rw [hround, ← roundHalfEven_thirds hlt]
      push_cast
      ring
    rw [hproduct, rounded_below_multiple hemin hlow hhigh, ← hwhole]

/-- **Three times a mean step is at least two steps**: the step of a grid of at least three
instants is divided by at most their number, and multiplied by three. -/
theorem le_rounded_step {n h : Nat} (hn : 3 ≤ n) (hpos : 0 < h) (hmax : (n - 1) * h ≤ 2 ^ 53)
    {a : ℚ} (ha : 0 < a) (han : a ≤ n) :
    (2 * h : ℚ) ≤ rounded (rounded (((n - 1) * h : Nat) / a) * 3) := by
  have h2 : 2 * h ≤ (n - 1) * h := Nat.mul_le_mul_right h (by omega)
  rcases hn.eq_or_lt with rfl | hlarge
  · have hquot : (2 * h / 3 : ℚ) ≤ ((3 - 1) * h : Nat) / a := by
      rw [le_div_iff₀ ha]
      push_cast at han ⊢
      have hprod : (2 * h / 3 : ℚ) * a ≤ 2 * h / 3 * 3 :=
        mul_le_mul_of_nonneg_left han (by positivity)
      linarith
    calc (2 * h : ℚ) ≤ rounded (rounded (2 * h / 3) * 3) := le_rounded_third hpos (by omega)
      _ ≤ _ := by
          refine rounded_mono (mul_nonneg (rounded_nonneg _) (by norm_num)) ?_
          exact mul_le_mul_of_nonneg_right (rounded_mono (by positivity) hquot) (by norm_num)
  · -- with four instants, three quarters of a step are enough, and they are exact
    have h3 : 3 * h ≤ (n - 1) * h := Nat.mul_le_mul_right h (by omega)
    have hquarters : rounded (3 * h / 4 : ℚ) = 3 * h / 4 := by
      have hkept := rounded_bits (m := 3 * h) (j := -2) (by omega) (by decide)
      push_cast at hkept
      norm_num at hkept
      rw [div_eq_mul_one_div]
      exact hkept
    have hquot : (3 * h / 4 : ℚ) ≤ ((n - 1) * h : Nat) / a := by
      rw [le_div_iff₀ ha, Nat.cast_mul, Nat.cast_sub (by omega)]
      have hn4 : (4 : ℚ) ≤ n := by exact_mod_cast hlarge
      have hh : (0 : ℚ) < h := by exact_mod_cast hpos
      calc (3 * h / 4 : ℚ) * a ≤ 3 * h / 4 * n := mul_le_mul_of_nonneg_left han (by positivity)
        _ ≤ (n - (1 : Nat)) * h := by
            push_cast
            nlinarith
    have hround := rounded_mono (by positivity) hquot
    rw [hquarters] at hround
    calc (2 * h : ℚ) = rounded (2 * h) := (rounded_two_mul (by omega)).symm
      _ ≤ rounded (rounded (((n - 1) * h : Nat) / a) * 3) :=
          rounded_mono (by positivity) (by linarith)

/-! ## Operations on numbers that are not negative -/

/-- Far below the largest number nothing overflows. -/
theorem round_eq (hq : 0 ≤ q) (hle : q ≤ 2 ^ 1000) : round q = fin (rounded q) := by
  apply round_of_nonneg hq
  calc rounded q ≤ rounded (2 ^ 1000) := rounded_mono hq hle
    _ = 2 ^ 1000 := rounded_two_pow
    _ < 2 ^ 1024 := pow_lt_pow_right₀ (by norm_num) (by norm_num)

theorem pow_two_le {i : Nat} (hi : i ≤ 1000) : (2 : ℚ) ^ i ≤ 2 ^ 1000 :=
  pow_le_pow_right₀ (by norm_num) hi

theorem round_natCast {n : Nat} (h : n ≤ 2 ^ 53) : round n = fin n := by
  have hle : (n : ℚ) ≤ 2 ^ 53 := by exact_mod_cast h
  rw [round_eq (Nat.cast_nonneg n) (hle.trans (pow_two_le (by norm_num))), rounded_natCast h]

/-- A mean of counts is not zero, and not above a bound on the counts. -/
theorem rounded_mean {m k n : Nat} (hm : 0 < m) (hk : 0 < k) (hm53 : m ≤ 2 ^ 53)
    (hk53 : k ≤ 2 ^ 53) (hle : m ≤ k * n) :
    (2 : ℚ) ^ (-53 : Int) ≤ rounded (m / k) ∧ rounded ((m : ℚ) / k) ≤ n := by
  have hkq : (0 : ℚ) < k := by exact_mod_cast hk
  constructor
  · have hleast : rounded ((2 : ℚ) ^ (-53 : Int)) = 2 ^ (-53 : Int) := by
      have hkept := rounded_bits (m := 1) (j := -53) (by decide) (by decide)
      rwa [Nat.cast_one, one_mul] at hkept
    have hlow : (2 : ℚ) ^ (-53 : Int) ≤ m / k := by
      have hm1 : (1 : ℚ) ≤ m := by exact_mod_cast hm
      have hquot : (k : ℚ) / 2 ^ (53 : Int) ≤ 1 :=
        (div_le_one (by positivity)).mpr (by exact_mod_cast hk53)
      rw [le_div_iff₀ hkq, zpow_neg, ← div_eq_inv_mul]
      linarith
    exact hleast.symm.le.trans (rounded_mono (by positivity) hlow)
  · -- the bound may have more than 53 bits, but the mean has not
    have hmean : (m : ℚ) / k ≤ (min n (2 ^ 53) : Nat) := by
      rw [Nat.cast_min, div_le_iff₀ hkq]
      rcases min_cases (n : ℚ) ((2 ^ 53 : Nat) : ℚ) with ⟨hmin, -⟩ | ⟨hmin, -⟩
      · rw [hmin, mul_comm]
        exact_mod_cast hle
      · have hk1 : (1 : ℚ) ≤ k := by exact_mod_cast hk
        have hm53' : (m : ℚ) ≤ 2 ^ 53 := by exact_mod_cast hm53
        rw [hmin]
        push_cast
        nlinarith
    calc rounded ((m : ℚ) / k) ≤ rounded ((min n (2 ^ 53) : Nat) : ℚ) :=
          rounded_mono (by positivity) hmean
      _ = (min n (2 ^ 53) : Nat) := rounded_natCast (Nat.min_le_right _ _)
      _ ≤ n := by exact_mod_cast Nat.min_le_left n (2 ^ 53)

theorem fin_div_fin (hq : 0 ≤ q) (hr : 0 < r) (hle : q / r ≤ 2 ^ 1000) :
    (fin q).div (fin r) = fin (rounded (q / r)) := by
  have hsign : ((fin q).isNeg != (fin r).isNeg) = false := by
    show (decide (q < 0) != decide (r < 0)) = false
    rw [decide_eq_false (not_lt.mpr hq), decide_eq_false (not_lt.mpr hr.le)]
    rfl
  have hdiv : (fin q).div (fin r) = if r = 0 then
      if q = 0 then nan true else inf ((fin q).isNeg != (fin r).isNeg)
      else if q = 0 then zero ((fin q).isNeg != (fin r).isNeg) else round (q / r) := rfl
  rw [hdiv, if_neg hr.ne', hsign]
  rcases hq.eq_or_lt with rfl | hpos
  · rw [if_pos rfl, zero_div, rounded_zero]
    rfl
  · rw [if_neg hpos.ne', round_eq (div_nonneg hq hr.le) hle]

theorem fin_mul_fin (hq : 0 ≤ q) (hr : 0 ≤ r) (hle : q * r ≤ 2 ^ 1000) :
    (fin q).mul (fin r) = fin (rounded (q * r)) := by
  have hsign : ((fin q).isNeg != (fin r).isNeg) = false := by
    show (decide (q < 0) != decide (r < 0)) = false
    rw [decide_eq_false (not_lt.mpr hq), decide_eq_false (not_lt.mpr hr)]
    rfl
  have hmul : (fin q).mul (fin r) = if q = 0 ∨ r = 0 then zero ((fin q).isNeg != (fin r).isNeg)
      else round (q * r) := rfl
  rw [hmul, hsign]
  by_cases hzero : q = 0 ∨ r = 0
  · rw [if_pos hzero, mul_eq_zero.mpr hzero, rounded_zero]
    rfl
  · rw [if_neg hzero, round_eq (mul_nonneg hq hr) hle]

end Double

end Lib
