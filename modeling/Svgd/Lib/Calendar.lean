import Mathlib.Tactic.IntervalCases

/-!
# The proleptic Gregorian calendar

Years from zero on, with the lengths of their months, and the number of seconds between a date
with a time and the start of 1970. Days and months are counted up one by one, so that the
definitions are the calendar and nothing else; `daysBeforeYear_floor`, `daysBeforeYear_eq` and
`daysBeforeMonth_eq` are the closed forms. There are no leap seconds.
-/

namespace Lib

/-- Every fourth year, but of the centuries only every fourth. -/
def isLeapYear (y : Nat) : Bool := decide (y % 4 = 0 ∧ (y % 100 ≠ 0 ∨ y % 400 = 0))

def yearLength (y : Nat) : Nat := if isLeapYear y then 366 else 365

/-- The length of a month; January is 1. -/
def monthLength (y m : Nat) : Nat :=
  if m = 2 then if isLeapYear y then 29 else 28
  else if m = 4 ∨ m = 6 ∨ m = 9 ∨ m = 11 then 30
  else 31

/-- The days of the years before a year. -/
def daysBeforeYear : Nat → Nat
  | 0 => 0
  | y + 1 => daysBeforeYear y + yearLength y

/-- The days of the months before a month. -/
def daysBeforeMonth (y : Nat) : Nat → Nat
  | 0 => 0
  | 1 => 0
  | m + 2 => daysBeforeMonth y (m + 1) + monthLength y (m + 1)

/-- A date and a time. -/
structure CivilTime where
  year : Nat
  month : Nat
  day : Nat
  hour : Nat
  minute : Nat
  second : Nat
  month_pos : 1 ≤ month
  month_le : month ≤ 12
  day_pos : 1 ≤ day
  day_le : day ≤ monthLength year month
  hour_lt : hour < 24
  minute_lt : minute < 60
  second_lt : second < 60

namespace CivilTime

/-- The days since the start of the year. -/
def dayOfYear (t : CivilTime) : Nat := daysBeforeMonth t.year t.month + (t.day - 1)

/-- The seconds since midnight. -/
def secondOfDay (t : CivilTime) : Nat := t.hour * 3600 + t.minute * 60 + t.second

/-- The days since the start of 1970. -/
def days (t : CivilTime) : Int := daysBeforeYear t.year + t.dayOfYear - daysBeforeYear 1970

/-- The seconds since the start of 1970. -/
def seconds (t : CivilTime) : Int := t.days * 86400 + t.secondOfDay

/-- From the year down to the second. -/
def fields (t : CivilTime) : List Nat := [t.year, t.month, t.day, t.hour, t.minute, t.second]

end CivilTime

/-! ## Closed forms -/

theorem isLeapYear_iff {y : Nat} : isLeapYear y = true ↔ y % 4 = 0 ∧ (y % 100 ≠ 0 ∨ y % 400 = 0) := by
  unfold isLeapYear
  rw [decide_eq_true_eq]

/-- Every fourth year, without the centuries and with every fourth of them. -/
theorem leapDay_eq (y : Nat) :
    (if isLeapYear y then 1 else 0) + (if y % 100 = 0 then 1 else 0)
      = (if y % 4 = 0 then 1 else 0) + (if y % 400 = 0 then 1 else 0) := by
  by_cases h100 : y % 100 = 0
  · have h4 : y % 4 = 0 := by omega
    by_cases h400 : y % 400 = 0 <;> simp [isLeapYear_iff, h4, h100, h400]
  · have h400 : y % 400 ≠ 0 := by omega
    by_cases h4 : y % 4 = 0 <;> simp [isLeapYear_iff, h4, h100, h400]

/-- The leap years up to a year, with year 0 among them. -/
theorem daysBeforeYear_floor (y : Nat) :
    daysBeforeYear y + (if isLeapYear y then 1 else 0) + y / 100
      = 365 * y + 1 + y / 4 + y / 400 := by
  induction y with
  | zero => rfl
  | succ y ih =>
      have hleap := leapDay_eq (y + 1)
      have hyear : yearLength y = 365 + if isLeapYear y then 1 else 0 := by
        unfold yearLength
        split_ifs <;> rfl
      rw [daysBeforeYear, hyear, Nat.succ_div, Nat.succ_div, Nat.succ_div]
      simp only [Nat.dvd_iff_mod_eq_zero]
      omega

/-- The leap years before a year, with year 0 among them. -/
theorem daysBeforeYear_eq (y : Nat) :
    daysBeforeYear y + (y + 99) / 100 = 365 * y + (y + 3) / 4 + (y + 399) / 400 := by
  have hfloor := daysBeforeYear_floor y
  have hleap := leapDay_eq y
  have h4 : (y + 3) / 4 + (if y % 4 = 0 then 1 else 0) = y / 4 + 1 := by split_ifs <;> omega
  have h100 : (y + 99) / 100 + (if y % 100 = 0 then 1 else 0) = y / 100 + 1 := by
    split_ifs <;> omega
  have h400 : (y + 399) / 400 + (if y % 400 = 0 then 1 else 0) = y / 400 + 1 := by
    split_ifs <;> omega
  omega

/-- The months of a year in which February has 28 days. -/
def commonYear : List Nat := [0, 0, 31, 59, 90, 120, 151, 181, 212, 243, 273, 304, 334, 365]

theorem daysBeforeMonth_eq (y : Nat) {m : Nat} (hm : m ≤ 13) :
    daysBeforeMonth y m = commonYear.getD m 0 + if isLeapYear y ∧ 2 < m then 1 else 0 := by
  cases hleap : isLeapYear y <;> interval_cases m <;>
    simp [daysBeforeMonth, monthLength, commonYear, hleap]

/-- The months make up the year. -/
theorem daysBeforeMonth_end (y : Nat) : daysBeforeMonth y 13 = yearLength y := by
  rw [daysBeforeMonth_eq y (Nat.le_refl 13)]
  unfold yearLength
  cases isLeapYear y <;> rfl

/-! ## Order -/

theorem daysBeforeYear_le {y z : Nat} (h : y < z) :
    daysBeforeYear y + yearLength y ≤ daysBeforeYear z := by
  induction z with
  | zero => omega
  | succ z ih =>
      rw [daysBeforeYear]
      rcases Nat.lt_succ_iff_lt_or_eq.mp h with hlt | rfl
      · have := ih hlt
        omega
      · exact Nat.le_refl _

theorem daysBeforeMonth_le {y m n : Nat} (hm : 1 ≤ m) (h : m < n) :
    daysBeforeMonth y m + monthLength y m ≤ daysBeforeMonth y n := by
  induction n with
  | zero => omega
  | succ n ih =>
      obtain ⟨k, rfl⟩ : ∃ k, n = k + 1 := ⟨n - 1, by omega⟩
      rw [daysBeforeMonth]
      rcases Nat.lt_succ_iff_lt_or_eq.mp h with hlt | rfl
      · have := ih hlt
        omega
      · exact Nat.le_refl _

namespace CivilTime

theorem dayOfYear_lt (t : CivilTime) : t.dayOfYear < yearLength t.year := by
  have hmonth := daysBeforeMonth_le (y := t.year) t.month_pos
    (show t.month < 13 from Nat.lt_succ_of_le t.month_le)
  rw [daysBeforeMonth_end] at hmonth
  have := t.day_pos
  have := t.day_le
  unfold dayOfYear
  omega

theorem secondOfDay_lt (t : CivilTime) : t.secondOfDay < 86400 := by
  have := t.hour_lt
  have := t.minute_lt
  have := t.second_lt
  unfold secondOfDay
  omega

variable {t u : CivilTime}

/-- A later date has a greater number. -/
theorem days_lt (h : [t.year, t.month, t.day] < [u.year, u.month, u.day]) : t.days < u.days := by
  have hlt := t.dayOfYear_lt
  have ht := t.day_pos
  have hu := u.day_pos
  simp only [List.cons_lt_cons_iff, List.not_lt_nil, and_false, or_false] at h
  unfold days
  rcases h with hyear | ⟨hyear, hmonth | ⟨hmonth, hday⟩⟩
  · have := daysBeforeYear_le hyear
    omega
  · have hle := daysBeforeMonth_le (y := t.year) t.month_pos hmonth
    have := t.day_le
    unfold dayOfYear
    rw [hyear] at hle this ⊢
    omega
  · unfold dayOfYear
    rw [hyear, hmonth]
    omega

theorem seconds_lt (h : t.fields < u.fields) : t.seconds < u.seconds := by
  have hlt := t.secondOfDay_lt
  have hmt := t.minute_lt
  have hst := t.second_lt
  unfold fields at h
  unfold seconds
  by_cases hdate : [t.year, t.month, t.day] < [u.year, u.month, u.day]
  · have := days_lt hdate
    omega
  · have hsame : t.year = u.year ∧ t.month = u.month ∧ t.day = u.day
        ∧ [t.hour, t.minute, t.second] < [u.hour, u.minute, u.second] := by
      simp only [List.cons_lt_cons_iff, List.not_lt_nil, and_false, or_false] at h hdate ⊢
      omega
    obtain ⟨hyear, hmonth, hday, htime⟩ := hsame
    have hdays : t.days = u.days := by
      unfold days dayOfYear
      rw [hyear, hmonth, hday]
    simp only [List.cons_lt_cons_iff, List.not_lt_nil, and_false, or_false] at htime
    unfold secondOfDay
    rw [hdays]
    omega

/-- **The number of seconds follows the calendar.** -/
theorem fields_lt_iff : t.fields < u.fields ↔ t.seconds < u.seconds := by
  refine ⟨seconds_lt, fun h => ?_⟩
  by_contra hnot
  have hcases : u.fields < t.fields ∨ u.fields = t.fields := by
    unfold fields at hnot ⊢
    simp only [List.cons_lt_cons_iff, List.not_lt_nil, and_false, or_false, List.cons.injEq,
      and_true] at hnot ⊢
    omega
  rcases hcases with hlt | heq
  · have := seconds_lt hlt
    omega
  · simp only [fields, List.cons.injEq, and_true] at heq
    obtain ⟨hyear, hmonth, hday, hhour, hminute, hsecond⟩ := heq
    unfold seconds days dayOfYear secondOfDay at h
    rw [hyear, hmonth, hday, hhour, hminute, hsecond] at h
    exact absurd h (Int.lt_irrefl _)

end CivilTime

end Lib
