import Svgd.Lib.Calendar
import Svgd.Proof.GrafanaStack

/-!
# Timestamps of Grafana

`parse_iso8601` counts days from the first of March, in eras of 400 years; the calendar counts
them from the start of 1970. The two agree from the year 0 on (`civilDays_eq`), for every month
and across the leap rules, so a timestamp becomes the number of its seconds. Its fraction is
not read.
-/

namespace Svgd.Backend

open Lib Stacked

/-! ## The text of a timestamp -/

/-- A UTC timestamp with a year of four digits; the fraction is the digits behind the point, if
there is one. -/
structure IsoTime extends CivilTime where
  frac : Bytes
  year_le : year ≤ 9999
  frac_digits : ∀ b ∈ frac, isDigit b = true

namespace IsoTime

/-- What is behind the seconds. -/
def ending (t : IsoTime) : Bytes := (if t.frac = [] then [] else ch '.' :: t.frac) ++ [ch 'Z']

/-- `YYYY-MM-DDThh:mm:ss`, the fraction and `Z`. -/
def text (t : IsoTime) : Bytes :=
  padDigits 4 t.year ++ ch '-' :: (padDigits 2 t.month ++ ch '-' :: (padDigits 2 t.day
    ++ ch 'T' :: (padDigits 2 t.hour ++ ch ':' :: (padDigits 2 t.minute
    ++ ch ':' :: (padDigits 2 t.second ++ t.ending)))))

/-- The part of a second that the digits behind the point stand for. -/
def fraction (t : IsoTime) : ℚ := natValue t.frac / 10 ^ t.frac.length

/-- The seconds since the start of 1970. -/
def instant (t : IsoTime) : ℚ := t.seconds + t.fraction

theorem head_ending (t : IsoTime) : ∀ b ∈ t.ending.head?, isDigit b = false := by
  unfold ending
  by_cases h : t.frac = []
  · rw [if_pos h]
    intro b hb
    obtain rfl : ch 'Z' = b := by simpa using hb
    decide
  · rw [if_neg h]
    intro b hb
    obtain rfl : ch '.' = b := by simpa using hb
    decide

end IsoTime

/-- A field of fixed width in front of something else. -/
theorem scanInt_padDigits {w n : Nat} {s : Bytes} (hw : 0 < w) (hn : n < 10 ^ w) (hmax : n < 2 ^ 31)
    (hs : ∀ b ∈ s.head?, isDigit b = false) : scanInt (padDigits w n ++ s) = some ((n : Int), s) := by
  have hvalue : natValue (padDigits w n) = n := by rw [natValue_padDigits, Nat.mod_eq_of_lt hn]
  have hne : padDigits w n ≠ [] := List.ne_nil_of_length_pos (by rw [length_padDigits]; exact hw)
  rw [scanInt_digits hne (fun _ => isDigit_of_mem_padDigits) hs (by rw [hvalue]; exact hmax), hvalue]

/-- A field and the separator behind it. -/
theorem scanFields_padDigits {w n : Nat} (c : UInt8) (cs : List UInt8) (s : Bytes) (hw : 0 < w)
    (hn : n < 10 ^ w) (hmax : n < 2 ^ 31) (hc : isDigit c = false) :
    scanFields (c :: cs) (padDigits w n ++ c :: s) = (n : Int) :: scanFields cs s := by
  have hhead : ∀ b ∈ (c :: s).head?, isDigit b = false := by
    intro b hb
    obtain rfl : c = b := by simpa using hb
    exact hc
  rw [scanFields, scanInt_padDigits hw hn hmax hhead]
  simp

theorem IsoTime.scanFields_text (t : IsoTime) :
    scanFields [ch '-', ch '-', ch 'T', ch ':', ch ':'] t.text
      = [(t.year : Int), (t.month : Int), (t.day : Int), (t.hour : Int), (t.minute : Int),
        (t.second : Int)] := by
  have hyear := t.year_le
  have hmonth := t.month_le
  have hday : t.day ≤ 31 := Nat.le_trans t.day_le (by unfold monthLength; split_ifs <;> decide)
  have hhour := t.hour_lt
  have hminute := t.minute_lt
  have hsecond := t.second_lt
  unfold IsoTime.text
  rw [scanFields_padDigits _ _ _ (by decide) (by omega) (by omega) (by decide),
    scanFields_padDigits _ _ _ (by decide) (by omega) (by omega) (by decide),
    scanFields_padDigits _ _ _ (by decide) (by omega) (by omega) (by decide),
    scanFields_padDigits _ _ _ (by decide) (by omega) (by omega) (by decide),
    scanFields_padDigits _ _ _ (by decide) (by omega) (by omega) (by decide), scanFields,
    scanInt_padDigits (by decide) (by omega) (by omega) t.head_ending]
  rfl

/-! ## The days of a date -/

theorem daysBeforeEpoch : daysBeforeYear 1970 = 719528 := by
  have := daysBeforeYear_eq 1970
  omega

/-- From March on, the months are those of a formula. -/
theorem daysBeforeMonth_march (y : Nat) {m : Nat} (hpos : 1 ≤ m) (hle : m ≤ 12) :
    (daysBeforeMonth y m : Int)
      = if 2 < m then (153 * ((m : Int) - 3) + 2) / 5 + 59 + (if isLeapYear y then 1 else 0 : Nat)
        else (153 * ((m : Int) + 9) + 2) / 5 - 306 := by
  rw [daysBeforeMonth_eq y (by omega)]
  cases isLeapYear y <;> interval_cases m <;> rfl

/-- The days before a date, with March as the first month and the year of January and February one
less. -/
theorem civilDays_eq {y m d : Nat} (hpos : 1 ≤ m) (hle : m ≤ 12) (hd : 1 ≤ d) :
    ∀ y' mp : Int, y' = (if (m : Int) ≤ 2 then (y : Int) - 1 else y) →
      mp = (if 2 < (m : Int) then (m : Int) - 3 else (m : Int) + 9) →
      365 * y' + y' / 4 - y' / 100 + y' / 400 + ((153 * mp + 2) / 5 + d - 1) - 719468
        = daysBeforeYear y + (daysBeforeMonth y m + (d - 1) : Nat) - daysBeforeYear 1970 := by
  intro y' mp hy hmp
  have hmonth := daysBeforeMonth_march y hpos hle
  rw [daysBeforeEpoch]
  by_cases hm : 2 < m
  · have hfloor := daysBeforeYear_floor y
    rw [if_neg (by omega)] at hy
    rw [if_pos (by omega)] at hmp
    rw [if_pos hm] at hmonth
    rw [hy, hmp]
    omega
  · have hyear := daysBeforeYear_eq y
    rw [if_pos (by omega)] at hy
    rw [if_neg (by omega)] at hmp
    rw [if_neg hm] at hmonth
    subst hy hmp
    omega

theorem era_eq (y : Int) : (if 0 ≤ y then y else y - 399).tdiv 400 = y / 400 := by
  by_cases h : 0 ≤ y
  · rw [if_pos h, Int.tdiv_eq_ediv_of_nonneg h]
  · have hsign : Int.sign 400 = 1 := rfl
    rw [if_neg h, Int.tdiv_eq_ediv, hsign]
    omega

theorem toUInt32_of_range {z : Int} (h0 : 0 ≤ z) (h : z < 2 ^ 32) : toUInt32 z = z :=
  Int.emod_eq_of_lt h0 h

/-- What is computed from six numbers. -/
theorem parse_fields (t : CivilTime) {s : Bytes} {rest : List Int}
    (h : scanFields [ch '-', ch '-', ch 'T', ch ':', ch ':'] s
      = (t.year : Int) :: (t.month : Int) :: (t.day : Int) :: (t.hour : Int) :: (t.minute : Int)
        :: (t.second : Int) :: rest) : parseIso8601 s = t.seconds := by
  have hpos := t.month_pos
  have hle := t.month_le
  have hday := t.day_pos
  have hday' : t.day ≤ 31 := Nat.le_trans t.day_le (by unfold monthLength; split_ifs <;> decide)
  unfold parseIso8601
  rw [h]
  dsimp only
  rw [era_eq]
  obtain ⟨y, hy⟩ : ∃ y : Int, y = if (t.month : Int) ≤ 2 then (t.year : Int) - 1 else t.year :=
    ⟨_, rfl⟩
  obtain ⟨mp, hmp⟩ : ∃ mp : Int,
      mp = if 2 < (t.month : Int) then (t.month : Int) - 3 else (t.month : Int) + 9 := ⟨_, rfl⟩
  have hdays := civilDays_eq hpos hle hday y mp hy hmp
  have hmp0 : 0 ≤ mp ∧ mp < 12 := by
    by_cases h2 : 2 < t.month
    · rw [if_pos (by omega)] at hmp
      omega
    · rw [if_neg (by omega)] at hmp
      omega
  have hunsigned : (if 2 < (t.month : Int) then toUInt32 ((t.month : Int) - 3)
      else toUInt32 ((t.month : Int) + 9)) = mp := by
    rw [hmp]
    by_cases h2 : 2 < (t.month : Int)
    · rw [if_pos h2, if_pos h2, toUInt32_of_range (by omega) (by omega)]
    · rw [if_neg h2, if_neg h2, toUInt32_of_range (by omega) (by omega)]
  rw [← hy, hunsigned]
  have hyoe : toUInt32 (y - y / 400 * 400) = y % 400 := by
    rw [toUInt32_of_range (by omega) (by omega)]
    omega
  have hmonths : toUInt32 (153 * mp + 2) = 153 * mp + 2 := toUInt32_of_range (by omega) (by omega)
  have hdoy : toUInt32 ((153 * mp + 2) / 5 + t.day - 1) = (153 * mp + 2) / 5 + t.day - 1 :=
    toUInt32_of_range (by omega) (by omega)
  have hdoe : toUInt32 (y % 400 * 365 + y % 400 / 4 - y % 400 / 100 + ((153 * mp + 2) / 5 + t.day - 1))
      = y % 400 * 365 + y % 400 / 4 - y % 400 / 100 + ((153 * mp + 2) / 5 + t.day - 1) :=
    toUInt32_of_range (by omega) (by omega)
  have hera : y / 400 * 146097 + (y % 400 * 365 + y % 400 / 4 - y % 400 / 100)
      = 365 * y + y / 4 - y / 100 + y / 400 := by omega
  rw [hyoe, hmonths, hdoy, hdoe]
  unfold CivilTime.seconds CivilTime.days CivilTime.dayOfYear CivilTime.secondOfDay
  simp only [List.headD_cons]
  push_cast at hdays ⊢
  omega

/-- **A timestamp becomes the number of its seconds.** -/
theorem parseIso8601_text (t : IsoTime) : parseIso8601 t.text = t.seconds :=
  parse_fields t.toCivilTime t.scanFields_text

/-! ## Fractions -/

namespace IsoTime

theorem fraction_bounds (t : IsoTime) : 0 ≤ t.fraction ∧ t.fraction < 1 := by
  have hlt := natValue_lt t.frac_digits
  have hpos : (0 : ℚ) < 10 ^ t.frac.length := by positivity
  unfold fraction
  refine ⟨by positivity, (div_lt_one hpos).mpr ?_⟩
  exact_mod_cast hlt

variable (t u : IsoTime)

/-- The seconds are the instant rounded down. -/
theorem floor_instant : ⌊t.instant⌋ = t.seconds := by
  obtain ⟨h0, h1⟩ := t.fraction_bounds
  rw [Int.floor_eq_iff]
  unfold instant
  exact ⟨by linarith, by linarith⟩

end IsoTime

/-- **The whole seconds of a timestamp**: they are exact, follow the calendar and the instants,
and the width of a range is exact up to the difference of the fractions. -/
theorem iso_whole_seconds (t u : IsoTime) :
    parseIso8601 t.text = t.seconds ∧ parseIso8601 t.text = ⌊t.instant⌋
      ∧ (t.fields < u.fields ↔ parseIso8601 t.text < parseIso8601 u.text)
      ∧ (t.instant ≤ u.instant → parseIso8601 t.text ≤ parseIso8601 u.text)
      ∧ |((parseIso8601 u.text - parseIso8601 t.text : Int) : ℚ) - (u.instant - t.instant)| < 1
      ∧ (((parseIso8601 u.text - parseIso8601 t.text : Int) : ℚ) = u.instant - t.instant
        ↔ t.fraction = u.fraction) := by
  obtain ⟨ht0, ht1⟩ := t.fraction_bounds
  obtain ⟨hu0, hu1⟩ := u.fraction_bounds
  rw [parseIso8601_text t, parseIso8601_text u]
  refine ⟨rfl, t.floor_instant.symm, CivilTime.fields_lt_iff, ?_, ?_, ?_⟩
  · intro h
    rw [← t.floor_instant, ← u.floor_instant]
    exact Int.floor_le_floor h
  · unfold IsoTime.instant
    rw [abs_lt]
    push_cast
    exact ⟨by linarith, by linarith⟩
  · unfold IsoTime.instant
    push_cast
    exact ⟨fun h => by linarith, fun h => by linarith⟩

/-- The start of 1970, and a fraction behind it. -/
def epochTime (frac : Bytes) (h : ∀ b ∈ frac, isDigit b = true) : IsoTime where
  year := 1970
  month := 1
  day := 1
  hour := 0
  minute := 0
  second := 0
  month_pos := by decide
  month_le := by decide
  day_pos := by decide
  day_le := by decide
  hour_lt := by decide
  minute_lt := by decide
  second_lt := by decide
  frac := frac
  year_le := by decide
  frac_digits := h

theorem isDigit_five : ∀ b ∈ str "5", isDigit b = true := List.all_eq_true.mp (by decide)

theorem seconds_epochTime {frac : Bytes} (h : ∀ b ∈ frac, isDigit b = true) :
    (epochTime frac h).seconds = 0 := by
  have hyear : (epochTime frac h).year = 1970 := rfl
  have hday : (epochTime frac h).dayOfYear = 0 := by
    show daysBeforeMonth 1970 1 + (1 - 1) = 0
    rw [daysBeforeMonth]
  have htime : (epochTime frac h).secondOfDay = 0 := by simp [CivilTime.secondOfDay, epochTime]
  unfold CivilTime.seconds CivilTime.days
  rw [hyear, hday, htime]
  omega

/-- Half a second is dropped: two instants get one number. -/
theorem iso_half_second_dropped : ∃ t u : IsoTime,
    t.text = str "1970-01-01T00:00:00Z" ∧ u.text = str "1970-01-01T00:00:00.5Z"
      ∧ t.instant < u.instant ∧ parseIso8601 t.text = parseIso8601 u.text
      ∧ (parseIso8601 u.text : ℚ) ≠ u.instant := by
  have ht : (epochTime [] (List.forall_mem_nil _)).instant = 0 := by
    unfold IsoTime.instant
    rw [seconds_epochTime]
    show ((0 : Int) : ℚ) + ((0 : Nat) : ℚ) / 10 ^ 0 = 0
    norm_num
  have hu : (epochTime (str "5") isDigit_five).instant = 1 / 2 := by
    unfold IsoTime.instant
    rw [seconds_epochTime]
    show ((0 : Int) : ℚ) + ((5 : Nat) : ℚ) / 10 ^ 1 = 1 / 2
    norm_num
  refine ⟨epochTime [] (List.forall_mem_nil _), epochTime (str "5") isDigit_five, by decide,
    by decide, ?_, ?_, ?_⟩
  · rw [ht, hu]
    norm_num
  · rw [parseIso8601_text, parseIso8601_text, seconds_epochTime, seconds_epochTime]
  · rw [parseIso8601_text, seconds_epochTime, hu]
    norm_num

/-! ## The period of a query -/

/-- The period a source is asked for: positive, the width of the range, and an hour if the range
has none. -/
structure PeriodRight (period : Int) (start stop : IsoTime) : Prop where
  positive : 0 < period
  width : start.instant < stop.instant → (period : ℚ) = stop.instant - start.instant
  default : ¬start.instant < stop.instant → period = 3600

/-- The width of the range, if it has one, is a whole number of seconds that an `int` holds. -/
def WidthFits (start stop : IsoTime) : Prop :=
  start.instant < stop.instant → ∃ n : Int, stop.instant - start.instant = n ∧ n < 2 ^ 31

theorem toInt32_of_range {z : Int} (h0 : -2 ^ 31 ≤ z) (h : z < 2 ^ 31) : toInt32 z = z := by
  unfold toInt32
  omega

/-- A whole number is the width of the range only if it is the difference of the seconds. -/
theorem width_eq_iff (start stop : IsoTime) (n : Int) :
    stop.instant - start.instant = n
      ↔ n = stop.seconds - start.seconds ∧ start.fraction = stop.fraction := by
  obtain ⟨hs0, hs1⟩ := start.fraction_bounds
  obtain ⟨ht0, ht1⟩ := stop.fraction_bounds
  unfold IsoTime.instant
  constructor
  · intro h
    have hlow : (-1 : ℚ) < ((n - (stop.seconds - start.seconds) : Int) : ℚ) := by
      push_cast
      linarith
    have hhigh : ((n - (stop.seconds - start.seconds) : Int) : ℚ) < 1 := by
      push_cast
      linarith
    have hn : n = stop.seconds - start.seconds := by
      have h1 : (-1 : Int) < n - (stop.seconds - start.seconds) := by exact_mod_cast hlow
      have h2 : n - (stop.seconds - start.seconds) < 1 := by exact_mod_cast hhigh
      omega
    refine ⟨hn, ?_⟩
    rw [hn] at h
    push_cast at h
    linarith
  · rintro ⟨hn, hfraction⟩
    rw [hn]
    push_cast
    linarith

/-- The period behind the conversion to an `int`. -/
theorem periodRight_iff (start stop : IsoTime) :
    PeriodRight (toInt32 (queryPeriod (start.seconds, stop.seconds))) start stop
      ↔ WidthFits start stop := by
  obtain ⟨hs0, hs1⟩ := start.fraction_bounds
  obtain ⟨ht0, ht1⟩ := stop.fraction_bounds
  have hmax : ∀ z, toInt32 z < 2 ^ 31 := fun z => by
    unfold toInt32
    omega
  by_cases hlt : start.seconds < stop.seconds
  · have hperiod : queryPeriod (start.seconds, stop.seconds) = stop.seconds - start.seconds := by
      unfold queryPeriod
      dsimp only
      rw [if_pos hlt, if_neg (by omega)]
    have hinstant : start.instant < stop.instant := by
      have hcast : (start.seconds : ℚ) + 1 ≤ stop.seconds := by exact_mod_cast hlt
      unfold IsoTime.instant
      linarith
    rw [hperiod]
    constructor
    · intro h _
      exact ⟨toInt32 (stop.seconds - start.seconds), (h.width hinstant).symm, hmax _⟩
    · intro h
      obtain ⟨n, hn, hfits⟩ := h hinstant
      have hdiff := ((width_eq_iff start stop n).mp hn).1
      have hpassed : toInt32 (stop.seconds - start.seconds) = n := by
        rw [← hdiff, toInt32_of_range (by omega) hfits]
      rw [hpassed]
      exact ⟨by omega, fun _ => hn.symm, fun hnot => absurd hinstant hnot⟩
  · have hperiod : queryPeriod (start.seconds, stop.seconds) = 3600 := by
      unfold queryPeriod
      dsimp only
      rw [if_neg hlt, if_neg (by omega)]
    have hpassed : toInt32 3600 = 3600 := by decide
    rw [hperiod, hpassed]
    by_cases hinstant : start.instant < stop.instant
    · -- less than a second, which is no whole number
      have hno : ∀ n : Int, stop.instant - start.instant ≠ n := by
        intro n hn
        obtain ⟨-, hfraction⟩ := (width_eq_iff start stop n).mp hn
        have hcast : (stop.seconds : ℚ) ≤ start.seconds := by exact_mod_cast Int.not_lt.mp hlt
        unfold IsoTime.instant at hinstant
        linarith
      constructor
      · exact fun h => absurd (h.width hinstant).symm (hno 3600)
      · intro h
        obtain ⟨n, hn, -⟩ := h hinstant
        exact absurd hn (hno n)
    · exact ⟨fun _ h => absurd h hinstant, fun _ => ⟨by decide, fun h => absurd h hinstant, fun _ => rfl⟩⟩

variable {env : GrafanaEnv} {query : Option Bytes} {body : Bytes}
  {members range : List (Bytes × Json)} {start stop : IsoTime} {targets : List Bytes} {period : Int}
  {st st' : List DukVal}

theorem IsoTime.no_nul (t : IsoTime) : (0 : UInt8) ∉ t.text := by
  have hdigit : ∀ {b : UInt8}, isDigit b = true → b ≠ 0 := by
    rintro b hb rfl
    exact absurd hb (by decide)
  have hpad : ∀ w n, (0 : UInt8) ∉ padDigits w n := fun w n h => hdigit (isDigit_of_mem_padDigits h) rfl
  have hfrac : (0 : UInt8) ∉ t.frac := fun h => hdigit (t.frac_digits 0 h) rfl
  have hending : (0 : UInt8) ∉ t.ending := by
    unfold IsoTime.ending
    split <;> simp [hfrac] <;> decide
  unfold IsoTime.text
  simp only [List.mem_append, List.mem_cons, hpad, hending, or_false, false_or, not_or]
  decide

/-- A member that is a timestamp. -/
theorem rangeTime_text {key : Bytes} (h : Json.member range key = some (.str start.text)) :
    rangeTime key (.json (.obj range) :: st) = some (start.seconds, .json (.obj range) :: st) := by
  have hget : Duk.getPropString key (.json (.obj range) :: st)
      = some (true, .json (.str start.text) :: .json (.obj range) :: st) := by
    show Duk.pushProp (Json.member range key) (.json (.obj range) :: st) = _
    rw [h]
    rfl
  have hstring : Duk.getString (.json (.str start.text) :: .json (.obj range) :: st)
      = some (some start.text, .json (.str start.text) :: .json (.obj range) :: st) := by
    show some (some (cstr start.text), _) = _
    rw [cstr_eq_self start.no_nul]
  unfold rangeTime
  rw [bind_run hget, bind_run hstring, bind_run (pop_run _ _), pure_run, Option.map_some,
    Option.getD_some, parseIso8601_text]

/-- The range of a query. -/
theorem readRange_text (hrange : Json.member members (str "range") = some (.obj range))
    (hfrom : Json.member range (str "from") = some (.str start.text))
    (hto : Json.member range (str "to") = some (.str stop.text)) :
    readRange (.json (.obj members) :: st)
      = some ((start.seconds, stop.seconds), .json (.obj members) :: st) := by
  have hget : Duk.getPropString (str "range") (.json (.obj members) :: st)
      = some (true, .json (.obj range) :: .json (.obj members) :: st) := by
    show Duk.pushProp (Json.member members (str "range")) (.json (.obj members) :: st) = _
    rw [hrange]
    rfl
  have hobject : Duk.isObject (.json (.obj range) :: .json (.obj members) :: st)
      = some (true, .json (.obj range) :: .json (.obj members) :: st) := rfl
  have htimes : rangeTimes (.json (.obj range) :: .json (.obj members) :: st)
      = some ((start.seconds, stop.seconds), .json (.obj range) :: .json (.obj members) :: st) := by
    unfold rangeTimes
    rw [bind_run hobject, if_pos rfl, bind_run (rangeTime_text hfrom),
      bind_run (rangeTime_text hto), pure_run]
  unfold readRange
  rw [bind_run hget, bind_run htimes, bind_run (pop_run _ _), pure_run]

theorem readDecoded_period {j : Json} {times : Int × Int} {q : List Bytes × Int}
    (htimes : readRange (.json j :: st) = some (times, .json j :: st))
    (h : readDecoded (.json j :: st) = some (q, st')) : q.2 = queryPeriod times := by
  unfold readDecoded at h
  rw [bind_run htimes] at h
  obtain ⟨_, _, -, h⟩ := bind_some h
  obtain ⟨_, _, -, h⟩ := bind_some h
  obtain ⟨rfl, -⟩ := Prod.mk.inj (Option.some.inj h)
  rfl

/-- The period that is read with a range. -/
theorem readQuery_period {j : Json} {times : Int × Int} (hbody : queryBody env query = some body)
    (hdecode : env.jsonDecode body = some j)
    (htimes : ∀ st, readRange (.json j :: st) = some (times, .json j :: st))
    (hread : readQuery env query st = some (.ok (targets, period), st')) :
    period = queryPeriod times := by
  rw [readQuery_decoded hbody hdecode] at hread
  obtain ⟨q, st1, hdecoded, hpure⟩ := bind_some hread
  have hperiod := readDecoded_period (htimes st) hdecoded
  obtain ⟨hr, -⟩ := Prod.mk.inj (Option.some.inj hpure)
  rw [Except.ok.inj hr] at hperiod
  exact hperiod

/-- **The period is right exactly if the width of the range fits an `int`.** -/
theorem grafana_period_iff (hbody : queryBody env query = some body)
    (hdecode : env.jsonDecode body = some (.obj members))
    (hrange : Json.member members (str "range") = some (.obj range))
    (hfrom : Json.member range (str "from") = some (.str start.text))
    (hto : Json.member range (str "to") = some (.str stop.text))
    (hread : readQuery env query st = some (.ok (targets, period), st')) :
    (∀ i target, targetData env period i target
        = (findMetricConfig env.config target).bind fun m => env.fetch i m
          (if m.requiresParam then extractParamFromPath target m.endpoint else none) (toInt32 period))
      ∧ (PeriodRight (toInt32 period) start stop ↔ WidthFits start stop) := by
  have hperiod := readQuery_period hbody hdecode (fun st => readRange_text hrange hfrom hto) hread
  refine ⟨fun i target => ?_, ?_⟩
  · unfold targetData
    cases findMetricConfig env.config target <;> rfl
  · rw [hperiod]
    exact periodRight_iff start stop

/-! ## Two ranges -/

/-- The first second of a year. -/
def newYear (y : Nat) (h : y ≤ 9999) : IsoTime where
  year := y
  month := 1
  day := 1
  hour := 0
  minute := 0
  second := 0
  month_pos := by decide
  month_le := by decide
  day_pos := by decide
  day_le := by simp [monthLength]
  hour_lt := by decide
  minute_lt := by decide
  second_lt := by decide
  frac := []
  year_le := h
  frac_digits := by simp

/-- A query for the years between two. -/
def yearsBody (a b : Nat) : Bytes :=
  str "\x7b\"range\":\x7b\"from\":\"" ++ padDigits 4 a ++ str "-01-01T00:00:00Z\",\"to\":\""
    ++ padDigits 4 b ++ str "-01-01T00:00:00Z\"\x7d,\"targets\":[\x7b\"target\":\"cpu\"\x7d]\x7d"

/-- The range in it. -/
def yearsRange (start stop : IsoTime) : List (Bytes × Json) :=
  [(str "from", .str start.text), (str "to", .str stop.text)]

/-- Its value. -/
def yearsQuery (start stop : IsoTime) : List (Bytes × Json) :=
  [(str "range", .obj (yearsRange start stop)),
    (str "targets", .arr [.obj [(str "target", .str (str "cpu"))]])]

/-- A backend whose source answers with the period it is asked for. -/
def yearsEnv (start stop : IsoTime) : GrafanaEnv where
  config := { metrics := [{ endpoint := str "cpu" }] }
  jsonDecode := fun b =>
    if b = yearsBody start.year stop.year then some (.obj (yearsQuery start stop)) else none
  fetch := fun _ m _ period => some ⟨[⟨none, [⟨period, .fin 1⟩]⟩], none, m⟩

theorem queryBody_years (start stop : IsoTime)
    (hget : handlerGetParam (str "body=" ++ yearsBody start.year stop.year) (str "body")
      = some (yearsBody start.year stop.year))
    (hurl : cstr (urlDecode (yearsBody start.year stop.year)) = yearsBody start.year stop.year) :
    queryBody (yearsEnv start stop) (some (str "body=" ++ yearsBody start.year stop.year))
      = some (yearsBody start.year stop.year) := by
  unfold queryBody
  rw [if_pos (show (yearsEnv start stop).hasContext = true from rfl), Option.bind_some, hget,
    Option.map_some, hurl]

theorem jsonDecode_years (start stop : IsoTime) :
    (yearsEnv start stop).jsonDecode (yearsBody start.year stop.year)
      = some (.obj (yearsQuery start stop)) := if_pos rfl

theorem readQuery_years (start stop : IsoTime)
    (hget : handlerGetParam (str "body=" ++ yearsBody start.year stop.year) (str "body")
      = some (yearsBody start.year stop.year))
    (hurl : cstr (urlDecode (yearsBody start.year stop.year)) = yearsBody start.year stop.year) :
    readQuery (yearsEnv start stop) (some (str "body=" ++ yearsBody start.year stop.year)) []
      = some (.ok ([str "cpu"], queryPeriod (start.seconds, stop.seconds)), []) := by
  have hrange : readRange [.json (.obj (yearsQuery start stop))]
      = some ((start.seconds, stop.seconds), [.json (.obj (yearsQuery start stop))]) :=
    readRange_text (show Json.member (yearsQuery start stop) (str "range")
      = some (.obj (yearsRange start stop)) from rfl) rfl rfl
  have htargets : readTargets [.json (.obj (yearsQuery start stop))]
      = some ([str "cpu"], [.json (.obj (yearsQuery start stop))]) := rfl
  have hdecoded : readDecoded [.json (.obj (yearsQuery start stop))]
      = some (([str "cpu"], queryPeriod (start.seconds, stop.seconds)), []) := by
    unfold readDecoded
    rw [bind_run hrange, bind_run htargets, bind_run (pop_run _ _), pure_run]
  rw [readQuery_decoded (queryBody_years start stop hget hurl) (jsonDecode_years start stop),
    bind_run hdecoded, pure_run]

theorem seconds_newYear {y : Nat} (h : y ≤ 9999) :
    (newYear y h).seconds = ((daysBeforeYear y : Int) - 719528) * 86400 := by
  have hyear : (newYear y h).year = y := rfl
  have hday : (newYear y h).dayOfYear = 0 := by
    show daysBeforeMonth y 1 + (1 - 1) = 0
    rw [daysBeforeMonth]
  have htime : (newYear y h).secondOfDay = 0 := by simp [CivilTime.secondOfDay, newYear]
  unfold CivilTime.seconds CivilTime.days
  rw [hyear, hday, htime, daysBeforeEpoch]
  omega

/-- The year 2000 is asked for as it is. -/
theorem grafana_period_year : PeriodRight
    (toInt32 (queryPeriod ((newYear 2000 (by decide)).seconds, (newYear 2001 (by decide)).seconds)))
    (newYear 2000 (by decide)) (newYear 2001 (by decide)) := by
  have hget : handlerGetParam (str "body=" ++ yearsBody 2000 2001) (str "body")
      = some (yearsBody 2000 2001) := by decide +kernel
  have hurl : cstr (urlDecode (yearsBody 2000 2001)) = yearsBody 2000 2001 := by decide +kernel
  have hwidth : WidthFits (newYear 2000 (by decide)) (newYear 2001 (by decide)) := by
    have h0 := daysBeforeYear_eq 2000
    have h1 := daysBeforeYear_eq 2001
    refine fun _ => ⟨31622400, (width_eq_iff _ _ _).mpr ⟨?_, rfl⟩, by decide⟩
    rw [seconds_newYear, seconds_newYear]
    omega
  exact (grafana_period_iff (queryBody_years (newYear 2000 (by decide)) (newYear 2001 (by decide))
    hget hurl) (jsonDecode_years _ _) rfl rfl rfl (readQuery_years _ _ hget hurl)).2.mpr hwidth

/-- A hundred years wrap: the source is asked for a negative period. -/
theorem grafana_period_century : ∃ period,
    readQuery (yearsEnv (newYear 1900 (by decide)) (newYear 2000 (by decide)))
        (some (str "body=" ++ yearsBody 1900 2000)) [] = some (.ok ([str "cpu"], period), [])
      ∧ toInt32 period = -1139293696
      ∧ ¬PeriodRight (toInt32 period) (newYear 1900 (by decide)) (newYear 2000 (by decide)) := by
  have hget : handlerGetParam (str "body=" ++ yearsBody 1900 2000) (str "body")
      = some (yearsBody 1900 2000) := by decide +kernel
  have hurl : cstr (urlDecode (yearsBody 1900 2000)) = yearsBody 1900 2000 := by decide +kernel
  have hpassed : toInt32 (queryPeriod ((newYear 1900 (by decide)).seconds,
      (newYear 2000 (by decide)).seconds)) = -1139293696 := by
    have h0 := daysBeforeYear_eq 1900
    have h1 := daysBeforeYear_eq 2000
    have hdays : daysBeforeYear 1900 = 693961 ∧ daysBeforeYear 2000 = 730485 := by omega
    rw [seconds_newYear, seconds_newYear, hdays.1, hdays.2]
    decide
  refine ⟨_, readQuery_years (newYear 1900 (by decide)) (newYear 2000 (by decide)) hget hurl,
    hpassed, fun h => ?_⟩
  have hpositive := h.positive
  rw [hpassed] at hpositive
  exact absurd hpositive (by decide)

end Svgd.Backend
