import AgentObservability.Dashboard.Scan
import AgentObservability.Foundation.Calendar
import AgentObservability.Foundation.FixedWidth

/-!
# The time of a report view

`trustedGeneratedAt` writes the time of the system clock into a report view, with the
date that `civilDateFromUnixDays` finds by era, year of the era and day of the year.

The computation is followed operator by operator (`computed`), so that it can be asked
of every value on the way whether an `i64` holds it, or whether it is negative.
`CalendarExact` puts together what the conversion guarantees.
-/

namespace AgentObservability.Dashboard

open Foundation

/-- The values of an `i64`. -/
def FitsI64 (value : ℤ) : Prop := -2 ^ 63 ≤ value ∧ value < 2 ^ 63

instance : DecidablePred FitsI64 := fun value => inferInstanceAs (Decidable (-2 ^ 63 ≤ value ∧ value < 2 ^ 63))

/-- The value of an operator, or nothing if it is not `ok`. -/
def computed (ok : ℤ → Prop) [DecidablePred ok] (value : ℤ) : Option ℤ := if ok value then some value else none

/-- `civil_date_from_unix_days`, as far as the values of its operators are `ok`. The code runs on an `i64`, and it stops
at the first value that does not fit. -/
def civilDateFromUnixDays (ok : ℤ → Prop) [DecidablePred ok] (days : ℤ) : Option (Except BuildError (ℤ × ℤ × ℤ)) :=
  if FitsI64 (days + 719468) then do
    let shifted ← computed ok (days + 719468)
    let era ← computed ok (shifted / 146097)
    let dayOfEra ← computed ok (shifted % 146097)
    -- `(day_of_era - day_of_era / 1_460 + day_of_era / 36_524 - day_of_era / 146_096) / 365`
    let quarters ← computed ok (dayOfEra.tdiv 1460)
    let withoutQuarters ← computed ok (dayOfEra - quarters)
    let centuries ← computed ok (dayOfEra.tdiv 36524)
    let withCenturies ← computed ok (withoutQuarters + centuries)
    let last ← computed ok (dayOfEra.tdiv 146096)
    let yearDays ← computed ok (withCenturies - last)
    let yearOfEra ← computed ok (yearDays.tdiv 365)
    let eraYears ← computed ok (era * 400)
    let year ← computed ok (yearOfEra + eraYears)
    -- `day_of_era - (365 * year_of_era + year_of_era / 4 - year_of_era / 100)`
    let wholeYears ← computed ok (365 * yearOfEra)
    let leapDays ← computed ok (yearOfEra.tdiv 4)
    let withLeapDays ← computed ok (wholeYears + leapDays)
    let plainCenturies ← computed ok (yearOfEra.tdiv 100)
    let before ← computed ok (withLeapDays - plainCenturies)
    let dayOfYear ← computed ok (dayOfEra - before)
    -- `(5 * day_of_year + 2) / 153`
    let fifths ← computed ok (5 * dayOfYear)
    let shiftedFifths ← computed ok (fifths + 2)
    let monthPrime ← computed ok (shiftedFifths.tdiv 153)
    -- `day_of_year - (153 * month_prime + 2) / 5 + 1`
    let monthFifths ← computed ok (153 * monthPrime)
    let shiftedMonthFifths ← computed ok (monthFifths + 2)
    let monthStart ← computed ok (shiftedMonthFifths.tdiv 5)
    let dayOfMonth ← computed ok (dayOfYear - monthStart)
    let day ← computed ok (dayOfMonth + 1)
    let month ← computed ok (monthPrime + if monthPrime < 10 then 3 else -9)
    let year ← computed ok (year + if month ≤ 2 then 1 else 0)
    if 0 ≤ year ∧ year ≤ 9999 then some (.ok (year, month, day)) else some (.error .invalidStagingState)
  else some (.error .invalidStagingState)

/-- A time since the epoch, as a `Duration`. -/
structure SinceEpoch where
  /-- `as_secs`. -/
  secs : ℕ
  /-- `subsec_nanos`. -/
  nanos : ℕ
  /-- The seconds are a `u64`. -/
  secs_lt : secs < 2 ^ 64
  /-- The rest is less than a second. -/
  nanos_lt : nanos < 10 ^ 9

namespace SinceEpoch

/-- `subsec_millis`. -/
def subsecMillis (t : SinceEpoch) : ℕ := t.nanos / 10 ^ 6

/-- The milliseconds since the epoch. -/
def millis (t : SinceEpoch) : ℕ := t.secs * 1000 + t.subsecMillis

/-- The nanoseconds since the epoch. -/
def totalNanos (t : SinceEpoch) : ℕ := t.secs * 10 ^ 9 + t.nanos

end SinceEpoch

/-- An integer after `{:0width}`. -/
def zeroPaddedInt (width : ℕ) (value : ℤ) : List Char :=
  if value < 0 then '-' :: zeroPadded (width - 1) value.natAbs else zeroPadded width value.natAbs

/-- The text of a date and of the rest of a time. -/
def generatedAtText (year month day : ℤ) (secondsOfDay millis : ℕ) : List Char :=
  zeroPaddedInt 4 year ++ '-' :: zeroPaddedInt 2 month ++ '-' :: zeroPaddedInt 2 day ++
    'T' :: zeroPadded 2 (secondsOfDay / 3600) ++ ':' :: zeroPadded 2 (secondsOfDay % 3600 / 60) ++
    ':' :: zeroPadded 2 (secondsOfDay % 60) ++ '.' :: zeroPadded 3 millis ++ ['Z']

/-- `trusted_generated_at`, for what `SystemTime::now` has passed since the epoch, if it is not before it. -/
def trustedGeneratedAt : Option SinceEpoch → Option (Except BuildError String)
  | none => some (.error .invalidStagingState)
  | some duration =>
    if FitsI64 (duration.secs / 86400 : ℕ) then do
      let date ← civilDateFromUnixDays FitsI64 (duration.secs / 86400 : ℕ)
      some (date.map fun (year, month, day) =>
        String.ofList (generatedAtText year month day (duration.secs % 86400) duration.subsecMillis))
    else some (.error .invalidStagingState)

/-! ### The closed formula -/

/-- `year_of_era`, of a day of an era. -/
def yearOfEraOf (dayOfEra : ℤ) : ℤ := (dayOfEra - dayOfEra / 1460 + dayOfEra / 36524 - dayOfEra / 146096) / 365

/-- `day_of_year`, from 1 March. -/
def dayOfYearOf (dayOfEra : ℤ) : ℤ :=
  dayOfEra - (365 * yearOfEraOf dayOfEra + yearOfEraOf dayOfEra / 4 - yearOfEraOf dayOfEra / 100)

/-- `month_prime`, the months since March. -/
def monthPrimeOf (dayOfYear : ℤ) : ℤ := (5 * dayOfYear + 2) / 153

/-- `month`. -/
def monthOf (monthPrime : ℤ) : ℤ := monthPrime + if monthPrime < 10 then 3 else -9

/-- `day`. -/
def dayOf (dayOfYear : ℤ) : ℤ := dayOfYear - (153 * monthPrimeOf dayOfYear + 2) / 5 + 1

/-- `year`, of a shifted day. -/
def yearOf (shifted : ℤ) : ℤ :=
  yearOfEraOf (shifted % 146097) + shifted / 146097 * 400 +
    if monthOf (monthPrimeOf (dayOfYearOf (shifted % 146097))) ≤ 2 then 1 else 0

theorem yearOfEraOf_bounds (dayOfEra : ℤ) (hlow : 0 ≤ dayOfEra) (hhigh : dayOfEra < 146097) :
    0 ≤ yearOfEraOf dayOfEra ∧ yearOfEraOf dayOfEra < 400 := by
  unfold yearOfEraOf
  omega

/-- **A day of the era falls into its year**, which starts on 1 March and has the leap day of the next. -/
theorem dayOfYearOf_bounds (dayOfEra : ℤ) (hlow : 0 ≤ dayOfEra) (hhigh : dayOfEra < 146097) :
    0 ≤ dayOfYearOf dayOfEra ∧ dayOfYearOf dayOfEra < yearLength (yearOfEraOf dayOfEra + 1) := by
  obtain ⟨hyear, hyear'⟩ := yearOfEraOf_bounds dayOfEra hlow hhigh
  have hcentury : dayOfEra / 36524 = 0 ∨ dayOfEra / 36524 = 1 ∨ dayOfEra / 36524 = 2 ∨ dayOfEra / 36524 = 3 ∨
      dayOfEra / 36524 = 4 := by omega
  have hlast : dayOfEra / 146096 = 0 ∨ dayOfEra / 146096 = 1 := by omega
  unfold dayOfYearOf
  generalize hyoe : yearOfEraOf dayOfEra = yearOfEra at *
  unfold yearOfEraOf at hyoe
  have hplain : yearOfEra / 100 = 0 ∨ yearOfEra / 100 = 1 ∨ yearOfEra / 100 = 2 ∨ yearOfEra / 100 = 3 := by omega
  constructor
  · rcases hcentury with hc | hc | hc | hc | hc <;> rcases hlast with hl | hl <;> rw [hc, hl] at hyoe <;> omega
  · have hnext : (yearOfEra + 1) % 4 = 0 ∨ (yearOfEra + 1) / 4 = yearOfEra / 4 := by omega
    have hquarter : dayOfEra / 1460 ≤ yearOfEra / 4 ∨ yearOfEra / 4 < dayOfEra / 1460 := le_or_gt ..
    unfold yearLength IsLeap
    rcases hcentury with hc | hc | hc | hc | hc <;> rcases hlast with hl | hl <;> rw [hc, hl] at hyoe <;>
      rcases hquarter with hq | hq <;> rcases hnext with hn | hn <;> split_ifs <;> omega

theorem computed_of {ok : ℤ → Prop} [DecidablePred ok] {value : ℤ} (h : ok value) : computed ok value = some value :=
  if_pos h

/-- **The computation gets to its end if its values are `ok`.** -/
theorem civilDateFromUnixDays_eq {ok : ℤ → Prop} [DecidablePred ok] {days : ℤ} (hfits : FitsI64 (days + 719468))
    (hsmall : ∀ value, 0 ≤ value → value < 146097 → ok value) (hshifted : ok (days + 719468))
    (hera : ok ((days + 719468) / 146097)) (heraYears : ok ((days + 719468) / 146097 * 400))
    (hyear : ok (yearOfEraOf ((days + 719468) % 146097) + (days + 719468) / 146097 * 400))
    (hyear' : ok (yearOf (days + 719468))) :
    civilDateFromUnixDays ok days = some (if 0 ≤ yearOf (days + 719468) ∧ yearOf (days + 719468) ≤ 9999 then
      .ok (yearOf (days + 719468), monthOf (monthPrimeOf (dayOfYearOf ((days + 719468) % 146097))),
        dayOf (dayOfYearOf ((days + 719468) % 146097)))
      else .error .invalidStagingState) := by
  have hc : ∀ {α : Type} {next : ℤ → Option α} {value : ℤ}, ok value → (computed ok value >>= next) = next value :=
    fun h => by rw [computed_of h]; rfl
  rw [civilDateFromUnixDays, if_pos hfits]
  unfold yearOf at hyear' ⊢
  generalize days + 719468 = shifted at *
  have hlow : 0 ≤ shifted % 146097 := by omega
  have hhigh : shifted % 146097 < 146097 := by omega
  rw [hc hshifted, hc hera, hc (hsmall _ hlow hhigh)]
  generalize shifted % 146097 = dayOfEra at *
  generalize shifted / 146097 = era at *
  -- the year of the era
  obtain ⟨hyoe, hyoe'⟩ := yearOfEraOf_bounds dayOfEra hlow hhigh
  rw [Int.tdiv_eq_ediv_of_nonneg hlow, hc (hsmall _ (by omega) (by omega)), hc (hsmall _ (by omega) (by omega)),
    Int.tdiv_eq_ediv_of_nonneg hlow, hc (hsmall _ (by omega) (by omega)), hc (hsmall _ (by omega) (by omega)),
    Int.tdiv_eq_ediv_of_nonneg hlow, hc (hsmall _ (by omega) (by omega)), hc (hsmall _ (by omega) (by omega)),
    Int.tdiv_eq_ediv_of_nonneg (by omega), ← yearOfEraOf, hc (hsmall _ hyoe (by omega)), hc heraYears, hc hyear]
  -- the day of the year
  obtain ⟨hdoy, hdoy'⟩ := dayOfYearOf_bounds dayOfEra hlow hhigh
  have hlength := yearLength_le (yearOfEraOf dayOfEra + 1)
  have hbefore : dayOfEra - dayOfYearOf dayOfEra =
      365 * yearOfEraOf dayOfEra + yearOfEraOf dayOfEra / 4 - yearOfEraOf dayOfEra / 100 := by
    unfold dayOfYearOf
    omega
  rw [hc (hsmall _ (by omega) (by omega)), Int.tdiv_eq_ediv_of_nonneg hyoe, hc (hsmall _ (by omega) (by omega)),
    hc (hsmall _ (by omega) (by omega)), Int.tdiv_eq_ediv_of_nonneg hyoe, hc (hsmall _ (by omega) (by omega)),
    hc (hsmall _ (by omega) (by omega)), ← dayOfYearOf, hc (hsmall _ hdoy (by omega))]
  generalize dayOfYearOf dayOfEra = dayOfYear at *
  -- the month and the day
  have hmonth : 0 ≤ monthPrimeOf dayOfYear ∧ monthPrimeOf dayOfYear < 12 := by
    unfold monthPrimeOf
    omega
  have hday : 0 ≤ dayOfYear - (153 * monthPrimeOf dayOfYear + 2) / 5 := by
    unfold monthPrimeOf
    omega
  rw [hc (hsmall _ (by omega) (by omega)), hc (hsmall _ (by omega) (by omega)), Int.tdiv_eq_ediv_of_nonneg (by omega),
    ← monthPrimeOf, hc (hsmall _ hmonth.1 (by omega)), hc (hsmall _ (by omega) (by omega)),
    hc (hsmall _ (by omega) (by omega)), Int.tdiv_eq_ediv_of_nonneg (by omega), hc (hsmall _ (by omega) (by omega)),
    hc (hsmall _ hday (by omega)), hc (hsmall _ (by omega) (by omega)), ← dayOf, ← monthOf]
  have hmonthOf : 0 ≤ monthOf (monthPrimeOf dayOfYear) ∧ monthOf (monthPrimeOf dayOfYear) < 13 := by
    unfold monthOf
    split_ifs <;> omega
  rw [hc (hsmall _ hmonthOf.1 (by omega)), hc hyear']
  split_ifs <;> rfl

/-! ### The date -/

theorem monthPrimeOf_bounds {dayOfYear : ℤ} (hlow : 0 ≤ dayOfYear) (hhigh : dayOfYear < 366) :
    0 ≤ monthPrimeOf dayOfYear ∧ monthPrimeOf dayOfYear < 12 := by
  unfold monthPrimeOf
  omega

theorem monthOf_bounds {monthPrime : ℤ} (hlow : 0 ≤ monthPrime) (hhigh : monthPrime < 12) :
    1 ≤ monthOf monthPrime ∧ monthOf monthPrime ≤ 12 := by
  unfold monthOf
  split_ifs <;> omega

/-- The month that starts `monthPrime` months after March has the day, if the year that starts in March has it. -/
theorem dayOf_bounds {dayOfYear year : ℤ} (hlow : 0 ≤ dayOfYear) (hhigh : dayOfYear < yearLength (year + 1)) :
    1 ≤ dayOf dayOfYear ∧ dayOf dayOfYear ≤
      monthLength (year + if monthOf (monthPrimeOf dayOfYear) ≤ 2 then 1 else 0) (monthOf (monthPrimeOf dayOfYear)) := by
  have hlength := yearLength_le (year + 1)
  obtain ⟨hmonth, hmonth'⟩ := monthPrimeOf_bounds hlow (by omega)
  have hprime : monthPrimeOf dayOfYear = (5 * dayOfYear + 2) / 153 := rfl
  unfold dayOf
  generalize monthPrimeOf dayOfYear = monthPrime at *
  unfold yearLength at hhigh
  interval_cases monthPrime <;> simp only [monthOf, monthLength] <;> norm_num <;> split_ifs at * <;> omega

/-- The date of a shifted day. -/
def dateOf (shifted : ℤ) : CivilDate where
  year := yearOf shifted
  month := monthOf (monthPrimeOf (dayOfYearOf (shifted % 146097)))
  day := dayOf (dayOfYearOf (shifted % 146097))
  month_mem := by
    obtain ⟨hlow, hhigh⟩ := dayOfYearOf_bounds (shifted % 146097) (by omega) (by omega)
    have hlength := yearLength_le (yearOfEraOf (shifted % 146097) + 1)
    obtain ⟨hmonth, hmonth'⟩ := monthPrimeOf_bounds hlow (by omega)
    exact monthOf_bounds hmonth hmonth'
  day_mem := by
    obtain ⟨hlow, hhigh⟩ := dayOfYearOf_bounds (shifted % 146097) (by omega) (by omega)
    have hera : yearLength (yearOfEraOf (shifted % 146097) + shifted / 146097 * 400 + 1) =
        yearLength (yearOfEraOf (shifted % 146097) + 1) := by
      unfold yearLength
      rw [add_right_comm]
      simp only [isLeap_add_era]
    exact dayOf_bounds hlow (hera ▸ hhigh)

/-- **The date has the number of the day.** -/
theorem dayNumber_dateOf (shifted : ℤ) : (dateOf shifted).dayNumber = shifted - 719468 := by
  have hera : 0 ≤ shifted % 146097 ∧ shifted % 146097 < 146097 := by omega
  obtain ⟨hyear, hyear'⟩ := yearOfEraOf_bounds _ hera.1 hera.2
  obtain ⟨hlow, hhigh⟩ := dayOfYearOf_bounds _ hera.1 hera.2
  have hlength := yearLength_le (yearOfEraOf (shifted % 146097) + 1)
  obtain ⟨hmonth, hmonth'⟩ := monthPrimeOf_bounds hlow (by omega)
  have hday : dayOfYearOf (shifted % 146097) = shifted % 146097 - (365 * yearOfEraOf (shifted % 146097) +
    yearOfEraOf (shifted % 146097) / 4 - yearOfEraOf (shifted % 146097) / 100) := rfl
  have hepoch : daysBeforeYear 1970 = 719528 := by decide
  -- the next year starts 306 days after 1 March
  have hnext : daysBeforeYear (yearOfEraOf (shifted % 146097) + shifted / 146097 * 400 + 1) =
      365 * yearOfEraOf (shifted % 146097) + yearOfEraOf (shifted % 146097) / 4 -
        yearOfEraOf (shifted % 146097) / 100 + 366 + shifted / 146097 * 146097 := by
    generalize yearOfEraOf (shifted % 146097) = yearOfEra at *
    have hfour : (yearOfEra + 1 + 3) / 4 = yearOfEra / 4 + 1 := by omega
    have hhundred : (yearOfEra + 1 + 99) / 100 = yearOfEra / 100 + 1 := by omega
    have hlast : (yearOfEra + 1 + 399) / 400 = 1 := by omega
    rw [add_right_comm, daysBeforeYear_add_era, daysBeforeYear, hfour, hhundred, hlast]
    ring
  simp only [CivilDate.dayNumber, dateOf, yearOf, dayOf, hepoch]
  generalize monthPrimeOf (dayOfYearOf (shifted % 146097)) = monthPrime at *
  by_cases hmarch : monthPrime < 10
  · have hmonthOf : monthOf monthPrime = monthPrime + 3 := by rw [monthOf, if_pos hmarch]
    have hsum := daysBeforeYear_add_daysBeforeMonth (yearOfEraOf (shifted % 146097) + shifted / 146097 * 400)
      (show 3 ≤ monthPrime + 3 by omega)
    rw [hmonthOf, if_neg (by omega), add_zero]
    omega
  · have hmonthOf : monthOf monthPrime = monthPrime - 9 := by rw [monthOf, if_neg hmarch]; rfl
    have hstart : daysBeforeMonth (yearOfEraOf (shifted % 146097) + shifted / 146097 * 400 + 1) (monthPrime - 9) =
        (367 * (monthPrime - 9) - 362) / 12 := by
      rw [daysBeforeMonth, if_pos (by omega), sub_zero]
    rw [hmonthOf, if_pos (by omega), hstart]
    omega

theorem dateOf_natCast (n : ℕ) : dateOf (n + 719468) = CivilDate.next^[n] CivilDate.epoch := by
  apply CivilDate.eq_iterate
  rw [dayNumber_dateOf]
  omega

/-! ### The values on the way -/

theorem yearOf_bounds (shifted : ℤ) : shifted / 146097 * 400 ≤ yearOf shifted ∧ yearOf shifted ≤ shifted / 146097 * 400 + 400 := by
  obtain ⟨hyear, hyear'⟩ := yearOfEraOf_bounds (shifted % 146097) (by omega) (by omega)
  unfold yearOf
  split_ifs <;> omega

/-- What the code returns. -/
def resultOf (c : CivilDate) : Except BuildError (ℤ × ℤ × ℤ) :=
  if 0 ≤ c.year ∧ c.year ≤ 9999 then .ok (c.year, c.month, c.day) else .error .invalidStagingState

/-- **No value overflows if the shifted day does not.** -/
theorem civilDateFromUnixDays_fits {days : ℤ} (h : FitsI64 (days + 719468)) :
    civilDateFromUnixDays FitsI64 days = some (resultOf (dateOf (days + 719468))) := by
  obtain ⟨hyear, hyear'⟩ := yearOfEraOf_bounds ((days + 719468) % 146097) (by omega) (by omega)
  have hyears := yearOf_bounds (days + 719468)
  refine civilDateFromUnixDays_eq h ?_ h ?_ ?_ ?_ ?_ <;> unfold FitsI64 at * <;> omega

/-- **No value is negative from 1 March of the year 0 on**, and before it the shifted day is. -/
theorem civilDateFromUnixDays_nonneg {days : ℤ} (h : FitsI64 (days + 719468)) :
    (civilDateFromUnixDays (0 ≤ ·) days).isSome ↔ -719468 ≤ days := by
  constructor
  · intro hsome
    by_contra hneg
    rw [civilDateFromUnixDays, if_pos h, computed, if_neg (by omega)] at hsome
    cases hsome
  · intro hdays
    obtain ⟨hyear, hyear'⟩ := yearOfEraOf_bounds ((days + 719468) % 146097) (by omega) (by omega)
    have hyears := yearOf_bounds (days + 719468)
    rw [civilDateFromUnixDays_eq h (fun _ hlow _ => hlow) (by omega) (by omega) (by omega) (by omega) (by omega)]
    rfl

theorem civilDateFromUnixDays_error {days : ℤ} (h : ¬ FitsI64 (days + 719468)) :
    civilDateFromUnixDays FitsI64 days = some (.error .invalidStagingState) := if_neg h

theorem epoch_year_le (n : ℕ) : 1970 ≤ (CivilDate.next^[n] CivilDate.epoch).year := by
  by_contra hyear
  have hlt : (CivilDate.next^[n] CivilDate.epoch).dayNumber < CivilDate.epoch.dayNumber :=
    CivilDate.dayNumber_lt_iff.mpr (CivilDate.key_lt_iff.mpr (Or.inl (not_le.mp hyear)))
  rw [CivilDate.dayNumber_iterate, CivilDate.dayNumber_epoch] at hlt
  omega

/-- **The conversion gives the date of the day**, up to the year 9999, and an error after it. -/
theorem civilDateFromUnixDays_natCast (n : ℕ) : civilDateFromUnixDays FitsI64 n = some (
    if (CivilDate.next^[n] CivilDate.epoch).year ≤ 9999 then
      .ok ((CivilDate.next^[n] CivilDate.epoch).year, (CivilDate.next^[n] CivilDate.epoch).month,
        (CivilDate.next^[n] CivilDate.epoch).day)
    else .error .invalidStagingState) := by
  have hyear := epoch_year_le n
  by_cases hfits : FitsI64 ((n : ℤ) + 719468)
  · rw [civilDateFromUnixDays_fits hfits, dateOf_natCast, resultOf]
    simp only [show (0 : ℤ) ≤ (CivilDate.next^[n] CivilDate.epoch).year by omega, true_and]
  · have hlate : ¬ (CivilDate.next^[n] CivilDate.epoch).year ≤ 9999 := by
      rw [← dateOf_natCast]
      have hyears := yearOf_bounds ((n : ℤ) + 719468)
      show ¬ yearOf ((n : ℤ) + 719468) ≤ 9999
      unfold FitsI64 at hfits
      omega
    rw [civilDateFromUnixDays_error hfits, if_neg hlate]

/-! ### The text -/

namespace SinceEpoch

/-- The date of an instant. -/
def date (t : SinceEpoch) : CivilDate := CivilDate.next^[t.secs / 86400] CivilDate.epoch

/-- The text of an instant. -/
def text (t : SinceEpoch) : List Char :=
  generatedAtText t.date.year t.date.month t.date.day (t.secs % 86400) t.subsecMillis

end SinceEpoch

/-- **The text of an instant is that of its date and time**, up to the year 9999. -/
theorem trustedGeneratedAt_eq (t : SinceEpoch) : trustedGeneratedAt (some t) =
    some (if t.date.year ≤ 9999 then .ok (String.ofList t.text) else .error .invalidStagingState) := by
  have hfits : FitsI64 (t.secs / 86400 : ℕ) := by
    have := t.secs_lt
    unfold FitsI64
    omega
  rw [trustedGeneratedAt, if_pos hfits, civilDateFromUnixDays_natCast, Option.bind_eq_bind, Option.bind_some,
    SinceEpoch.text]
  unfold SinceEpoch.date
  split_ifs <;> rfl

theorem zeroPaddedInt_of_nonneg {width : ℕ} {value : ℤ} (h : 0 ≤ value) :
    zeroPaddedInt width value = zeroPadded width value.toNat := by
  rw [zeroPaddedInt, if_neg (by omega), show value.natAbs = value.toNat by omega]

/-- A block of digits and what follows it. -/
theorem zeroPadded_append_lt_iff {width m n : ℕ} {x y : List Char} (hwidth : 0 < width) (hm : m < 10 ^ width)
    (hn : n < 10 ^ width) : zeroPadded width m ++ x < zeroPadded width n ++ y ↔ m < n ∨ m = n ∧ x < y := by
  rw [append_lt_append_iff ((length_zeroPadded hwidth hm).trans (length_zeroPadded hwidth hn).symm),
    zeroPadded_lt_iff hwidth hm hn, zeroPadded_eq_iff hwidth hm hn]

/-- Hours, minutes and seconds are ordered as the seconds of the day. -/
theorem clock_lt_iff {s u : ℕ} {p : Prop} :
    (s / 3600 < u / 3600 ∨ s / 3600 = u / 3600 ∧ (s % 3600 / 60 < u % 3600 / 60 ∨ s % 3600 / 60 = u % 3600 / 60 ∧
      (s % 60 < u % 60 ∨ s % 60 = u % 60 ∧ p))) ↔ s < u ∨ s = u ∧ p := by
  by_cases hp : p <;> simp only [hp, and_true, and_false, or_false] <;> omega

namespace SinceEpoch

theorem dayNumber_date (t : SinceEpoch) : t.date.dayNumber = (t.secs / 86400 : ℕ) := CivilDate.dayNumber_iterate _

theorem subsecMillis_lt (t : SinceEpoch) : t.subsecMillis < 1000 := by
  have := t.nanos_lt
  unfold subsecMillis
  omega

/-- Dates are ordered as their days. -/
theorem date_lt_iff {t u : SinceEpoch} {p : Prop} :
    (t.date.year < u.date.year ∨ t.date.year = u.date.year ∧ (t.date.month < u.date.month ∨
      t.date.month = u.date.month ∧ (t.date.day < u.date.day ∨ t.date.day = u.date.day ∧ p))) ↔
    t.secs / 86400 < u.secs / 86400 ∨ t.secs / 86400 = u.secs / 86400 ∧ p := by
  have hearlier := CivilDate.dayNumber_lt_iff (c := t.date) (d := u.date)
  rw [dayNumber_date, dayNumber_date, CivilDate.key_lt_iff] at hearlier
  have hsame : t.secs / 86400 = u.secs / 86400 ↔
      t.date.year = u.date.year ∧ t.date.month = u.date.month ∧ t.date.day = u.date.day := by
    rw [← CivilDate.ext_iff]
    constructor
    · exact fun h => by rw [date, date, h]
    · intro h
      have hnumber := congrArg CivilDate.dayNumber h
      rw [dayNumber_date, dayNumber_date] at hnumber
      omega
  by_cases hp : p <;> simp only [hp, and_true, and_false, or_false] <;> omega

end SinceEpoch

/-- **The texts of two instants up to the year 9999 are ordered as their milliseconds.** -/
theorem text_lt_iff {t u : SinceEpoch} (ht : t.date.year ≤ 9999) (hu : u.date.year ≤ 9999) :
    t.text < u.text ↔ t.millis < u.millis := by
  have hpart : ∀ v : SinceEpoch, 1970 ≤ v.date.year ∧ 1 ≤ v.date.month ∧ v.date.month ≤ 12 ∧ 1 ≤ v.date.day ∧
      v.date.day ≤ 31 := by
    intro v
    have hlength : monthLength v.date.year v.date.month ≤ 31 := by
      unfold monthLength
      split_ifs <;> decide
    have hmonth := v.date.month_mem
    have hday := v.date.day_mem
    exact ⟨epoch_year_le _, hmonth.1, hmonth.2, hday.1, by omega⟩
  obtain ⟨htyear, htmonth, htmonth', htday, htday'⟩ := hpart t
  obtain ⟨huyear, humonth, humonth', huday, huday'⟩ := hpart u
  have htmillis := t.subsecMillis_lt
  have humillis := u.subsecMillis_lt
  have hnat : ∀ {a b : ℤ}, 0 ≤ a → 0 ≤ b → (a.toNat < b.toNat ↔ a < b) ∧ (a.toNat = b.toNat ↔ a = b) := by
    intro a b ha hb
    omega
  unfold SinceEpoch.text generatedAtText
  rw [zeroPaddedInt_of_nonneg (by omega), zeroPaddedInt_of_nonneg (by omega), zeroPaddedInt_of_nonneg (by omega),
    zeroPaddedInt_of_nonneg (by omega), zeroPaddedInt_of_nonneg (by omega), zeroPaddedInt_of_nonneg (by omega)]
  simp only [List.append_assoc, List.cons_append]
  -- block by block
  simp (disch := omega) only [zeroPadded_append_lt_iff, List.cons_lt_cons_iff, lt_irrefl, false_or, true_and, and_false,
    or_false, (hnat _ _).1, (hnat _ _).2, clock_lt_iff, SinceEpoch.date_lt_iff]
  unfold SinceEpoch.millis
  omega

/-! ### What the conversion guarantees -/

/-- What the conversion of days and the time of a report view guarantee. -/
structure CalendarExact : Prop where
  /-- The date of a day is the one that the calendar counts up to, and its number is the day. -/
  dates : ∀ n : ℕ, (CivilDate.next^[n] CivilDate.epoch).dayNumber = n ∧ civilDateFromUnixDays FitsI64 n = some (
    if (CivilDate.next^[n] CivilDate.epoch).year ≤ 9999 then
      .ok ((CivilDate.next^[n] CivilDate.epoch).year, (CivilDate.next^[n] CivilDate.epoch).month,
        (CivilDate.next^[n] CivilDate.epoch).day)
    else .error .invalidStagingState)
  /-- No value overflows once the checked addition passes. -/
  noOverflow : ∀ days, FitsI64 days → FitsI64 (days + 719468) → (civilDateFromUnixDays FitsI64 days).isSome
  /-- No value is negative from 1 March of the year 0 on. -/
  noNegative : ∀ days, FitsI64 days → FitsI64 (days + 719468) →
    ((civilDateFromUnixDays (0 ≤ ·) days).isSome ↔ -719468 ≤ days)
  /-- The texts of two instants are ordered as the instants, to the millisecond. -/
  ordered : ∀ t u s s', trustedGeneratedAt (some t) = some (.ok s) → trustedGeneratedAt (some u) = some (.ok s') →
    (s < s' ↔ t.millis < u.millis) ∧ (t.totalNanos ≤ u.totalNanos → s ≤ s')

theorem eq_text {t : SinceEpoch} {s : String} (h : trustedGeneratedAt (some t) = some (.ok s)) :
    t.date.year ≤ 9999 ∧ s = String.ofList t.text := by
  rw [trustedGeneratedAt_eq] at h
  split_ifs at h with hyear
  · exact ⟨hyear, (Except.ok.inj (Option.some.inj h)).symm⟩
  · cases Option.some.inj h

/-- **The calendar conversion is exact**, and never leaves the values of an `i64`. -/
theorem calendarExact : CalendarExact where
  dates n := ⟨CivilDate.dayNumber_iterate n, civilDateFromUnixDays_natCast n⟩
  noOverflow days _ hfits := by rw [civilDateFromUnixDays_fits hfits]; rfl
  noNegative days _ hfits := civilDateFromUnixDays_nonneg hfits
  ordered t u s s' ht hu := by
    obtain ⟨htyear, rfl⟩ := eq_text ht
    obtain ⟨huyear, rfl⟩ := eq_text hu
    have hlt := text_lt_iff htyear huyear
    have hgt := text_lt_iff huyear htyear
    rw [String.lt_iff_toList_lt, String.le_iff_toList_le, String.toList_ofList, String.toList_ofList]
    refine ⟨hlt, fun hnanos => not_lt.mp (hgt.not.mpr ?_)⟩
    have := t.nanos_lt
    have := u.nanos_lt
    simp only [SinceEpoch.totalNanos, SinceEpoch.millis, SinceEpoch.subsecMillis] at hnanos ⊢
    omega

/-- The day before 1 March of the year 0 passes the checked addition, and its era is negative. -/
theorem not_nonneg_civilDateFromUnixDays :
    ¬ ∀ days, FitsI64 days → FitsI64 (days + 719468) → (civilDateFromUnixDays (0 ≤ ·) days).isSome := by
  intro h
  have hsome := h (-719469) (by decide) (by decide)
  exact absurd ((civilDateFromUnixDays_nonneg (by decide)).mp hsome) (by decide)

end AgentObservability.Dashboard
