import Mathlib.Algebra.Order.Ring.Int
import Mathlib.Logic.Function.Iterate
import Mathlib.Data.Prod.Lex
import Mathlib.Tactic.IntervalCases

/-!
# The proleptic Gregorian calendar

A date is a year, a month and a day that the month has, so that no other date can be
built. `CivilDate.next` is the day after a date, and the calendar is the recursion over
it: the date of day `n` is `next^[n] epoch`.

`dayNumber` counts the days from the epoch in closed form. It follows the recursion
(`dayNumber_next`) and the order of the dates (`dayNumber_lt_iff`), so a date is known
by its number.
-/

namespace AgentObservability.Foundation

/-- A year with a 29 February. -/
def IsLeap (year : ℤ) : Prop := year % 4 = 0 ∧ (year % 100 ≠ 0 ∨ year % 400 = 0)

instance (year : ℤ) : Decidable (IsLeap year) := inferInstanceAs (Decidable (_ ∧ _))

/-- The days of a year. -/
def yearLength (year : ℤ) : ℤ := if IsLeap year then 366 else 365

/-- The days of a month. -/
def monthLength (year month : ℤ) : ℤ :=
  if month = 2 then if IsLeap year then 29 else 28
  else if month = 4 ∨ month = 6 ∨ month = 9 ∨ month = 11 then 30 else 31

theorem monthLength_pos (year month : ℤ) : 0 < monthLength year month := by
  unfold monthLength
  split_ifs <;> omega

/-- A date of the calendar. -/
@[ext]
structure CivilDate where
  /-- The year; 0 is the year before 1. -/
  year : ℤ
  /-- The month, from 1. -/
  month : ℤ
  /-- The day of the month, from 1. -/
  day : ℤ
  /-- The year has the month. -/
  month_mem : 1 ≤ month ∧ month ≤ 12
  /-- The month has the day. -/
  day_mem : 1 ≤ day ∧ day ≤ monthLength year month
  deriving DecidableEq

namespace CivilDate

/-- 1 January 1970. -/
def epoch : CivilDate := ⟨1970, 1, 1, by decide, by decide⟩

/-- The day after. -/
def next (c : CivilDate) : CivilDate :=
  if hday : c.day < monthLength c.year c.month then
    ⟨c.year, c.month, c.day + 1, c.month_mem, by have := c.day_mem; omega⟩
  else if hmonth : c.month < 12 then
    ⟨c.year, c.month + 1, 1, by have := c.month_mem; omega, by have := monthLength_pos c.year (c.month + 1); omega⟩
  else
    ⟨c.year + 1, 1, 1, by omega, by have := monthLength_pos (c.year + 1) 1; omega⟩

/-- Year, month and day, in this order. -/
def key (c : CivilDate) : ℤ ×ₗ ℤ ×ₗ ℤ := toLex (c.year, toLex (c.month, c.day))

end CivilDate

/-! ### The closed form -/

/-- The days from the start of the year 0 to the start of a year. -/
def daysBeforeYear (year : ℤ) : ℤ := 365 * year + (year + 3) / 4 - (year + 99) / 100 + (year + 399) / 400

theorem daysBeforeYear_succ (year : ℤ) : daysBeforeYear (year + 1) = daysBeforeYear year + yearLength year := by
  unfold daysBeforeYear yearLength IsLeap
  split_ifs <;> omega

/-- The calendar repeats itself after four hundred years. -/
theorem daysBeforeYear_add_era (year era : ℤ) : daysBeforeYear (year + era * 400) = daysBeforeYear year + era * 146097 := by
  unfold daysBeforeYear
  omega

theorem isLeap_add_era (year era : ℤ) : IsLeap (year + era * 400) ↔ IsLeap year := by
  unfold IsLeap
  omega

theorem yearLength_le (year : ℤ) : yearLength year ≤ 366 := by
  unfold yearLength
  split_ifs <;> decide

theorem daysBeforeYear_le {year later : ℤ} (h : year < later) : daysBeforeYear year + yearLength year ≤ daysBeforeYear later := by
  rw [← daysBeforeYear_succ]
  unfold daysBeforeYear
  omega

/-- The days from the start of a year to the start of one of its months. -/
def daysBeforeMonth (year month : ℤ) : ℤ :=
  (367 * month - 362) / 12 - (if month ≤ 2 then 0 else if IsLeap year then 1 else 2)

theorem daysBeforeMonth_succ (year : ℤ) {month : ℤ} (h : 1 ≤ month ∧ month ≤ 12) :
    daysBeforeMonth year (month + 1) = daysBeforeMonth year month + monthLength year month := by
  obtain ⟨hlow, hhigh⟩ := h
  unfold daysBeforeMonth monthLength
  interval_cases month <;> split_ifs <;> first | contradiction | omega

theorem daysBeforeMonth_one (year : ℤ) : daysBeforeMonth year 1 = 0 := by
  unfold daysBeforeMonth
  simp

/-- From March on the days count back from the next year, whether there was a leap day or not. -/
theorem daysBeforeYear_add_daysBeforeMonth (year : ℤ) {month : ℤ} (h : 3 ≤ month) :
    daysBeforeYear year + daysBeforeMonth year month = daysBeforeYear (year + 1) - 367 + (367 * month - 362) / 12 := by
  rw [daysBeforeYear_succ]
  unfold daysBeforeMonth yearLength
  split_ifs <;> omega

/-- The months of a year fill it. -/
theorem daysBeforeMonth_thirteen (year : ℤ) : daysBeforeMonth year 13 = yearLength year := by
  unfold daysBeforeMonth yearLength
  split_ifs <;> omega

theorem daysBeforeMonth_le (year : ℤ) {month later : ℤ} (hlow : 1 ≤ month) (h : month < later) (hhigh : later ≤ 13) :
    daysBeforeMonth year month + monthLength year month ≤ daysBeforeMonth year later := by
  rw [← daysBeforeMonth_succ year ⟨hlow, by omega⟩]
  unfold daysBeforeMonth
  split_ifs <;> omega

namespace CivilDate

/-- The days from the epoch to a date. -/
def dayNumber (c : CivilDate) : ℤ :=
  daysBeforeYear c.year - daysBeforeYear 1970 + daysBeforeMonth c.year c.month + (c.day - 1)

theorem dayNumber_epoch : epoch.dayNumber = 0 := by decide

theorem dayNumber_next (c : CivilDate) : c.next.dayNumber = c.dayNumber + 1 := by
  have hday := c.day_mem
  have hmonth := c.month_mem
  unfold next
  split_ifs with hroom hyear
  · simp only [dayNumber]
    omega
  · have hsucc := daysBeforeMonth_succ c.year hmonth
    simp only [dayNumber]
    omega
  · have htwelve : c.month = 12 := by omega
    have hsucc := daysBeforeMonth_succ c.year hmonth
    rw [htwelve, show (12 : ℤ) + 1 = 13 by rfl, daysBeforeMonth_thirteen] at hsucc
    have hone := daysBeforeMonth_one (c.year + 1)
    have hyears := daysBeforeYear_succ c.year
    rw [htwelve] at hroom hday
    simp only [dayNumber, htwelve]
    omega

/-- **The date of day `n` is the `n`-th after the epoch.** -/
theorem dayNumber_iterate (n : ℕ) : (next^[n] epoch).dayNumber = n := by
  induction n with
  | zero => exact dayNumber_epoch
  | succ n ih =>
    rw [Function.iterate_succ_apply', dayNumber_next, ih]
    push_cast
    rfl

theorem key_lt_iff {c d : CivilDate} : c.key < d.key ↔
    c.year < d.year ∨ c.year = d.year ∧ (c.month < d.month ∨ c.month = d.month ∧ c.day < d.day) := by
  simp only [key, Prod.Lex.toLex_lt_toLex]

theorem key_injective : Function.Injective key := by
  intro c d h
  simp only [key, toLex_inj, Prod.mk.injEq] at h
  exact CivilDate.ext h.1 h.2.1 h.2.2

theorem dayNumber_lt_of_key_lt {c d : CivilDate} (h : c.key < d.key) : c.dayNumber < d.dayNumber := by
  obtain ⟨hc, hcday⟩ := c.day_mem
  obtain ⟨hd, hdday⟩ := d.day_mem
  obtain ⟨hcm, hcm'⟩ := c.month_mem
  obtain ⟨hdm, hdm'⟩ := d.month_mem
  unfold dayNumber
  rcases key_lt_iff.mp h with hyear | ⟨hyear, hmonth | ⟨hmonth, hday⟩⟩
  · -- the rest of the earlier year lies between the two dates
    have hyears := daysBeforeYear_le hyear
    have hrest := daysBeforeMonth_le c.year hcm (show c.month < 13 by omega) le_rfl
    rw [daysBeforeMonth_thirteen] at hrest
    have hstart : 0 ≤ daysBeforeMonth d.year d.month := by
      unfold daysBeforeMonth
      split_ifs <;> omega
    omega
  · have hmonths := daysBeforeMonth_le c.year hcm hmonth (by omega)
    rw [← hyear]
    omega
  · rw [← hyear, ← hmonth]
    omega

/-- **Dates are ordered as their numbers.** -/
theorem dayNumber_lt_iff {c d : CivilDate} : c.dayNumber < d.dayNumber ↔ c.key < d.key := by
  constructor
  · intro h
    by_contra hle
    rcases (not_lt.mp hle).lt_or_eq with hlt | heq
    · have := dayNumber_lt_of_key_lt hlt
      omega
    · rw [key_injective heq] at h
      exact lt_irrefl _ h
  · exact dayNumber_lt_of_key_lt

/-- **A date is known by its number.** -/
theorem dayNumber_injective : Function.Injective dayNumber := by
  intro c d h
  apply key_injective
  rcases lt_trichotomy c.key d.key with hlt | heq | hlt
  · have := dayNumber_lt_of_key_lt hlt
    omega
  · exact heq
  · have := dayNumber_lt_of_key_lt hlt
    omega

theorem eq_iterate {c : CivilDate} {n : ℕ} (h : c.dayNumber = n) : c = next^[n] epoch :=
  dayNumber_injective (h.trans (dayNumber_iterate n).symm)

end CivilDate

end AgentObservability.Foundation
