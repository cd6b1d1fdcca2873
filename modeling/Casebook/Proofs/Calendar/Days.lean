import Mathlib.Tactic.IntervalCases
import Casebook.Calendar

/-!
# Counting days

The days of the proleptic Gregorian calendar are counted here as the calendar lays them out: a year has
365 days or, if it is a leap year, 366, and a month has the days of its year. `daysSince` adds them up,
year by year and month by month, from the first of January of year 0.

`dateOfDays` finds a date by division instead, in years that begin in March. The two meet in
`dateOfDays_eq`: what is found is a date of the calendar, and as many days have passed up to it as were
asked for. The years are taken apart first (`exists_parts`, `exists_marchYear`), then the months of one
year (`isDate_ofMarch`).

A date ends before any later month and before any later year begins (`IsDate.lt_month`,
`IsDate.lt_year`), so days are counted in the order of dates.
-/

namespace Casebook.DateTime

/-! ## The calendar

These definitions are the rules of the calendar and no more. They count; nothing is divided. -/

def daysInYear (year : Nat) : Nat := if isLeap year then 366 else 365

/-- The days of the years before a year, from year 0. -/
def daysBeforeYear : Nat → Nat
  | 0 => 0
  | year + 1 => daysBeforeYear year + daysInYear year

/-- The days of the months before a month, in its year. -/
def daysBeforeMonth (year : Nat) : Nat → Nat
  | 0 | 1 => 0
  | month + 2 => daysBeforeMonth year (month + 1) + daysInMonth year (month + 1)

/-- The days from the first of January of year 0 to a date. -/
def daysSince (year month day : Nat) : Nat :=
  daysBeforeYear year + daysBeforeMonth year month + (day - 1)

/-- A date that the calendar has. -/
structure IsDate (year month day : Nat) : Prop where
  month_pos : 1 ≤ month
  month_le : month ≤ 12
  day_pos : 1 ≤ day
  day_le : day ≤ daysInMonth year month

/-! ## Years

The cycle of the calendar has 400 years, and is taken apart into centuries, groups of four years and
years. Counted from March, the leap day is the last day of its year, so that all years of a group, all
groups of a century and all centuries of a cycle begin alike. All that is left is arithmetic on quotients. -/

theorem isLeap_iff (year : Nat) :
    isLeap year = true ↔ year % 4 = 0 ∧ (year % 100 ≠ 0 ∨ year % 400 = 0) := by
  simp [isLeap]

/-- The days of the years up to a year, by its multiples of 4, 100 and 400. -/
theorem daysBeforeYear_succ (year : Nat) :
    daysBeforeYear (year + 1) + year / 100 = 365 * year + year / 4 + year / 400 + 366 := by
  induction year with
  | zero => rfl
  | succ year ih =>
    have hleap := isLeap_iff (year + 1)
    rw [daysBeforeYear, daysInYear]
    by_cases hfour : (year + 1) % 4 = 0
    · by_cases hcentury : (year + 1) % 100 = 0
      · by_cases hcycle : (year + 1) % 400 = 0
        · rw [if_pos (hleap.2 ⟨hfour, .inr hcycle⟩)]
          omega
        · rw [if_neg fun h => (hleap.1 h).2.elim (fun hne => hne hcentury) hcycle]
          omega
      · rw [if_pos (hleap.2 ⟨hfour, .inl hcentury⟩)]
        omega
    · have hcentury : (year + 1) / 100 = year / 100 := by omega
      have hcycle : (year + 1) / 400 = year / 400 := by omega
      rw [if_neg fun h => hfour (hleap.1 h).1, hcentury, hcycle]
      omega

/-- The date of a day of a year that begins in March, where days count from 0. -/
def ofMarch (year day : Nat) : Nat × Nat × Nat :=
  let month := (5 * day + 2) / 153
  let dayOfMonth := day - (153 * month + 2) / 5 + 1
  if month < 10 then (year, month + 3, dayOfMonth) else (year + 1, month - 9, dayOfMonth)

/-- A number of days as cycles of 400 years, centuries, groups of four years, years and days. A year
has a 366th day only at the end of its group, and at the end of its century only if the cycle ends too. -/
theorem exists_parts (days : Nat) : ∃ cycle century group year day,
    dateOfDays days = ofMarch (400 * cycle + 100 * century + 4 * group + year) day
      ∧ days = 146097 * cycle + 36524 * century + 1461 * group + 365 * year + day
      ∧ (century ≤ 3 ∧ group ≤ 24 ∧ year ≤ 3 ∧ day ≤ 365)
      ∧ (day = 365 → year = 3 ∧ (group = 24 → century = 3)) := by
  obtain ⟨dayOfCycle, hcycle⟩ : ∃ d, d = days % 146097 := ⟨_, rfl⟩
  obtain ⟨century, hcentury⟩ : ∃ c, c = min 3 (dayOfCycle / 36524) := ⟨_, rfl⟩
  obtain ⟨dayOfCentury, hdayOfCentury⟩ : ∃ d, d = dayOfCycle - century * 36524 := ⟨_, rfl⟩
  obtain ⟨dayOfGroup, hgroup⟩ : ∃ d, d = dayOfCentury % 1461 := ⟨_, rfl⟩
  obtain ⟨year, hyear⟩ : ∃ y, y = min 3 (dayOfGroup / 365) := ⟨_, rfl⟩
  have hdate : dateOfDays days
      = ofMarch (400 * (days / 146097) + 100 * century + 4 * (dayOfCentury / 1461) + year)
        (dayOfGroup - year * 365) := by
    subst hyear hgroup hdayOfCentury hcentury hcycle
    rfl
  -- the last century of a cycle and the last year of a group are a day longer than the others
  have hlt : dayOfCycle < 146097 := by omega
  have hcentury_le : century ≤ 3 := by omega
  have hcentury_eq : dayOfCycle = 36524 * century + dayOfCentury := by omega
  have hcentury_long : dayOfCentury ≤ 36524 := by omega
  have hcentury_last : dayOfCentury = 36524 → century = 3 := by omega
  have hyear_le : year ≤ 3 := by omega
  have hyear_eq : year * 365 ≤ dayOfGroup := by omega
  have hyear_long : dayOfGroup - year * 365 ≤ 365 := by omega
  have hyear_last : dayOfGroup - year * 365 = 365 → year = 3 := by omega
  clear hcentury hdayOfCentury hyear
  refine ⟨_, _, _, _, _, hdate, ?_, ⟨hcentury_le, ?_, hyear_le, hyear_long⟩,
    fun h => ⟨hyear_last h, fun hg => hcentury_last ?_⟩⟩
  · omega
  · omega
  · omega

/-- A number of days from the first of March of year 0 as whole years, which begin in March, and the days
after them. Only a year that ends with a leap day has a 366th one. -/
theorem exists_marchYear (days : Nat) : ∃ year day,
    dateOfDays days = ofMarch year day
      ∧ days + year / 100 = 365 * year + year / 4 + year / 400 + day
      ∧ day ≤ 365 ∧ (day = 365 → isLeap (year + 1) = true) := by
  obtain ⟨cycle, century, group, y, day, hdate, hdays, ⟨hcentury, hgroup, hy, hday⟩, hlast⟩ :=
    exists_parts days
  have hfour : (400 * cycle + 100 * century + 4 * group + y) / 4
      = 100 * cycle + 25 * century + group := by omega
  have hhundred : (400 * cycle + 100 * century + 4 * group + y) / 100 = 4 * cycle + century := by
    omega
  have hfourHundred : (400 * cycle + 100 * century + 4 * group + y) / 400 = cycle := by omega
  refine ⟨_, _, hdate, ?_, hday, fun h => ?_⟩
  · rw [hfour, hhundred, hfourHundred]
    omega
  · obtain ⟨rfl, hcycle⟩ := hlast h
    refine (isLeap_iff _).2 ⟨by omega, ?_⟩
    by_cases hend : group = 24
    · exact .inr (by omega)
    · exact .inl (by omega)

/-! ## Months

Counted from March too, the lengths of months do not depend on the year up to the last month, February.
Its leap day is the only day of a year that needs the year to have one. -/

theorem daysInMonth_le (year month : Nat) : daysInMonth year month ≤ 31 := by
  unfold daysInMonth
  split
  · split <;> decide
  all_goals decide

/-- From March on, the days of months come in a pattern of 153 days for five months. -/
theorem daysBeforeMonth_eq (year month : Nat) (hlow : 3 ≤ month) (hhigh : month ≤ 12) :
    daysBeforeMonth year month + 306 = daysInYear year + (153 * (month - 3) + 2) / 5 := by
  have hfebruary : daysInMonth year 2 + 337 = daysInYear year := by
    rw [daysInMonth, daysInYear]
    split <;> rfl
  interval_cases month <;> simp only [daysBeforeMonth, daysInMonth] at hfebruary ⊢ <;> omega

theorem marchMonth_bounds {day : Nat} (h : day ≤ 365) :
    (5 * day + 2) / 153 ≤ 11 ∧ (153 * ((5 * day + 2) / 153) + 2) / 5 ≤ day := by
  omega

/-- The day is a date of the calendar. From the first of January of `year` to the March in which its count
begins the days are those of the whole year but for 306. -/
theorem isDate_ofMarch (year : Nat) {day : Nat} (hday : day ≤ 365)
    (hlast : day = 365 → isLeap (year + 1) = true) :
    ∃ y m d, ofMarch year day = (y, m, d) ∧ IsDate y m d
      ∧ daysSince y m d + 306 = daysBeforeYear (year + 1) + day := by
  obtain ⟨month, hmonth⟩ : ∃ m, m = (5 * day + 2) / 153 := ⟨_, rfl⟩
  obtain ⟨hle, hbefore⟩ := marchMonth_bounds hday
  rw [ofMarch, ← hmonth]
  rw [← hmonth] at hle hbefore
  by_cases hten : month < 10
  · refine ⟨_, _, _, if_pos hten, ⟨by omega, by omega, by omega, ?_⟩, ?_⟩
    · interval_cases month <;> simp only [daysInMonth] <;> omega
    · have hmonths := daysBeforeMonth_eq year (month + 3) (by omega) (by omega)
      rw [daysSince, daysBeforeYear]
      omega
  · -- January and February belong to the next year, and only February minds whether it is a leap year
    have hlate : month = 10 ∨ month = 11 := by omega
    rcases hlate with rfl | rfl
    · refine ⟨year + 1, 1, day - 306 + 1, if_neg hten, ⟨by omega, by omega, by omega, ?_⟩, ?_⟩
      · simp only [daysInMonth]
        omega
      · simp only [daysSince, daysBeforeMonth]
        omega
    · refine ⟨year + 1, 2, day - 337 + 1, if_neg hten, ⟨by omega, by omega, by omega, ?_⟩, ?_⟩
      · simp only [daysInMonth]
        split
        · omega
        · next hcommon =>
          have hne : day ≠ 365 := fun h => hcommon (hlast h)
          omega
      · simp only [daysSince, daysBeforeMonth, daysInMonth]
        omega

/-- The date that is found for a number of days from the first of March of year 0 is a date of the
calendar, and so many days have passed up to it. January and February of year 0 are the other 60. -/
theorem dateOfDays_eq (days : Nat) : ∃ year month day,
    dateOfDays days = (year, month, day) ∧ IsDate year month day
      ∧ daysSince year month day = days + 60 := by
  obtain ⟨marchYear, dayOfYear, hdate, hdays, hle, hlast⟩ := exists_marchYear days
  obtain ⟨year, month, day, hmarch, hisDate, hsince⟩ := isDate_ofMarch marchYear hle hlast
  have hyears := daysBeforeYear_succ marchYear
  exact ⟨year, month, day, hdate.trans hmarch, hisDate, by omega⟩

/-! ## The order of dates

Days are counted in the order of dates because a date stays within its month and its year. -/

theorem daysBeforeYear_mono {y z : Nat} (h : y ≤ z) : daysBeforeYear y ≤ daysBeforeYear z := by
  induction h with
  | refl => exact Nat.le_refl _
  | step _ ih => exact Nat.le_trans ih (Nat.le_add_right _ _)

theorem daysBeforeMonth_mono (year : Nat) {m n : Nat} (h : m ≤ n) :
    daysBeforeMonth year m ≤ daysBeforeMonth year n := by
  induction h with
  | refl => exact Nat.le_refl _
  | @step n _ ih =>
    refine Nat.le_trans ih ?_
    cases n with
    | zero => exact Nat.le_refl 0
    | succ n => exact Nat.le_add_right _ _

theorem daysBeforeMonth_succ (year : Nat) {month : Nat} (h : 1 ≤ month) :
    daysBeforeMonth year (month + 1) = daysBeforeMonth year month + daysInMonth year month := by
  cases month with
  | zero => cases h
  | succ month => rfl

/-- A date ends before the next month does. -/
theorem IsDate.lt_month {year month day : Nat} (h : IsDate year month day) {later : Nat}
    (hlater : month < later) :
    daysBeforeMonth year month + (day - 1) < daysBeforeMonth year later := by
  have hnext := daysBeforeMonth_succ year h.month_pos
  have hmono : daysBeforeMonth year (month + 1) ≤ daysBeforeMonth year later :=
    daysBeforeMonth_mono year hlater
  have hday := h.day_le
  have hpos := h.day_pos
  omega

theorem IsDate.lt_year {year month day : Nat} (h : IsDate year month day) {later : Nat}
    (hlater : year < later) : daysSince year month day < daysBeforeYear later := by
  have hmonth : daysBeforeMonth year month + (day - 1) < daysBeforeMonth year 13 :=
    h.lt_month (Nat.lt_succ_of_le h.month_le)
  have hyear : daysBeforeMonth year 13 = daysInYear year := by
    have hdecember : daysBeforeMonth year 13 = daysBeforeMonth year 12 + 31 := rfl
    have hbefore := daysBeforeMonth_eq year 12 (by decide) (by decide)
    omega
  have hmono : daysBeforeYear year + daysInYear year ≤ daysBeforeYear later :=
    daysBeforeYear_mono hlater
  rw [daysSince]
  omega

end Casebook.DateTime
