import Mathlib.Data.List.Lex
import Casebook.Proofs.Calendar.Days

/-!
# Moments of the calendar

A `DateTime` is a moment of the calendar if its date is one and its time of day is in bounds
(`DateTime.IsMoment`). `DateTime.sinceEpoch` counts the milliseconds up to it from the start of 1970, day by
day. What is found for a number of milliseconds is a moment that so many milliseconds lead up to
(`DateTime.isMoment_ofMillis`, `DateTime.sinceEpoch_ofMillis`).

Moments are compared by their numbers, from the year down (`DateTime.Before`). This is the order of time
(`DateTime.before_iff`).
-/

namespace Casebook.DateTime

variable {t t' : DateTime}

/-! ## Moments and milliseconds

The time of day is a number below that of the milliseconds in a day, so days and times of day do not get
into each other, and both can be found back in their sum. -/

/-- A moment that the calendar has. -/
structure IsMoment (t : DateTime) : Prop extends IsDate t.year t.month t.day where
  hour_lt : t.hour < 24
  minute_lt : t.minute < 60
  second_lt : t.second < 60
  milli_lt : t.milli < 1000

def dayCount (t : DateTime) : Nat := daysSince t.year t.month t.day

def millisOfDay (t : DateTime) : Nat :=
  t.hour * 3600000 + t.minute * 60000 + t.second * 1000 + t.milli

/-- The milliseconds from the start of 1970 to a moment, which are negative for one before it. -/
def sinceEpoch (t : DateTime) : Int :=
  ((t.dayCount : Int) - daysSince 1970 1 1) * 86400000 + t.millisOfDay

theorem millisOfDay_lt (h : t.IsMoment) : t.millisOfDay < 86400000 := by
  have hhour := h.hour_lt
  have hminute := h.minute_lt
  have hsecond := h.second_lt
  have hmilli := h.milli_lt
  rw [millisOfDay]
  omega

theorem daysSince_epoch : daysSince 1970 1 1 = daysBeforeEpoch + 60 := by
  have hyears : daysBeforeYear 1970 + 1969 / 100 = 365 * 1969 + 1969 / 4 + 1969 / 400 + 366 :=
    daysBeforeYear_succ 1969
  simp only [daysSince, daysBeforeMonth, daysBeforeEpoch]
  omega

theorem ofMillis_eq {millis year month day : Nat}
    (h : dateOfDays (millis / 86400000 + daysBeforeEpoch) = (year, month, day)) :
    ofMillis millis = ⟨year, month, day, millis % 86400000 / 3600000,
      millis % 86400000 / 60000 % 60, millis % 86400000 / 1000 % 60, millis % 86400000 % 1000⟩ := by
  -- unfolded as a function, since the kernel would run `dateOfDays` to compare two of its values
  suffices hall : ∀ f, f = ofMillis → f millis = _ from hall ofMillis rfl
  delta ofMillis
  rintro f rfl
  beta_reduce
  rw [h]

theorem isMoment_ofMillis (millis : Nat) : (ofMillis millis).IsMoment := by
  obtain ⟨year, month, day, hdate, hisDate, -⟩ := dateOfDays_eq (millis / 86400000 + daysBeforeEpoch)
  rw [ofMillis_eq hdate]
  refine ⟨hisDate, ?_, ?_, ?_, ?_⟩ <;> simp only <;> omega

theorem sinceEpoch_ofMillis (millis : Nat) : (ofMillis millis).sinceEpoch = millis := by
  obtain ⟨year, month, day, hdate, -, hsince⟩ := dateOfDays_eq (millis / 86400000 + daysBeforeEpoch)
  rw [ofMillis_eq hdate]
  simp only [sinceEpoch, dayCount, millisOfDay, hsince, daysSince_epoch]
  omega

/-! ## The order of moments

The order of numbers from the year down is what a reader of dates goes by. It is total, so it is enough to
show that an earlier moment has fewer milliseconds before it. -/

def numbers (t : DateTime) : List Nat :=
  [t.year, t.month, t.day, t.hour, t.minute, t.second, t.milli]

/-- The first number that differs is the smaller one. -/
def Before (t t' : DateTime) : Prop := List.Lex (· < ·) t.numbers t'.numbers

theorem eq_of_numbers_eq (h : t.numbers = t'.numbers) : t = t' := by
  cases t
  cases t'
  simpa [numbers] using h

theorem before_iff_or : t.Before t' ↔ t.year < t'.year ∨ t.year = t'.year ∧ (t.month < t'.month
    ∨ t.month = t'.month ∧ (t.day < t'.day ∨ t.day = t'.day ∧ (t.hour < t'.hour
    ∨ t.hour = t'.hour ∧ (t.minute < t'.minute ∨ t.minute = t'.minute ∧ (t.second < t'.second
    ∨ t.second = t'.second ∧ t.milli < t'.milli))))) := by
  simp [Before, numbers, List.cons_lex_cons_iff]

theorem before_or_eq_or_before (t t' : DateTime) : t.Before t' ∨ t = t' ∨ t'.Before t :=
  (trichotomous_of (List.Lex (· < ·)) t.numbers t'.numbers).imp_right
    (Or.imp_left eq_of_numbers_eq)

/-- Fewer days lead up to an earlier date, or the same and less of the day. -/
theorem dayCount_lt_or_of_before (ht : t.IsMoment) (h : t.Before t') :
    t.dayCount < t'.dayCount
      ∨ t.dayCount = t'.dayCount ∧ t.millisOfDay < t'.millisOfDay := by
  rcases before_iff_or.1 h with hyear | ⟨hyear, hmonth | ⟨hmonth, hday | ⟨hday, htime⟩⟩⟩
  · left
    have hlt : t.dayCount < daysBeforeYear t'.year := ht.lt_year hyear
    have hle : daysBeforeYear t'.year ≤ t'.dayCount := by
      rw [dayCount, daysSince]
      omega
    omega
  · left
    have hlt := ht.lt_month hmonth
    rw [dayCount, dayCount, daysSince, daysSince, ← hyear]
    rw [hyear] at hlt ⊢
    omega
  · left
    have hpos := ht.day_pos
    rw [dayCount, dayCount, daysSince, daysSince, hyear, hmonth]
    omega
  · right
    have hminute := ht.minute_lt
    have hsecond := ht.second_lt
    have hmilli := ht.milli_lt
    refine ⟨by rw [dayCount, dayCount, hyear, hmonth, hday], ?_⟩
    rw [millisOfDay, millisOfDay]
    omega

theorem sinceEpoch_lt_of_before (ht : t.IsMoment) (h : t.Before t') :
    t.sinceEpoch < t'.sinceEpoch := by
  have hlt := millisOfDay_lt ht
  rw [sinceEpoch, sinceEpoch]
  rcases dayCount_lt_or_of_before ht h with hday | ⟨hday, htime⟩
  · omega
  · omega

/-- One moment is before another if and only if fewer milliseconds lead up to it. -/
theorem before_iff (ht : t.IsMoment) (ht' : t'.IsMoment) :
    t.Before t' ↔ t.sinceEpoch < t'.sinceEpoch := by
  refine ⟨sinceEpoch_lt_of_before ht, fun h => ?_⟩
  rcases before_or_eq_or_before t t' with hbefore | rfl | hafter
  · exact hbefore
  · exact absurd h (Int.lt_irrefl _)
  · exact absurd (sinceEpoch_lt_of_before ht' hafter) (Int.not_lt.2 (Int.le_of_lt h))

end Casebook.DateTime
