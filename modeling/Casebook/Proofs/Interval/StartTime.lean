import Casebook.Junit.Case
import Casebook.Proofs.Calendar.Rendering
import Casebook.Proofs.Interval.Order

/-!
# When an interval starts

The start of an interval is a number of milliseconds, and it is shown as a moment of the calendar up to the
last one that has a date (`DateTime.lastMillis`). `Interval.startTime_exact` says that nothing is lost or
made up by that: counting the days of the calendar up to the moment gives the number again, the text of the
moment shows it and nothing else, and moments stand in the order of the numbers. Beyond the last moment
there is none, and a case in a report then still has its length.
-/

namespace Casebook.Interval

/-! ## The last moment

Only one thing can go wrong with a start: the calendar ends long before 64-bit milliseconds do. -/

theorem startTime?_eq_none_iff (i : Interval) :
    i.startTime? = none ↔ DateTime.lastMillis < i.start.toNat := by
  rw [startTime?, DateTime.ofMillis?]
  split
  · next h => exact ⟨nofun, fun hlt => absurd h (Nat.not_le.2 hlt)⟩
  · next h => exact ⟨fun _ => Nat.not_le.1 h, fun _ => rfl⟩

theorem eq_ofMillis_of_startTime? {i : Interval} {t : DateTime} (h : i.startTime? = some t) :
    t = .ofMillis i.start.toNat := by
  rw [startTime?, DateTime.ofMillis?] at h
  split at h
  · exact (Option.some.inj h).symm
  · cases h

/-! ## The time of a start

What a moment of the calendar is, how many milliseconds lead up to it and what its text shows are all said
without the conversion that `startTime?` makes (`DateTime.IsMoment`, `DateTime.sinceEpoch`,
`DateTime.Shows`), so that the conversion can be measured against them. -/

/-- The time at which an interval starts, in five parts.
1. It is missing if and only if the start lies beyond the last moment with a date.
2. That is so for every start that does not fit 63 bits.
3. Otherwise it is a moment of the calendar, the milliseconds that lead up to it are the start, and its text
   shows it and no other moment.
4. Two intervals have the same time, or the same text for it, if and only if they have the same start, and
   the earlier time belongs to the smaller start.
5. The case of a result has this time for its timestamp, and the length of the interval with it or
   without. -/
theorem startTime_exact :
    (∀ i : Interval, i.startTime? = none ↔ 8210266876799999 < i.start.toNat)
    ∧ (∀ i : Interval, Word.count 63 ≤ i.start.toNat → i.startTime? = none)
    ∧ (∀ (i : Interval) (t : DateTime), i.startTime? = some t →
      t.IsMoment ∧ t.sinceEpoch = i.start.toNat
        ∧ t.Shows t.text.toList ∧ ∀ t' : DateTime, t'.Shows t.text.toList → t' = t)
    ∧ (∀ (i i' : Interval) (t t' : DateTime), i.startTime? = some t → i'.startTime? = some t' →
      (t = t' ↔ i.start = i'.start) ∧ (t.text = t'.text ↔ i.start = i'.start)
        ∧ (t.Before t' ↔ i.start < i'.start))
    ∧ ∀ (r : Result) (i : Interval), r.interval? = some i →
      (Junit.Case.ofResult r).timestamp? = i.startTime?
        ∧ ∃ time, (Junit.Case.ofResult r).time? = some time
          ∧ time.toNat = i.stop.toNat - i.start.toNat := by
  have hmoment {i : Interval} {t : DateTime} (h : i.startTime? = some t) :
      t.IsMoment ∧ t.sinceEpoch = i.start.toNat := by
    rw [eq_ofMillis_of_startTime? h]
    exact ⟨DateTime.isMoment_ofMillis _, DateTime.sinceEpoch_ofMillis _⟩
  refine ⟨startTime?_eq_none_iff, fun i h => ?_, fun i t h => ?_, fun i i' t t' h h' => ?_,
    fun r i h => ?_⟩
  · exact (startTime?_eq_none_iff i).2 (Nat.lt_of_lt_of_le (by decide) h)
  · obtain ⟨hisMoment, hsince⟩ := hmoment h
    have hshows := DateTime.shows_text hisMoment
    exact ⟨hisMoment, hsince, hshows, fun t' ht' => DateTime.eq_of_shows ht' hshows⟩
  · obtain ⟨hisMoment, hsince⟩ := hmoment h
    obtain ⟨hisMoment', hsince'⟩ := hmoment h'
    have htime : t = t' ↔ i.start = i'.start := by
      constructor
      · rintro rfl
        exact UInt64.toNat_inj.1 (Int.ofNat_inj.1 (hsince.symm.trans hsince'))
      · intro hstart
        rw [eq_ofMillis_of_startTime? h, eq_ofMillis_of_startTime? h', hstart]
    -- a text shows one moment only
    have htext : t.text = t'.text ↔ t = t' := by
      refine ⟨fun heq => ?_, congrArg DateTime.text⟩
      have hshows := DateTime.shows_text hisMoment
      rw [heq] at hshows
      exact DateTime.eq_of_shows hshows (DateTime.shows_text hisMoment')
    refine ⟨htime, htext.trans htime, ?_⟩
    rw [DateTime.before_iff hisMoment hisMoment', hsince, hsince', Int.ofNat_lt,
      UInt64.lt_iff_toNat_lt]
  · have hlength := i.start_add_length
    refine ⟨?_, i.length, ?_, by omega⟩
    · rw [Junit.Case.ofResult, h, Option.bind_some]
    · rw [Junit.Case.ofResult, h, Option.map_some]

/-- The last moment that has a date. -/
example : (DateTime.ofMillis DateTime.lastMillis).text = "+262142-12-31T23:59:59.999Z" := by decide

/-- An interval that starts on a leap day, and one that starts right after the last moment. -/
theorem startTime_exact_leap_day :
    let i : Interval := ⟨951782400123, 951868800000, by decide⟩
    let late : Interval := ⟨8210266876800000, 8210266876800007, by decide⟩
    let t : DateTime := ⟨2000, 2, 29, 0, 0, 0, 123⟩
    let r : Result := { Result.blank with interval? := some late }
    i.startTime? = some t ∧ t.sinceEpoch = 951782400123
      ∧ t.Shows "2000-02-29T00:00:00.123Z".toList
      ∧ (Junit.Case.ofResult r).timestamp? = none
      ∧ ∃ time, (Junit.Case.ofResult r).time? = some time ∧ time.toNat = 7 := by
  intro i late t r
  obtain ⟨hnone, -, hsome, -, hcase⟩ := startTime_exact
  have htime : i.startTime? = some t := by decide
  have hlate : late.startTime? = none := (hnone late).2 (by decide)
  have hstart : i.start.toNat = 951782400123 := by decide
  have htext : t.text = "2000-02-29T00:00:00.123Z" := by decide
  have hseven : late.stop.toNat - late.start.toNat = 7 := by decide
  obtain ⟨-, hsince, hshows, -⟩ := hsome i t htime
  obtain ⟨hstamp, time, htime', hlength⟩ := hcase r late rfl
  rw [hstart] at hsince
  rw [htext] at hshows
  rw [hseven] at hlength
  exact ⟨htime, hsince, hshows, hstamp.trans hlate, time, htime', hlength⟩

end Casebook.Interval
