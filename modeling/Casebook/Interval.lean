import Casebook.Calendar

/-!
# Intervals of wall-clock time

An `Interval` is a span of wall-clock time whose start is not after its end. The order of the bounds
is a field of the type, so no interval is ever inverted: `Interval.ofBounds` and `Interval.withStop`
refuse bounds in the wrong order and say which, and `Interval.extend` keeps the interval it has when
the clock goes back.
-/

namespace Casebook

/-- A point of time: milliseconds since the start of 1970, UTC. -/
abbrev Millis := UInt64

/-- A span of wall-clock time. -/
structure Interval where
  start : Millis
  stop : Millis
  start_le_stop : start ≤ stop
deriving DecidableEq, Repr

namespace Interval

/-- Bounds in the wrong order. -/
structure Inverted where
  start : Millis
  stop : Millis
deriving DecidableEq, Repr

/-- The text of the refusal. -/
def Inverted.message (e : Inverted) : String :=
  s!"interval start ({e.start.toNat} ms) is after its end ({e.stop.toNat} ms)"

/-- The interval between two points of time, unless they are in the wrong order. -/
def ofBounds (start stop : Millis) : Except Inverted Interval :=
  if h : start ≤ stop then .ok ⟨start, stop, h⟩ else .error ⟨start, stop⟩

/-- The interval of no length at `now`. -/
def instant (now : Millis) : Interval := ⟨now, now, UInt64.le_refl now⟩

/-- The interval with the same start and another end, unless that end is before the start. -/
def withStop (i : Interval) (stop : Millis) : Except Inverted Interval := ofBounds i.start stop

/-- The interval grown to end at `now`. If the clock has gone back to before its end, it stays as
it is: an interval only ever grows. -/
def extend (i : Interval) (now : Millis) : Interval :=
  if h : i.stop ≤ now then ⟨i.start, now, UInt64.le_trans i.start_le_stop h⟩ else i

/-- The length in milliseconds. -/
def length (i : Interval) : Millis := i.stop - i.start

/-- When the interval starts, as a date, if the calendar reaches so far. -/
def startTime? (i : Interval) : Option DateTime := DateTime.ofMillis? i.start.toNat

/-! ## Growing

Growing keeps the start and never takes the end back. -/

theorem start_extend (i : Interval) (now : Millis) : (i.extend now).start = i.start := by
  rw [extend]
  split <;> rfl

theorem stop_le_stop_extend (i : Interval) (now : Millis) : i.stop ≤ (i.extend now).stop := by
  rw [extend]
  split
  · assumption
  · exact UInt64.le_refl i.stop

end Interval

end Casebook
