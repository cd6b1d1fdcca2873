/-!
# Calendar time

`DateTime` is a moment of UTC time on the proleptic Gregorian calendar, to the millisecond, and
`DateTime.ofMillis` finds it from the milliseconds since the start of 1970. Days are numbered in
cycles of 400 years that begin on the first of March of a year divisible by 400, so that a leap day is
the last day of its year, of its group of four years and of its century.
-/

namespace Casebook

/-- A moment of UTC time. -/
structure DateTime where
  year : Nat
  /-- The month, from 1. -/
  month : Nat
  /-- The day of the month, from 1. -/
  day : Nat
  hour : Nat
  minute : Nat
  second : Nat
  milli : Nat
deriving DecidableEq, Repr

namespace DateTime

/-! ## Days

The date of a day is found by division. Within a cycle of 400 years, all centuries but the last have the
same length, and so have all years of a group but the last, hence the two minima. -/

/-- The years that have a 29th of February. -/
def isLeap (year : Nat) : Bool :=
  year % 4 = 0 && (year % 100 ≠ 0 || year % 400 = 0)

/-- The number of days in a month of a year. -/
def daysInMonth (year month : Nat) : Nat :=
  match month with
  | 2 => if isLeap year then 29 else 28
  | 4 | 6 | 9 | 11 => 30
  | _ => 31

/-- The days from the first of March of year 0 to the start of 1970. -/
def daysBeforeEpoch : Nat := 719468

/-- The year, month and day that lie `days` days after the first of March of year 0. A year is
counted from March, so its last two months belong to the next calendar year. -/
def dateOfDays (days : Nat) : Nat × Nat × Nat :=
  let cycle := days / 146097
  let dayOfCycle := days % 146097
  -- the last century of a cycle is a day longer than the others, and so is the last year of a group
  let century := min 3 (dayOfCycle / 36524)
  let dayOfCentury := dayOfCycle - century * 36524
  let group := dayOfCentury / 1461
  let dayOfGroup := dayOfCentury % 1461
  let yearOfGroup := min 3 (dayOfGroup / 365)
  let dayOfYear := dayOfGroup - yearOfGroup * 365
  let marchMonth := (5 * dayOfYear + 2) / 153
  let day := dayOfYear - (153 * marchMonth + 2) / 5 + 1
  let marchYear := 400 * cycle + 100 * century + 4 * group + yearOfGroup
  if marchMonth < 10 then (marchYear, marchMonth + 3, day) else (marchYear + 1, marchMonth - 9, day)

/-! ## Milliseconds

Dates are given up to a fixed moment, as far as the calendar in use goes. -/

/-- The moment `millis` milliseconds after the start of 1970. -/
def ofMillis (millis : Nat) : DateTime :=
  let ofDay := millis % 86400000
  let (year, month, day) := dateOfDays (millis / 86400000 + daysBeforeEpoch)
  { year, month, day
    hour := ofDay / 3600000
    minute := ofDay / 60000 % 60
    second := ofDay / 1000 % 60
    milli := ofDay % 1000 }

/-- The last moment that is given a date: the end of the year 262142. -/
def lastMillis : Nat := 8210266876799999

/-- The moment `millis` milliseconds after the start of 1970, if it has a date. -/
def ofMillis? (millis : Nat) : Option DateTime :=
  if millis ≤ lastMillis then some (ofMillis millis) else none

/-! ## Text

All numbers have fixed widths but for years of more than four digits. -/

/-- A number in decimal, with zeros in front up to a width. -/
def padded (width n : Nat) : String :=
  String.ofList ((Nat.toDigits 10 n).leftpad width '0')

/-- The year in four digits; a longer one has a plus sign. -/
def yearText (year : Nat) : String :=
  if year ≤ 9999 then padded 4 year else "+" ++ padded 4 year

/-- The moment as text: date, `T`, time to three fraction digits, `Z`. -/
def text (t : DateTime) : String :=
  yearText t.year ++ "-" ++ padded 2 t.month ++ "-" ++ padded 2 t.day ++ "T" ++ padded 2 t.hour ++ ":"
    ++ padded 2 t.minute ++ ":" ++ padded 2 t.second ++ "." ++ padded 3 t.milli ++ "Z"

end DateTime

end Casebook
