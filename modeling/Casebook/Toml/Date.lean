import Casebook.Calendar
import Casebook.Toml.Reader

/-!
# Dates and times in TOML

`isDate` and `isMoment` tell whether a text is a date, or a date or time of any of the forms that
TOML has: a date, a time of day, or both, and with both an offset from UTC. The seconds may be left
out, and a minute may have a leap second.
-/

namespace Casebook.Toml.Date

open Reader

/-- Reads a number of a fixed count of digits, which has to lie within bounds. -/
def number (count least greatest : Nat) : Reader Nat := do
  let digits ← takeExactly count
  let n := Nat.ofDigitChars 10 digits 0
  if digits.all Char.isDigit && least ≤ n && n ≤ greatest then return n else failure

/-- Reads a date: four digits of the year, two of the month, two of the day. -/
def date : Reader Unit := do
  let year ← number 4 0 9999
  expect ['-']
  let month ← number 2 1 12
  expect ['-']
  discard (number 2 1 (DateTime.daysInMonth year month))

/-- Reads the digits of a fraction of a second, if a point stands in front. -/
def fraction : Reader Unit := do
  if ← accept ['.'] then
    let digits ← takeWhile Char.isDigit
    if digits.isEmpty then failure

/-- Reads a time of day. -/
def time : Reader Unit := do
  discard (number 2 0 23)
  expect [':']
  discard (number 2 0 59)
  if ← accept [':'] then
    discard (number 2 0 60)
    fraction

/-- Reads an offset from UTC, if there is one. -/
def offset : Reader Unit := do
  if ← acceptOne ['Z', 'z'] then return
  else if ← acceptOne ['+', '-'] then
    discard (number 2 0 23)
    expect [':']
    discard (number 2 0 59)

/-- Reads a time of day with its offset, if something stands between it and a date. -/
def timeAfterDate : Reader Unit := do
  if ← acceptOne ['T', 't', ' '] then
    time
    offset

/-- Reads a date, and a time of day if there is one. -/
def dateAndTime : Reader Unit := do
  date
  timeAfterDate

/-- Whether a text is a date. -/
def isDate (cs : List Char) : Bool := (whole? date cs).isSome

/-- Whether a text is a date, a time of day, or both. -/
def isMoment (cs : List Char) : Bool := (whole? dateAndTime cs).isSome || (whole? time cs).isSome

end Casebook.Toml.Date
