import Casebook.Decimal.Binary64
import Casebook.Json.Basic
import Casebook.Word

/-!
# The value of a JSON number

`Json.Numeral.value?` is the value of a numeral: an integer of 64 bits where the numeral is one, and
otherwise a double-precision number. Such a number is found quickly and not always exactly: as many
leading digits as fit 64 bits are taken as an integer, the others only count as powers of ten, and
the integer is multiplied or divided by that power, rounding at each step.
-/

namespace Casebook.Json.Numeral

/-- The greatest integer of 64 bits. -/
def maxWord : Nat := Word.count 64 - 1

/-- The value of a numeral. -/
inductive Value where
  | integer (n : Int)
  /-- A number that is not written as an integer, or is too large for one. -/
  | float (x : Binary64)
deriving DecidableEq, Repr

/-- Appends digits to an integer as long as it fits 64 bits, and gives the digits that are left. -/
def appendDigits (n : Nat) : List Char → Nat × List Char
  | [] => (n, [])
  | c :: cs =>
    let m := 10 * n + (c.toNat - '0'.toNat)
    if m ≤ maxWord then appendDigits m cs else (n, c :: cs)

/-- A power of ten, which has to be at most `10 ^ 308`. -/
def powerOfTen (n : Nat) : Option Binary64.Magnitude := Binary64.round (Nat.pow 10 n) 1

/-- Divides by a number several times over. -/
def divideRepeatedly (y : Binary64.Magnitude) :
    Nat → Binary64.Magnitude → Option Binary64.Magnitude
  | 0, x => some x
  | times + 1, x =>
    if x.significand = 0 then some x else x.div y >>= divideRepeatedly y times

/-- Divides by `10 ^ n`, at most 308 powers of ten at a time. -/
def divideByTens (x : Binary64.Magnitude) (n : Nat) : Option Binary64.Magnitude := do
  let times := (n - 1) / 308
  let most ← powerOfTen 308
  let y ← divideRepeatedly most times x
  y.div (← powerOfTen (n - 308 * times))

/-- The double-precision number for `n * 10 ^ e`, or `none` if it is too large. -/
def scale (n : Nat) (e : Int) : Option Binary64.Magnitude := do
  let x ← Binary64.round n 1
  if e < 0 then divideByTens x (-e).toNat
  else if e ≤ 308 then powerOfTen e.toNat >>= x.mul
  else if n = 0 then some x
  else none

/-- The greatest exponent that is computed with. -/
def maxPower : Nat := Word.count 31 - 1

/-- The double-precision number for `n * 10 ^ e`, times the power of ten of an exponent. An exponent
beyond `maxPower` makes zero or a number that is too large. -/
def scaleBy (n : Nat) (e : Int) : Option (Bool × List Char) → Option Binary64.Magnitude
  | none => scale n e
  | some (negative, digits) =>
    let power := Nat.ofDigitChars 10 digits 0
    if maxPower < power then
      if n ≠ 0 ∧ negative = false then none else some .zero
    else if negative then scale n (e - power)
    else scale n (e + power)

/-- The value, or `none` for a number that is too large. -/
def value? (n : Numeral) : Option Value :=
  let (whole, left) := appendDigits 0 n.whole
  if left.isEmpty && n.fraction.isNone && n.exponent.isNone then
    if n.negative = false then some (.integer whole)
    else if 0 < whole ∧ whole ≤ Word.count 63 then some (.integer (-whole))
    else (Binary64.round whole 1).map fun x => .float (x.signed true)
  else
    let digits := n.fraction.getD []
    let (significand, unused) := appendDigits whole digits
    let e : Int := left.length - (digits.length - unused.length)
    (scaleBy significand e n.exponent).map fun x => .float (x.signed n.negative)

end Casebook.Json.Numeral
