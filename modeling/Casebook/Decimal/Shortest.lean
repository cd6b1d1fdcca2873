import Casebook.Decimal.Binary64

/-!
# The shortest decimal of a double-precision number

Many decimals lie so close to a double-precision number that they are read as that number.
`Binary64.Magnitude.shortest` picks among them the multiple of the greatest power of ten, and of
several such multiples the nearest to the number. `FloatLayout` says how its digits are written.
-/

namespace Casebook

namespace Binary64.Magnitude

/-- A decimal: digits, as a number, times a power of ten. -/
structure Decimal where
  digits : Nat
  /-- The power of ten. -/
  exponent : Int
deriving DecidableEq, Repr

/-- The multiple of `10 ^ k` nearest to a positive number `x` among those that are read as `x`.
Lengths are counted in quarters of the last binary place: the decimals read as `x` are those between
the half-way points to its neighbours, these included if the significand is even. -/
def onGrid? (x : Magnitude) (k : Int) : Option Nat :=
  let (a, b) := shift 1 1 (2 - x.exponent)
  let (a, b) := if 0 ≤ k then (a, b * Nat.pow 10 k.toNat) else (a * Nat.pow 10 (-k).toNat, b)
  let middle := 4 * x.significand * a
  let halfBelow := if x.significand = Nat.pow 2 52 ∧ -1074 < x.exponent then 1 else 2
  let least := middle - halfBelow * a
  let greatest := middle + 2 * a
  let reads (n : Nat) : Bool :=
    if x.significand % 2 = 0 then least ≤ n * b && n * b ≤ greatest
    else least < n * b && n * b < greatest
  let below := middle / b
  let above := below + 1
  match reads below, reads above with
  | true, true =>
    let toBelow := middle - below * b
    let toAbove := above * b - middle
    if toBelow < toAbove ∨ (toBelow = toAbove ∧ below % 2 = 0) then some below else some above
  | true, false => some below
  | false, true => some above
  | false, false => none

/-- The decimal with the fewest digits that is read as the number. -/
def shortest (x : Magnitude) : Decimal :=
  if x.significand = 0 then ⟨0, 0⟩
  else
    ((List.range 640).findSome? fun (i : Nat) =>
      let k : Int := 310 - i
      (onGrid? x k).map fun n => ⟨n, k⟩).getD ⟨0, 0⟩

end Binary64.Magnitude

/-! ## Layout

The same digits are laid out with or without an exponent. Different writers of numbers draw the line at
different magnitudes, which is all that `FloatLayout` holds. -/

/-- How the digits of a number are laid out. -/
structure FloatLayout where
  /-- Whether a number whose first digit stands at this power of ten is written without exponent. -/
  positional : Int → Bool

namespace FloatLayout

open Binary64.Magnitude (Decimal)

/-- A decimal without exponent, with at least one digit on each side of the point. -/
def plain (d : Decimal) : String :=
  let digits := Nat.toDigits 10 d.digits
  let point : Int := digits.length + d.exponent
  if 0 ≤ d.exponent then
    String.ofList (digits ++ List.replicate d.exponent.toNat '0') ++ ".0"
  else if 0 < point then
    String.ofList (digits.take point.toNat) ++ "." ++ String.ofList (digits.drop point.toNat)
  else
    "0." ++ String.ofList (List.replicate (-point).toNat '0' ++ digits)

/-- A decimal with an exponent, which is signed and has at least two digits. -/
def scientific (d : Decimal) : String :=
  let digits := Nat.toDigits 10 d.digits
  let power : Int := digits.length + d.exponent - 1
  let tail := digits.drop 1
  String.ofList (digits.take 1) ++ (if tail.isEmpty then "" else "." ++ String.ofList tail)
    ++ (if power < 0 then "e-" else "e+")
    ++ String.ofList ((Nat.toDigits 10 power.natAbs).leftpad 2 '0')

/-- The text of a number. -/
def text (l : FloatLayout) : Binary64 → String
  | .nan => "NaN"
  | .infinite negative => if negative then "-inf" else "inf"
  | .finite negative significand exponent =>
    let d := (⟨significand, exponent⟩ : Binary64.Magnitude).shortest
    let power : Int := (Nat.toDigits 10 d.digits).length + d.exponent - 1
    (if negative then "-" else "") ++ (if l.positional power then plain d else scientific d)

/-- Numbers are written without exponent throughout. -/
def alwaysPlain : FloatLayout := ⟨fun _ => true⟩

/-- Numbers from a hundred-thousandth up to sixteen digits are written without exponent. -/
def moderatePlain : FloatLayout := ⟨fun power => -5 ≤ power && power ≤ 15⟩

end FloatLayout

end Casebook
