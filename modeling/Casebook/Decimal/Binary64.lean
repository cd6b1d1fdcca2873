/-!
# Double-precision numbers

A `Binary64` is a number that fits a binary floating point word of 64 bits, or an infinity, or not a
number. Finite ones are a sign and `significand * 2 ^ exponent`; all arithmetic is exact on naturals,
followed by `Binary64.round`, which goes to the nearest such number, a tie going to the even
significand.
-/

namespace Casebook

/-- A double-precision number. -/
inductive Binary64 where
  | nan
  | infinite (negative : Bool)
  /-- The number `significand * 2 ^ exponent`, or its negation. -/
  | finite (negative : Bool) (significand : Nat) (exponent : Int)
deriving DecidableEq, Repr

namespace Binary64

/-- A finite number that is not negative: a significand below `2 ^ 53` and a power of two. -/
structure Magnitude where
  significand : Nat
  exponent : Int
deriving DecidableEq, Repr

/-- The number zero. -/
def Magnitude.zero : Magnitude := ⟨0, -1074⟩

/-- The magnitude with a sign. -/
def Magnitude.signed (x : Magnitude) (negative : Bool) : Binary64 :=
  finite negative x.significand x.exponent

/-! ## Ratios

Numbers are rounded as exact ratios of natural numbers. Nothing is computed in double precision itself. -/

/-- The ratio `num / den` divided by `2 ^ e`, as a ratio. -/
def shift (num den : Nat) (e : Int) : Nat × Nat :=
  if 0 ≤ e then (num, den * Nat.pow 2 e.toNat) else (num * Nat.pow 2 (-e).toNat, den)

/-- The greatest `e` such that `2 ^ e` is at most `num / den`, for a positive ratio. -/
def floorLog (num den : Nat) : Int :=
  let e : Int := num.log2 - den.log2
  let (n, d) := shift num den e
  if n < d then e - 1 else e

/-- The quotient rounded to the nearest integer, a tie to the even one. -/
def divNearest (num den : Nat) : Nat :=
  let q := num / den
  let r := num % den
  if 2 * r < den ∨ (2 * r = den ∧ q % 2 = 0) then q else q + 1

/-- The double-precision number nearest to `num / den`, or `none` if that is an infinity. -/
def round (num den : Nat) : Option Magnitude :=
  if num = 0 then some .zero
  else
    let e := max (floorLog num den - 52) (-1074)
    let (n, d) := shift num den e
    let m := divNearest n d
    let x : Magnitude := if m = Nat.pow 2 53 then ⟨Nat.pow 2 52, e + 1⟩ else ⟨m, e⟩
    if x.exponent ≤ 971 then some x else none

/-- The number as a ratio. -/
def Magnitude.ratio (x : Magnitude) : Nat × Nat := shift x.significand 1 (-x.exponent)

/-- The product, rounded. -/
def Magnitude.mul (x y : Magnitude) : Option Magnitude :=
  let (a, b) := x.ratio
  let (c, d) := y.ratio
  round (a * c) (b * d)

/-- The quotient by a number that is not zero, rounded. -/
def Magnitude.div (x y : Magnitude) : Option Magnitude :=
  let (a, b) := x.ratio
  let (c, d) := y.ratio
  round (a * d) (b * c)

/-- The number nearest to `digits * 10 ^ exponent`, or `none` if that is an infinity. -/
def ofDecimal (digits : Nat) (exponent : Int) : Option Magnitude :=
  if digits = 0 then some .zero
  else
    let size : Int := (Nat.toDigits 10 digits).length + exponent
    -- far outside the range no power of ten has to be computed
    if 310 < size then none
    else if size < -330 then some .zero
    else if 0 ≤ exponent then round (digits * Nat.pow 10 exponent.toNat) 1
    else round digits (Nat.pow 10 (-exponent).toNat)

end Binary64

end Casebook
