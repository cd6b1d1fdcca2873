import Casebook.Text.Digit
import Casebook.Toml.Value

/-!
# Numbers in TOML

`Toml.integer?` and `Toml.float?` are the values of the words that spell a number. A number has a sign
at most in decimal, a decimal number does not begin with a needless zero, and an underscore may stand
between two digits.
-/

namespace Casebook.Toml

open Text (digitValue? ofDigits)

/-! ## Digits

An underscore is a gap between two digits and stands nowhere else. -/

/-- The values of digits, at least one. Single underscores between digits are left out. -/
def digits? (base : Nat) : List Char → Option (List Nat)
  | [] => none
  | [c] => (digitValue? base c).map ([·])
  | c :: '_' :: cs => do return (← digitValue? base c) :: (← digits? base cs)
  | c :: cs => do return (← digitValue? base c) :: (← digits? base cs)

/-- The digits of a decimal number, which has no needless zero in front. -/
def decimalDigits? (cs : List Char) : Option (List Nat) :=
  match digits? 10 cs with
  | some (0 :: _ :: _) => none
  | digits => digits

/-! ## Integers

Other bases have a prefix and no sign. -/

/-- The integer that a word spells. -/
def integer? : List Char → Option Int
  | '0' :: 'x' :: cs => (digits? 16 cs).map fun ds => (ofDigits 16 ds : Int)
  | '0' :: 'o' :: cs => (digits? 8 cs).map fun ds => (ofDigits 8 ds : Int)
  | '0' :: 'b' :: cs => (digits? 2 cs).map fun ds => (ofDigits 2 ds : Int)
  | '+' :: cs => (decimalDigits? cs).map fun ds => (ofDigits 10 ds : Int)
  | '-' :: cs => (decimalDigits? cs).map fun ds => -(ofDigits 10 ds : Int)
  | cs => (decimalDigits? cs).map fun ds => (ofDigits 10 ds : Int)

/-! ## Numbers with a fraction or an exponent

A word is taken for such a number only if it spells no integer. A number too large for double precision is
a value of its own (`Value.tooLarge`), as it is refused much later, if at all. -/

/-- The power of ten that an exponent spells, after its letter. -/
def power? : List Char → Option Int
  | '+' :: cs => (digits? 10 cs).map fun ds => (ofDigits 10 ds : Int)
  | '-' :: cs => (digits? 10 cs).map fun ds => -(ofDigits 10 ds : Int)
  | cs => (digits? 10 cs).map fun ds => (ofDigits 10 ds : Int)

/-- The power of ten of an exponent, or zero if there is none. -/
def exponent? : List Char → Option Int
  | [] => some 0
  | 'e' :: cs => power? cs
  | 'E' :: cs => power? cs
  | _ => none

/-- Whether a character may stand among digits. -/
def isDigitOrGap (c : Char) : Bool := c.isDigit || c = '_'

/-- The digits of a fraction, if a point stands in front, and what follows. -/
def fraction? : List Char → Option (List Nat × List Char)
  | '.' :: cs => (digits? 10 (cs.takeWhile isDigitOrGap)).map (·, cs.dropWhile isDigitOrGap)
  | cs => some ([], cs)

/-- The number that an unsigned word spells, by the double-precision number nearest to it. -/
def unsigned? (negative : Bool) (cs : List Char) : Option Value := do
  let whole ← decimalDigits? (cs.takeWhile isDigitOrGap)
  let (fraction, rest) ← fraction? (cs.dropWhile isDigitOrGap)
  let power ← exponent? rest
  match Binary64.ofDecimal (ofDigits 10 (whole ++ fraction)) (power - fraction.length) with
  | some x => return .float (x.signed negative)
  | none => return .tooLarge

/-- The infinity, or no number, or number with a fraction or an exponent that a word spells after its
sign. -/
def magnitude? (negative : Bool) (cs : List Char) : Option Value :=
  if cs = ['i', 'n', 'f'] then some (.float (.infinite negative))
  else if cs = ['n', 'a', 'n'] then some (.float .nan)
  else unsigned? negative cs

/-- The number that a word spells which spells no integer. -/
def float? : List Char → Option Value
  | '+' :: cs => magnitude? false cs
  | '-' :: cs => magnitude? true cs
  | cs => magnitude? false cs

end Casebook.Toml
