/-!
# Machine words

Formats bound their integers by what a word of some number of bits can hold. `Word.count` is the
number of words of a width, and `Word.holds` and `Word.holdsSigned` tell whether an integer is one of
them. Powers are spelled `Nat.pow`, which means the same under every instance of exponentiation.
-/

namespace Casebook.Word

/-- The number of words of a width. -/
def count (bits : Nat) : Nat := Nat.pow 2 bits

/-- Whether an integer is a word without a sign. -/
def holds (bits : Nat) (n : Int) : Bool := 0 ≤ n && n < count bits

/-- Whether an integer is a word with a sign. -/
def holdsSigned (bits : Nat) (n : Int) : Bool :=
  -(count (bits - 1) : Int) ≤ n && n < count (bits - 1)

end Casebook.Word
