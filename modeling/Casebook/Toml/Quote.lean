import Casebook.Text.Digit
import Casebook.Toml.Reader

/-!
# Quoted texts in TOML

A text stands between quotes, single or double, one or three of a kind. Double quotes allow escapes,
and three quotes allow line breaks. `basic`, `literal`, `multilineBasic` and `multilineLiteral` read
a text after its opening quotes.
-/

namespace Casebook.Toml.Quote

open Reader
open Text (digitValue? ofDigits)

/-! ## Escapes

An escape gives one character. Where it is written as a number, halves of pairs are refused. -/

/-- Whether a number is that of a character. -/
def isScalar (n : Nat) : Bool := n < 0xD800 || (0xE000 ≤ n && n < 0x110000)

/-- Reads the number of a character in a fixed count of hexadecimal digits. -/
def scalar (count : Nat) : Reader Char := do
  let digits ← (← takeExactly count).mapM fun c => (digitValue? 16 c : Option Nat)
  let n := ofDigits 16 digits
  if isScalar n then return Char.ofNat n else failure

/-- Reads an escape after its backslash. -/
def escape : Reader Char := do
  match ← next with
  | '"' => return '"'
  | '\\' => return '\\'
  | 'b' => return '\x08'
  | 'e' => return '\x1b'
  | 'f' => return '\x0c'
  | 'n' => return '\n'
  | 'r' => return '\r'
  | 't' => return '\t'
  | 'x' => scalar 2
  | 'u' => scalar 4
  | 'U' => scalar 8
  | _ => failure

/-! ## Texts in one line

The reader of a text goes on character by character until the quote, which it takes as well. -/

/-- Reads a text up to a single quote. -/
def literal : Reader String := do
  let body ← takeWhile fun c => isPlain c && c ≠ '\''
  expect ['\'']
  return String.ofList body

/-- Reads a character of a text, or the double quote at its end. -/
def basicStep : Reader (Option Char) := do
  match ← next with
  | '"' => return none
  | '\\' => return some (← escape)
  | c => if isPlain c then return some c else failure

/-- Reads a text up to a double quote. -/
def basic : Reader String := return String.ofList (← many basicStep)

/-! ## Texts in several lines

Both kinds share their frame, `multiline`, and differ in what a step of it reads. -/

/-- Reads what stands between three quotes up to their end: one or two more quotes directly before
the end belong to the text. A line break directly after the beginning does not. -/
def multiline (quote : Char) (step : Reader (List Char)) : Reader String := do
  discard lineBreak?
  let body ← many do
    if ← accept [quote, quote, quote] then return none else return some (← step)
  -- the first three quotes were taken for the end, and up to two more may stand behind them
  let second := if ← accept [quote] then [quote] else []
  let first := if ← accept [quote] then [quote] else []
  return String.ofList (body.flatten ++ first ++ second)

/-- Reads a line break or a character that stands for itself. -/
def plainStep : Reader (List Char) := do
  match ← lineBreak? with
  | some b => return b
  | none =>
    let c ← next
    if isPlain c then return [c] else failure

/-- Reads a text up to three single quotes. -/
def multilineLiteral : Reader String := multiline '\'' plainStep

/-- Reads what an escape stands for, after its backslash. At the end of a line it takes away the line
break and all white space that follows. -/
def multilineEscape : Reader (List Char) := do
  let rest := (← ahead).dropWhile isBlank
  if lineBreaks.any (·.isPrefixOf rest) then
    skipLines false
    return []
  else return [← escape]

/-- Reads a character or an escape of a text in several lines. -/
def multilineStep : Reader (List Char) := do
  if ← accept ['\\'] then multilineEscape else plainStep

/-- Reads a text up to three double quotes. -/
def multilineBasic : Reader String := multiline '"' multilineStep

end Casebook.Toml.Quote
