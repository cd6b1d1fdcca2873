import Casebook.Json.Basic

/-!
# Writing JSON

`Json.render` writes a tree on one line with no blanks. In strings the quote, the backslash and the
controls that have a short escape are escaped by it, and units are written in hexadecimal; all else
stands as it is.
-/

namespace Casebook.Json

/-- A digit of a number below sixteen, in lower case. -/
def hexDigit (n : Nat) : Char := Nat.digitChar (n % 16)

/-- Four hexadecimal digits. -/
def hexFour (n : Nat) : List Char :=
  [hexDigit (n / 4096), hexDigit (n / 256), hexDigit (n / 16), hexDigit n]

/-- How a character stands in a string. -/
def escape (c : Char) : List Char :=
  if c = '"' then ['\\', '"']
  else if c = '\\' then ['\\', '\\']
  else if c = '\x08' then ['\\', 'b']
  else if c = '\x0c' then ['\\', 'f']
  else if c = '\n' then ['\\', 'n']
  else if c = '\r' then ['\\', 'r']
  else if c = '\t' then ['\\', 't']
  else [c]

/-- How a piece stands in a string. -/
def Piece.chars : Piece → List Char
  | char c => escape c
  | unit n => '\\' :: 'u' :: hexFour n

/-- How the digits after the point are written, with the point. -/
def fractionChars : Option (List Char) → List Char
  | some digits => '.' :: digits
  | none => []

/-- How an exponent is written, with its letter. -/
def exponentChars : Option (Bool × List Char) → List Char
  | some (negative, digits) => 'e' :: (if negative then '-' :: digits else digits)
  | none => []

/-- How a number is written. -/
def Numeral.chars (n : Numeral) : List Char :=
  (if n.negative then ['-'] else []) ++ (n.whole ++ (fractionChars n.fraction
    ++ exponentChars n.exponent))

mutual

/-- The characters of a tree. -/
def chars : Json → List Char
  | null => ['n', 'u', 'l', 'l']
  | bool true => ['t', 'r', 'u', 'e']
  | bool false => ['f', 'a', 'l', 's', 'e']
  | number n => n.chars
  | string pieces => '"' :: (pieces.flatMap Piece.chars ++ ['"'])
  | array items => '[' :: items.chars
  | object members => '{' :: members.chars
  | broken => []

/-- The characters of the items after the opening bracket. -/
def Items.chars : Items → List Char
  | .close => [']']
  | .cut => []
  | .item value rest => value.chars ++ rest.moreChars

/-- The characters of the items after an item. -/
def Items.moreChars : Items → List Char
  | .close => [']']
  | .cut => []
  | .item value rest => ',' :: (value.chars ++ rest.moreChars)

/-- The characters of the members after the opening brace. -/
def Members.chars : Members → List Char
  | .close => ['}']
  | .cut => []
  | .member key value rest => key.chars ++ ':' :: (value.chars ++ rest.moreChars)

/-- The characters of the members after a member. -/
def Members.moreChars : Members → List Char
  | .close => ['}']
  | .cut => []
  | .member key value rest => ',' :: (key.chars ++ ':' :: (value.chars ++ rest.moreChars))

end

/-- The text of a tree. -/
def render (j : Json) : String := String.ofList j.chars

end Casebook.Json
