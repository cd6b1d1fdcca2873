import Casebook.Text.Shown

/-!
# Quoted text

Text in quotes, for use in a message: what would not be shown, and the quote and the backslash, are
written as escapes.
-/

namespace Casebook.Text

/-- How a character is written between quotes. A character that is not shown becomes its code point
in hexadecimal, in braces. -/
def quotedChar : Char → String
  | '\x00' => "\\0"
  | '\t' => "\\t"
  | '\r' => "\\r"
  | '\n' => "\\n"
  | '"' => "\\\""
  | '\\' => "\\\\"
  | c =>
    if isShown c then String.singleton c
    else "\\u\x7b" ++ String.ofList (Nat.toDigits 16 c.toNat) ++ "\x7d"

/-- The text in quotes. -/
def quoted (s : String) : String :=
  "\"" ++ String.join (s.toList.map quotedChar) ++ "\""

end Casebook.Text
