import Casebook.Toml.Date
import Casebook.Toml.Number
import Casebook.Toml.Quote
import Casebook.Toml.Table

/-!
# The lines of a TOML document

A `Statement` is what a line of a document says: that a value goes under a key, or that the following
lines fill the table of a header. `Statement.readAll` reads the statements of a document.

Arrays and tables between braces may be nested to a depth of `maxDepth`. They may go over several
lines, with comments in between, and their last item may be followed by a comma.
-/

namespace Casebook.Toml

open Reader

/-! ## Keys

A dotted key is a path. Blanks may stand around its dots. -/

/-- Whether a character may stand in a key without quotes. -/
def isBareKeyChar (c : Char) : Bool := c.isAlphanum || c = '-' || c = '_'

/-- Reads a key without dots. -/
def simpleKey : Reader String := do
  if ← accept ['"'] then Quote.basic
  else if ← accept ['\''] then Quote.literal
  else
    let name ← takeWhile isBareKeyChar
    if name.isEmpty then failure else return String.ofList name

/-- Reads a key, with the blanks that follow it: the keys before the last dot, and the last one. -/
def dottedKey : Reader (List String × String) := do
  let first ← simpleKey
  skipBlanks
  let more ← many do
    if ← accept ['.'] then
      skipBlanks
      let key ← simpleKey
      skipBlanks
      return some key
    else return none
  return ((first :: more).dropLast, more.getLastD first)

/-! ## Values without parts

A word without quotes is a boolean, a number or a date. Its characters do not tell which, so it is read as
a whole first. -/

/-- Whether a character may stand in a value without quotes. -/
def isWordChar (c : Char) : Bool := c.isAlphanum || ['+', '-', '_', '.', ':'].contains c

/-- The value that a word spells. -/
def ofWord? (word : List Char) : Option Value :=
  if word = ['t', 'r', 'u', 'e'] then some (.boolean true)
  else if word = ['f', 'a', 'l', 's', 'e'] then some (.boolean false)
  else
    match integer? word with
    | some n => some (.integer n)
    | none =>
      match float? word with
      | some v => some v
      | none => if Date.isMoment word then some .date else none

/-- Reads a word. A blank and more may follow a date. -/
def readWord : Reader (List Char) := do
  let word ← takeWhile isWordChar
  match ← ahead with
  | ' ' :: c :: _ =>
    if Date.isDate word && c.isDigit then
      let blank ← next
      return word ++ blank :: (← takeWhile isWordChar)
    else return word
  | _ => return word

/-- Reads a value without parts. -/
def readSimple : Reader Value := do
  if ← accept ['"', '"', '"'] then return .text (← Quote.multilineBasic)
  else if ← accept ['"'] then return .text (← Quote.basic)
  else if ← accept ['\'', '\'', '\''] then return .text (← Quote.multilineLiteral)
  else if ← accept ['\''] then return .text (← Quote.literal)
  else
    match ofWord? (← readWord) with
    | some v => return v
    | none => failure

/-! ## Values

The depth is counted down where a value is opened, and at zero an opening bracket begins no value. -/

/-- How deep arrays and tables between braces may be nested. -/
def maxDepth : Nat := 80

/-- Reads items between commas, up to a closing character. -/
def listed {α : Type} (close : Char) (item : Reader α) : Reader (List α) := many do
  skipLines true
  if ← accept [close] then return none
  else
    let a ← item
    skipLines true
    unless (← accept [',']) do
      if (← ahead).head? ≠ some close then failure
    return some a

/-- Reads a key, an equals sign and a value. -/
def keyed (value : Reader Value) : Reader (List String × String × Value) := do
  let (path, key) ← dottedKey
  expect ['=']
  skipBlanks
  return (path, key, ← value)

/-- The entries of a table between braces, from its keys and values. -/
def inlineEntries (members : List (List String × String × Value)) : Option Entries :=
  members.foldlM (fun entries (path, key, v) => assign path key v .inline entries) []

/-- Reads a value in which arrays and tables are nested to a depth. -/
def readValue : Nat → Reader Value
  | 0 => readSimple
  | depth + 1 => do
    if ← accept ['['] then return .array (← listed ']' (readValue depth))
    else if ← accept ['\x7b'] then
      match inlineEntries (← listed '\x7d' (keyed (readValue depth))) with
      | some entries => return .table .inline entries
      | none => failure
    else readSimple

/-! ## Statements

A document is read line by line, though a value may go over several lines. Nothing but a comment may
follow a statement on its line. -/

/-- What a line says. -/
inductive Statement where
  | assign (path : List String) (key : String) (v : Value)
  | table (path : List String) (key : String)
  /-- One more table under a repeated header follows. -/
  | element (path : List String) (key : String)

namespace Statement

/-- Reads a header. -/
def readHeader : Reader Statement := do
  if ← accept ['[', '['] then
    skipBlanks
    let (path, key) ← dottedKey
    expect [']', ']']
    return .element path key
  else
    expect ['[']
    skipBlanks
    let (path, key) ← dottedKey
    expect [']']
    return .table path key

/-- Reads a key with its value. -/
def readAssign : Reader Statement := do
  let (path, key, v) ← keyed (readValue maxDepth)
  return .assign path key v

/-- Reads the statement of a line, which may have none. -/
def readOptional : Reader (Option Statement) := do
  match (← ahead).head? with
  | none | some '#' | some '\n' | some '\r' => return none
  | some '[' => return some (← readHeader)
  | some _ => return some (← readAssign)

/-- Takes the end of a line. -/
def readEnd : Reader Unit := do
  match ← lineBreak? with
  | some _ => return
  | none => unless (← ahead).isEmpty do failure

/-- Reads a line. -/
def readLine : Reader (Option Statement) := do
  skipBlanks
  let statement ← readOptional
  skipBlanks
  skipComment
  readEnd
  return statement

/-- Reads all statements of a document, which may begin with a byte order mark. -/
def readAll : Reader (List Statement) := do
  discard (accept ['\ufeff'])
  let lines ← many do
    if (← ahead).isEmpty then return none else return some (← readLine)
  return lines.filterMap id

end Statement

end Casebook.Toml
