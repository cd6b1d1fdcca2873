/-!
# Readers

A `Toml.Reader` takes something off the front of a text, or fails. This module holds the readers that
all others are made of. Repetition is bounded by the length of the text: each round of `Reader.many`
has to take something off.
-/

namespace Casebook.Toml

/-- A reader. -/
abbrev Reader (α : Type) := StateT (List Char) Option α

namespace Reader

variable {α : Type}

/-- Takes a character. -/
def next : Reader Char
  | [] => none
  | c :: cs => some (c, cs)

/-- The text in front, which stays. -/
def ahead : Reader (List Char) := get

/-- Takes a word, if it stands in front, and tells whether it does. -/
def accept (word : List Char) : Reader Bool := fun cs =>
  if word.isPrefixOf cs then some (true, cs.drop word.length) else some (false, cs)

/-- Takes a word that has to stand in front. -/
def expect (word : List Char) : Reader Unit := do
  unless ← accept word do failure

/-- Takes one of several characters, if one stands in front, and tells whether it does. -/
def acceptOne (chars : List Char) : Reader Bool
  | c :: cs => if chars.contains c then some (true, cs) else some (false, c :: cs)
  | [] => some (false, [])

/-- Takes characters as long as they are of a kind. -/
def takeWhile (p : Char → Bool) : Reader (List Char) := fun cs =>
  some (cs.takeWhile p, cs.dropWhile p)

/-- Takes a number of characters. -/
def takeExactly (count : Nat) : Reader (List Char) := fun cs =>
  let taken := cs.take count
  if taken.length = count then some (taken, cs.drop count) else none

/-- Repeats a reader up to `rounds` times, until it gives nothing. -/
def repeated (step : Reader (Option α)) : Nat → Reader (List α)
  | 0 => failure
  | rounds + 1 => do
    match ← step with
    | none => return []
    | some a => return a :: (← repeated step rounds)

/-- Repeats a reader that takes at least one character, until it gives nothing. -/
def many (step : Reader (Option α)) : Reader (List α) := do
  repeated step ((← ahead).length + 1)

/-- What a reader makes of a whole text. -/
def whole? (r : Reader α) (cs : List Char) : Option α :=
  match r cs with
  | some (a, []) => some a
  | _ => none

/-! ## Lines

A line ends with a line feed, which a carriage return may stand in front of. Neither may stand in a line
otherwise. -/

/-- The blanks within a line. -/
def isBlank (c : Char) : Bool := c = ' ' || c = '\t'

/-- The characters that may stand in a line: all but control characters, of which a tab is allowed. -/
def isPlain (c : Char) : Bool := c = '\t' || (' ' ≤ c && c ≠ '\x7f')

/-- The two spellings of a line break. -/
def lineBreaks : List (List Char) := [['\n'], ['\r', '\n']]

/-- Takes a line break, if one stands in front, and gives its characters. -/
def lineBreak? : Reader (Option (List Char)) := fun cs =>
  match lineBreaks.find? (·.isPrefixOf cs) with
  | some b => some (some b, cs.drop b.length)
  | none => some (none, cs)

/-- Takes the blanks in front. -/
def skipBlanks : Reader Unit := discard (takeWhile isBlank)

/-- Takes a comment, if one stands in front. -/
def skipComment : Reader Unit := do
  if ← accept ['#'] then discard (takeWhile isPlain)

/-- Takes blanks, line breaks, and comments if wanted. -/
def skipLines (comments : Bool) : Reader Unit := do
  discard <| many do
    match ← lineBreak? with
    | some _ => return some ()
    | none =>
      let blanks ← takeWhile isBlank
      if !blanks.isEmpty then return some ()
      else if comments && (← ahead).head? = some '#' then
        skipComment
        return some ()
      else return none

end Reader

end Casebook.Toml
