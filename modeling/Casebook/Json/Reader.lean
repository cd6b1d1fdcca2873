import Casebook.Json.Basic
import Casebook.Text.Digit

/-!
# Reading JSON

`Json.readValue` reads one value from the front of a text. It always gives a tree: where the text
stops being JSON the tree has its fault, and nothing is left to read. Each step takes characters off
the text, so reading ends: `Scan` carries the proof that what is left is no longer than what was
given.
-/

namespace Casebook.Json

/-! ## Characters

Blanks are the four characters that JSON knows, and digits are those of ASCII. -/

/-- The blanks that may stand between tokens. -/
def isSpace (c : Char) : Bool := c = ' ' || c = '\t' || c = '\n' || c = '\r'

/-- The text without the blanks at its front. -/
def skipSpace (cs : List Char) : List Char := cs.dropWhile isSpace

theorem length_dropWhile_le {α : Type} (p : α → Bool) (l : List α) :
    (l.dropWhile p).length ≤ l.length :=
  (List.dropWhile_sublist p).length_le

theorem length_skipSpace_le (cs : List Char) : (skipSpace cs).length ≤ cs.length :=
  length_dropWhile_le isSpace cs

/-- The value of four hexadecimal digits. -/
def hexFour? (a b c d : Char) : Option Nat :=
  match Text.digitValue? 16 a, Text.digitValue? 16 b, Text.digitValue? 16 c, Text.digitValue? 16 d with
  | some a, some b, some c, some d => some (((a * 16 + b) * 16 + c) * 16 + d)
  | _, _, _, _ => none

/-- The character that a short escape stands for. -/
def shortEscape? : Char → Option Char
  | '"' => some '"'
  | '\\' => some '\\'
  | '/' => some '/'
  | 'b' => some '\x08'
  | 'f' => some '\x0c'
  | 'n' => some '\n'
  | 'r' => some '\r'
  | 't' => some '\t'
  | _ => none

/-! ## Strings

A string is taken apart into pieces and not into characters: whether halves of pairs fit together is left
to those who want its text. -/

/-- Reads the pieces of a string up to its closing quote, after its opening quote. -/
def readPieces : List Char → Option (List Piece × List Char)
  | [] => none
  | '"' :: cs => some ([], cs)
  | '\\' :: 'u' :: a :: b :: c :: d :: cs =>
    match hexFour? a b c d, readPieces cs with
    | some n, some (pieces, rest) => some (.unit n :: pieces, rest)
    | _, _ => none
  | '\\' :: e :: cs =>
    match shortEscape? e, readPieces cs with
    | some c, some (pieces, rest) => some (.char c :: pieces, rest)
    | _, _ => none
  | c :: cs =>
    if c = '\\' || c < ' ' then none
    else
      match readPieces cs with
      | some (pieces, rest) => some (.char c :: pieces, rest)
      | none => none

theorem length_of_readPieces {cs : List Char} {pieces : List Piece} {rest : List Char}
    (h : readPieces cs = some (pieces, rest)) : rest.length ≤ cs.length := by
  fun_induction readPieces cs generalizing pieces with
  | case1 => simp at h
  | case2 cs => simp only [Option.some.injEq, Prod.mk.injEq] at h; simp [h.2]
  | case3 a b c d cs n ps r hr _ ih =>
    simp only [Option.some.injEq, Prod.mk.injEq] at h
    have := @ih ps (h.2 ▸ hr)
    simp only [List.length_cons]; omega
  | case4 => simp at h
  | case5 e cs _ c ps r hr _ ih =>
    simp only [Option.some.injEq, Prod.mk.injEq] at h
    have := @ih ps (h.2 ▸ hr)
    simp only [List.length_cons]; omega
  | case6 => simp at h
  | case7 => simp at h
  | case8 c cs _ _ _ _ ps r hr ih =>
    simp only [Option.some.injEq, Prod.mk.injEq] at h
    have := @ih ps (h.2 ▸ hr)
    simp only [List.length_cons]; omega
  | case9 => simp at h

/-! ## Numbers and words

Every reader gives what it has read and what is left, or nothing. The lemmas say of each that no more is
left than there was. -/

/-- Reads digits, at least one. -/
def readDigits (cs : List Char) : Option (List Char × List Char) :=
  match cs.takeWhile Char.isDigit with
  | [] => none
  | digits => some (digits, cs.dropWhile Char.isDigit)

/-- Reads the digits after a point, if a point stands in front. -/
def readFraction : List Char → Option (Option (List Char) × List Char)
  | '.' :: cs => (readDigits cs).map fun (digits, rest) => (some digits, rest)
  | cs => some (none, cs)

/-- Reads an exponent after its letter: an optional sign and digits. -/
def readPower : List Char → Option ((Bool × List Char) × List Char)
  | '-' :: cs => (readDigits cs).map fun (digits, rest) => ((true, digits), rest)
  | '+' :: cs => (readDigits cs).map fun (digits, rest) => ((false, digits), rest)
  | cs => (readDigits cs).map fun (digits, rest) => ((false, digits), rest)

/-- Reads an exponent, if its letter stands in front. -/
def readExponent : List Char → Option (Option (Bool × List Char) × List Char)
  | 'e' :: cs => (readPower cs).map fun (power, rest) => (some power, rest)
  | 'E' :: cs => (readPower cs).map fun (power, rest) => (some power, rest)
  | cs => some (none, cs)

/-- Reads the digits before a point: a single zero, or digits that do not begin with zero. -/
def readWhole (cs : List Char) : Option (List Char × List Char) :=
  match readDigits cs with
  | some ('0' :: _ :: _, _) => none
  | r => r

/-- Reads a number without its sign. -/
def readUnsigned (negative : Bool) (cs : List Char) : Option (Numeral × List Char) :=
  match readWhole cs with
  | none => none
  | some (whole, cs) =>
    match readFraction cs with
    | none => none
    | some (fraction, cs) =>
      match readExponent cs with
      | none => none
      | some (exponent, cs) => some (⟨negative, whole, fraction, exponent⟩, cs)

/-- Reads a number. -/
def readNumeral : List Char → Option (Numeral × List Char)
  | '-' :: cs => readUnsigned true cs
  | cs => readUnsigned false cs

/-- Reads a word or a number. -/
def readScalar : List Char → Option (Json × List Char)
  | 'n' :: 'u' :: 'l' :: 'l' :: cs => some (.null, cs)
  | 't' :: 'r' :: 'u' :: 'e' :: cs => some (.bool true, cs)
  | 'f' :: 'a' :: 'l' :: 's' :: 'e' :: cs => some (.bool false, cs)
  | cs => (readNumeral cs).map fun (n, rest) => (.number n, rest)

theorem length_of_readDigits {cs digits rest : List Char}
    (h : readDigits cs = some (digits, rest)) : rest.length ≤ cs.length := by
  unfold readDigits at h
  split at h
  · simp at h
  · simp only [Option.some.injEq, Prod.mk.injEq] at h
    exact h.2 ▸ length_dropWhile_le _ _

theorem length_of_readFraction {cs rest : List Char} {fraction : Option (List Char)}
    (h : readFraction cs = some (fraction, rest)) : rest.length ≤ cs.length := by
  unfold readFraction at h
  split at h
  · obtain ⟨⟨digits, r⟩, hd, he⟩ := Option.map_eq_some_iff.1 h
    have := length_of_readDigits hd
    simp only [Prod.mk.injEq] at he
    simp only [List.length_cons, ← he.2]; omega
  · simp only [Option.some.injEq, Prod.mk.injEq] at h
    simp [h.2]

theorem length_of_readPower {cs rest : List Char} {power : Bool × List Char}
    (h : readPower cs = some (power, rest)) : rest.length ≤ cs.length := by
  unfold readPower at h
  split at h
  all_goals
    obtain ⟨⟨digits, r⟩, hd, he⟩ := Option.map_eq_some_iff.1 h
    have := length_of_readDigits hd
    simp only [Prod.mk.injEq] at he
    simp only [List.length_cons, ← he.2]; omega

theorem length_of_readExponent {cs rest : List Char} {exponent : Option (Bool × List Char)}
    (h : readExponent cs = some (exponent, rest)) : rest.length ≤ cs.length := by
  unfold readExponent at h
  split at h
  · obtain ⟨⟨power, r⟩, hd, he⟩ := Option.map_eq_some_iff.1 h
    have := length_of_readPower hd
    simp only [Prod.mk.injEq] at he
    simp only [List.length_cons, ← he.2]; omega
  · obtain ⟨⟨power, r⟩, hd, he⟩ := Option.map_eq_some_iff.1 h
    have := length_of_readPower hd
    simp only [Prod.mk.injEq] at he
    simp only [List.length_cons, ← he.2]; omega
  · simp only [Option.some.injEq, Prod.mk.injEq] at h
    simp [h.2]

theorem length_of_readWhole {cs digits rest : List Char}
    (h : readWhole cs = some (digits, rest)) : rest.length ≤ cs.length := by
  unfold readWhole at h
  split at h
  · simp at h
  · exact length_of_readDigits h

theorem length_of_readUnsigned {negative : Bool} {cs rest : List Char} {n : Numeral}
    (h : readUnsigned negative cs = some (n, rest)) : rest.length ≤ cs.length := by
  unfold readUnsigned at h
  split at h
  · simp at h
  · next hw =>
    split at h
    · simp at h
    · next hf =>
      split at h
      · simp at h
      · next he =>
        have := length_of_readWhole hw
        have := length_of_readFraction hf
        have := length_of_readExponent he
        simp only [Option.some.injEq, Prod.mk.injEq] at h
        rw [← h.2]; omega

theorem length_of_readNumeral {cs rest : List Char} {n : Numeral}
    (h : readNumeral cs = some (n, rest)) : rest.length ≤ cs.length := by
  unfold readNumeral at h
  split at h
  · have := length_of_readUnsigned h
    simp only [List.length_cons]; omega
  · exact length_of_readUnsigned h

theorem length_of_readScalar {cs rest : List Char} {j : Json}
    (h : readScalar cs = some (j, rest)) : rest.length ≤ cs.length := by
  unfold readScalar at h
  split at h
  · simp only [Option.some.injEq, Prod.mk.injEq] at h
    simp only [List.length_cons, ← h.2]; omega
  · simp only [Option.some.injEq, Prod.mk.injEq] at h
    simp only [List.length_cons, ← h.2]; omega
  · simp only [Option.some.injEq, Prod.mk.injEq] at h
    simp only [List.length_cons, ← h.2]; omega
  · obtain ⟨⟨n, r⟩, hn, he⟩ := Option.map_eq_some_iff.1 h
    simp only [Prod.mk.injEq] at he
    exact he.2 ▸ length_of_readNumeral hn

/-! ## Values

Seven readers call each other, each for its place in the grammar: after a bracket a list may be closed at
once, and after an item it goes on only with a comma. They terminate by the length of the text, and where
one reader hands the same text to another, by the second number of the measure. -/

/-- A character that is taken after blanks leaves less than there was. -/
theorem length_lt_of_skipSpace {cs tail : List Char} {c : Char} (h : skipSpace cs = c :: tail) :
    tail.length < cs.length := by
  have := length_skipSpace_le cs
  simp only [h, List.length_cons] at this
  omega

/-- What was read from the front of a text, and what is left of the text. -/
structure Scan (α : Type) (cs : List Char) where
  value : α
  rest : List Char
  /-- No more is left than there was. -/
  length_rest_le : rest.length ≤ cs.length

namespace Scan

variable {α β : Type} {cs tail : List Char}

/-- A fault: nothing is left to read. -/
def stop (value : α) (cs : List Char) : Scan α cs := ⟨value, [], Nat.zero_le _⟩

/-- What was read from a text that is left of another. -/
def within (s : Scan α tail) (h : tail.length ≤ cs.length) (f : α → β) : Scan β cs :=
  ⟨f s.value, s.rest, Nat.le_trans s.length_rest_le h⟩

end Scan

mutual

/-- Reads a value. -/
def readValue (cs : List Char) : Scan Json cs :=
  match h : skipSpace cs with
  | '"' :: tail =>
    match hp : readPieces tail with
    | some (pieces, rest) =>
      ⟨.string pieces, rest,
        Nat.le_trans (length_of_readPieces hp) (Nat.le_of_lt (length_lt_of_skipSpace h))⟩
    | none => .stop .broken cs
  | '[' :: tail => (readItems tail).within (Nat.le_of_lt (length_lt_of_skipSpace h)) .array
  | '{' :: tail => (readMembers tail).within (Nat.le_of_lt (length_lt_of_skipSpace h)) .object
  | text =>
    match hp : readScalar text with
    | some (j, rest) =>
      ⟨j, rest, Nat.le_trans (length_of_readScalar hp) (h ▸ length_skipSpace_le cs)⟩
    | none => .stop .broken cs
termination_by (cs.length, 0)
decreasing_by
  · exact Prod.Lex.left _ _ (length_lt_of_skipSpace h)
  · exact Prod.Lex.left _ _ (length_lt_of_skipSpace h)

/-- Reads the items of an array after its opening bracket. -/
def readItems (cs : List Char) : Scan Items cs :=
  match h : skipSpace cs with
  | ']' :: tail => ⟨.close, tail, Nat.le_of_lt (length_lt_of_skipSpace h)⟩
  | _ => readItem cs
termination_by (cs.length, 2)

/-- Reads an item and those that follow it. -/
def readItem (cs : List Char) : Scan Items cs :=
  let value := readValue cs
  (readMoreItems value.rest).within value.length_rest_le (.item value.value)
termination_by (cs.length, 1)
decreasing_by
  · exact Prod.Lex.right _ (by omega)
  · rcases Nat.lt_or_eq_of_le value.length_rest_le with hlt | heq
    · exact Prod.Lex.left _ _ hlt
    · rw [heq]; exact Prod.Lex.right _ (by omega)

/-- Reads on after an item. -/
def readMoreItems (cs : List Char) : Scan Items cs :=
  match h : skipSpace cs with
  | ']' :: tail => ⟨.close, tail, Nat.le_of_lt (length_lt_of_skipSpace h)⟩
  | ',' :: tail => (readItem tail).within (Nat.le_of_lt (length_lt_of_skipSpace h)) id
  | _ => .stop .cut cs
termination_by (cs.length, 0)
decreasing_by
  exact Prod.Lex.left _ _ (length_lt_of_skipSpace h)

/-- Reads the members of an object after its opening brace. -/
def readMembers (cs : List Char) : Scan Members cs :=
  match h : skipSpace cs with
  | '}' :: tail => ⟨.close, tail, Nat.le_of_lt (length_lt_of_skipSpace h)⟩
  | _ => readMember cs
termination_by (cs.length, 2)

/-- Reads a member and those that follow it. -/
def readMember (cs : List Char) : Scan Members cs :=
  let key := readValue cs
  match key.value, h : skipSpace key.rest with
  | .string pieces, ':' :: tail =>
    let value := readValue tail
    (readMoreMembers value.rest).within
      (Nat.le_trans value.length_rest_le
        (Nat.le_trans (Nat.le_of_lt (length_lt_of_skipSpace h)) key.length_rest_le))
      (.member (.string pieces) value.value)
  | other, _ => .stop (.member other .broken .cut) cs
termination_by (cs.length, 1)
decreasing_by
  · exact Prod.Lex.right _ (by omega)
  · exact Prod.Lex.left _ _ (Nat.lt_of_lt_of_le (length_lt_of_skipSpace h) key.length_rest_le)
  · exact Prod.Lex.left _ _ (Nat.lt_of_le_of_lt value.length_rest_le
      (Nat.lt_of_lt_of_le (length_lt_of_skipSpace h) key.length_rest_le))

/-- Reads on after a member. -/
def readMoreMembers (cs : List Char) : Scan Members cs :=
  match h : skipSpace cs with
  | '}' :: tail => ⟨.close, tail, Nat.le_of_lt (length_lt_of_skipSpace h)⟩
  | ',' :: tail => (readMember tail).within (Nat.le_of_lt (length_lt_of_skipSpace h)) id
  | _ => .stop .cut cs
termination_by (cs.length, 0)
decreasing_by
  exact Prod.Lex.left _ _ (length_lt_of_skipSpace h)

end

end Casebook.Json
