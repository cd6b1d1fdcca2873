/-!
# JSON texts as trees

A `Json` is a JSON text as far as it could be read: a tree in which the first fault of the text, if
there is one, is the place `broken`, and every list around it ends with `cut` in place of `close`.
So a text with a fault still has a tree, and whoever walks the tree in the order of the text meets
what is wrong with it in that order too.

Strings and numbers are kept as they are spelled, because a string may spell a code point that is no
character and a number may be out of range, and only some readers mind.
-/

namespace Casebook

namespace Json

/-- A piece of a string. -/
inductive Piece where
  /-- A character, written as it is or as a short escape. -/
  | char (c : Char)
  /-- A unit of UTF-16, written as four hexadecimal digits. -/
  | unit (n : Nat)
deriving DecidableEq, Repr

/-- A number, as its decimal digits. -/
structure Numeral where
  /-- Whether a minus sign stands in front. -/
  negative : Bool
  /-- The digits before the point. -/
  whole : List Char
  /-- The digits after the point, if there is one. -/
  fraction : Option (List Char)
  /-- Whether the exponent is negative, and its digits, if there is one. -/
  exponent : Option (Bool × List Char)
deriving DecidableEq, Repr

end Json

mutual

/-- A JSON text, as far as it could be read. -/
inductive Json where
  | null
  | bool (b : Bool)
  | number (n : Json.Numeral)
  | string (pieces : List Json.Piece)
  | array (items : Json.Items)
  | object (members : Json.Members)
  /-- A place where a value should stand and the text has none. -/
  | broken

/-- The items of an array. -/
inductive Json.Items where
  | close
  /-- A fault where a comma or the closing bracket should stand. -/
  | cut
  | item (value : Json) (rest : Json.Items)

/-- The members of an object. Whatever stands in the place of a key is kept; only a string can be
one, and after anything else, or without a colon, the value is `broken`. -/
inductive Json.Members where
  | close
  /-- A fault where a comma or the closing brace should stand. -/
  | cut
  | member (key value : Json) (rest : Json.Members)

end

namespace Json

/-! ## Making trees

Trees are made in the spelling that the printer has for them. A tree that was read may be spelled
otherwise and stand for the same data. -/

/-- The controls that have a short escape. -/
def shortControls : List Char := ['\x08', '\x0c', '\n', '\r', '\t']

/-- The piece that spells a character: a control without a short escape is written as a unit. -/
def Piece.ofChar (c : Char) : Piece :=
  if c < ' ' ∧ c ∉ shortControls then .unit c.toNat else .char c

/-- The string that spells a text, character by character. -/
def ofString (s : String) : Json := .string (s.toList.map Piece.ofChar)

/-- The number that spells a natural number. -/
def ofNat (n : Nat) : Json := .number ⟨false, Nat.toDigits 10 n, none, none⟩

/-- A text, or `null` for none. -/
def ofString? : Option String → Json
  | some s => ofString s
  | none => .null

/-- Complete items. -/
def Items.ofList : List Json → Items
  | [] => .close
  | j :: js => .item j (ofList js)

/-- Complete members, with texts for keys. -/
def Members.ofList : List (String × Json) → Members
  | [] => .close
  | (key, value) :: rest => .member (ofString key) value (ofList rest)

/-! ## Trees without a fault

What nobody decodes still has to be read without a fault, which this is the test of. -/

mutual

/-- Whether the tree has no fault. -/
def complete : Json → Bool
  | array items => items.complete
  | object members => members.complete
  | broken => false
  | _ => true

/-- Whether the items have no fault. -/
def Items.complete : Items → Bool
  | .close => true
  | .cut => false
  | .item value rest => value.complete && rest.complete

/-- Whether the members have no fault. -/
def Members.complete : Members → Bool
  | .close => true
  | .cut => false
  | .member key value rest => key.complete && value.complete && rest.complete

end

end Json

end Casebook
