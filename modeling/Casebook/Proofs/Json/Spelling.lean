import Casebook.Json.Reader

/-!
# Spellings of JSON trees

A tree has many spellings: blanks may stand between the tokens, a character of a string may be
escaped or not, and so may the letter of an exponent be small or capital. `Spells` relates a text to
the tree that it spells, token by token and with no reader in sight. It speaks of the parts of a tree
that the grammar of lists needs (`Part`): the items after the opening bracket are not spelled like
those after another item.

Blanks belong to the token that follows them.
-/

namespace Casebook.Json

/-! ## Tokens

Strings and numbers are the tokens with parts of their own. A piece of a string has several spellings, and
which piece it is still shows how it was written: an escaped unit is not the character that it may stand
for. -/

/-- A text of blanks only. -/
def Blank (ws : List Char) : Prop := ∀ c ∈ ws, isSpace c = true

theorem blank_nil : Blank [] := List.forall_mem_nil _

theorem blank_iff_all {ws : List Char} : Blank ws ↔ ws.all isSpace = true := List.all_eq_true.symm

/-- A text that spells a piece of a string. -/
inductive Piece.Spells : List Char → Piece → Prop
  /-- A character that needs no escape stands for itself. -/
  | plain {c : Char} : c ≠ '"' → c ≠ '\\' → ¬ c < ' ' → Spells [c] (.char c)
  | short {e c : Char} : shortEscape? e = some c → Spells ['\\', e] (.char c)
  | unit {a b c d : Char} {n : Nat} :
    hexFour? a b c d = some n → Spells ['\\', 'u', a, b, c, d] (.unit n)

/-- A text that spells the pieces of a string, one after the other. -/
inductive SpellsPieces : List Char → List Piece → Prop
  | nil : SpellsPieces [] []
  | cons {cs ds : List Char} {p : Piece} {ps : List Piece} :
    p.Spells cs → SpellsPieces ds ps → SpellsPieces (cs ++ ds) (p :: ps)

/-- A text of digits, at least one. -/
structure Digits (ds : List Char) : Prop where
  ne_nil : ds ≠ []
  isDigit : ∀ c ∈ ds, c.isDigit = true

/-- Digits that stand before a point: no zero stands in front of another digit. -/
structure WholeDigits (ds : List Char) : Prop extends Digits ds where
  no_leading_zero : ∀ d ds', ds ≠ '0' :: d :: ds'

/-- A text that spells the digits after the point, with the point, or nothing if there are none. -/
inductive SpellsFraction : List Char → Option (List Char) → Prop
  | none : SpellsFraction [] none
  | some {ds : List Char} : Digits ds → SpellsFraction ('.' :: ds) (some ds)

/-- A text that spells an exponent without its letter. -/
inductive SpellsPower : List Char → Bool × List Char → Prop
  | bare {ds : List Char} : Digits ds → SpellsPower ds (false, ds)
  | plus {ds : List Char} : Digits ds → SpellsPower ('+' :: ds) (false, ds)
  | minus {ds : List Char} : Digits ds → SpellsPower ('-' :: ds) (true, ds)

/-- A text that spells an exponent, or nothing if there is none. -/
inductive SpellsExponent : List Char → Option (Bool × List Char) → Prop
  | none : SpellsExponent [] none
  | small {cs : List Char} {p : Bool × List Char} :
    SpellsPower cs p → SpellsExponent ('e' :: cs) (some p)
  | capital {cs : List Char} {p : Bool × List Char} :
    SpellsPower cs p → SpellsExponent ('E' :: cs) (some p)

/-- A text that spells a number: its sign, its digits, a fraction and an exponent. -/
inductive Numeral.Spells : List Char → Numeral → Prop
  | intro {ws fs es : List Char} {f : Option (List Char)} {e : Option (Bool × List Char)}
      (negative : Bool) : WholeDigits ws → SpellsFraction fs f → SpellsExponent es e →
    Spells ((if negative then ['-'] else []) ++ (ws ++ (fs ++ es))) ⟨negative, ws, f, e⟩

/-! ## Trees

The grammar is one inductive proposition over all parts of trees, with a constructor for each of its
rules, so that an induction on a spelling goes through the rules and not through the text. -/

/-- A part of a tree that has spellings of its own: a value; the items after an opening bracket
(`items`), the items from one on (`item`) and the items after one (`moreItems`); and the same for
members. -/
inductive Part where
  | value (j : Json)
  | items (l : Items)
  | item (l : Items)
  | moreItems (l : Items)
  | members (m : Members)
  | member (m : Members)
  | moreMembers (m : Members)

/-- A text that spells a part of a tree. -/
inductive Spells : List Char → Part → Prop
  | null : Spells ['n', 'u', 'l', 'l'] (.value .null)
  | yes : Spells ['t', 'r', 'u', 'e'] (.value (.bool true))
  | no : Spells ['f', 'a', 'l', 's', 'e'] (.value (.bool false))
  | number {cs : List Char} {n : Numeral} : n.Spells cs → Spells cs (.value (.number n))
  | string {cs : List Char} {ps : List Piece} :
    SpellsPieces cs ps → Spells ('"' :: (cs ++ ['"'])) (.value (.string ps))
  | array {cs : List Char} {l : Items} :
    Spells cs (.items l) → Spells ('[' :: cs) (.value (.array l))
  | object {cs : List Char} {m : Members} :
    Spells cs (.members m) → Spells ('{' :: cs) (.value (.object m))
  | blanks {ws cs : List Char} {j : Json} :
    Blank ws → Spells cs (.value j) → Spells (ws ++ cs) (.value j)
  | noItems {ws : List Char} : Blank ws → Spells (ws ++ [']']) (.items .close)
  | someItems {cs : List Char} {l : Items} : Spells cs (.item l) → Spells cs (.items l)
  | item {cs ds : List Char} {j : Json} {l : Items} :
    Spells cs (.value j) → Spells ds (.moreItems l) → Spells (cs ++ ds) (.item (.item j l))
  | noMoreItems {ws : List Char} : Blank ws → Spells (ws ++ [']']) (.moreItems .close)
  | moreItems {ws cs : List Char} {l : Items} :
    Blank ws → Spells cs (.item l) → Spells (ws ++ ',' :: cs) (.moreItems l)
  | noMembers {ws : List Char} : Blank ws → Spells (ws ++ ['}']) (.members .close)
  | someMembers {cs : List Char} {m : Members} : Spells cs (.member m) → Spells cs (.members m)
  | member {ks ws cs ds : List Char} {ps : List Piece} {j : Json} {m : Members} :
    Spells ks (.value (.string ps)) → Blank ws → Spells cs (.value j) →
    Spells ds (.moreMembers m) →
    Spells (ks ++ (ws ++ ':' :: (cs ++ ds))) (.member (.member (.string ps) j m))
  | noMoreMembers {ws : List Char} : Blank ws → Spells (ws ++ ['}']) (.moreMembers .close)
  | moreMembers {ws cs : List Char} {m : Members} :
    Blank ws → Spells cs (.member m) → Spells (ws ++ ',' :: cs) (.moreMembers m)

/-! ## Spelled trees have no fault -/

/-- A part of a tree without a fault. -/
def Part.complete : Part → Bool
  | .value j => j.complete
  | .items l | .item l | .moreItems l => l.complete
  | .members m | .member m | .moreMembers m => m.complete

/-- The grammar has no rule for what the reader puts in place of a fault. -/
theorem Spells.complete {cs : List Char} {p : Part} (h : Spells cs p) : p.complete = true := by
  induction h with
  | null | yes | no | number _ | string _ => rfl
  | array _ ih | object _ ih | blanks _ _ ih => exact ih
  | noItems _ | noMoreItems _ | noMembers _ | noMoreMembers _ => rfl
  | someItems _ ih | moreItems _ _ ih | someMembers _ ih | moreMembers _ _ ih => exact ih
  | item _ _ ihj ihl => exact Bool.and_eq_true_iff.2 ⟨ihj, ihl⟩
  | member _ _ _ _ _ ihj ihm =>
    exact Bool.and_eq_true_iff.2 ⟨Bool.and_eq_true_iff.2 ⟨rfl, ihj⟩, ihm⟩

end Casebook.Json
