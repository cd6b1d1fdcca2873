import Casebook.Json.Printer
import Casebook.Proofs.Json.Reading

/-!
# Printed trees are read back

A tree that has no fault, whose strings spell their characters the way the printer does and whose
numbers have digits where digits belong is `Printable`. What is printed of such a tree spells it
(`spells_chars`), so the reader finds the very tree again.

The trees made from texts, numbers and lists of fields are printable.
-/

namespace Casebook.Json

/-! ## Printable trees

Not every tree is printed as a text of itself. A control that has no short escape is printed as a unit and
read as one, so a tree in which it stands as a character comes back as another tree, although it has the
same text. No decoder sees such a tree printed. -/

/-- A piece that is printed as itself: a control without a short escape is a unit. -/
def Piece.Printable : Piece → Prop
  | char c => c < ' ' → c ∈ shortControls
  | unit n => n < 0x10000

/-- A number with digits in all its places. -/
structure Numeral.Printable (n : Numeral) : Prop where
  whole : WholeDigits n.whole
  fraction : ∀ ds ∈ n.fraction, Digits ds
  exponent : ∀ p ∈ n.exponent, Digits p.2

mutual

/-- A tree that is printed as a text of itself. -/
def Printable : Json → Prop
  | number n => n.Printable
  | string ps => ∀ p ∈ ps, p.Printable
  | array l => l.Printable
  | object m => m.Printable
  | broken => False
  | _ => True

/-- Items that are printed as a text of themselves. -/
def Items.Printable : Items → Prop
  | .close => True
  | .cut => False
  | .item j l => j.Printable ∧ l.Printable

/-- Members that are printed as a text of themselves; their keys are strings. -/
def Members.Printable : Members → Prop
  | .close => True
  | .cut => False
  | .member (.string ps) j m => (∀ p ∈ ps, p.Printable) ∧ j.Printable ∧ m.Printable
  | .member _ _ _ => False

end

/-! ## Pieces and numbers

The printer has one spelling for each piece and each number, which is one of those that the grammar has. -/

theorem digitValue?_digitChar : ∀ k < 16, Text.digitValue? 16 (Nat.digitChar k) = some k := by
  decide

/-- Four digits are read as the number that they were made of. -/
theorem hexFour?_hexFour {n : Nat} (h : n < 0x10000) :
    hexFour? (hexDigit (n / 4096)) (hexDigit (n / 256)) (hexDigit (n / 16)) (hexDigit n) = some n := by
  have hdigit (k : Nat) : Text.digitValue? 16 (hexDigit k) = some (k % 16) :=
    digitValue?_digitChar (k % 16) (Nat.mod_lt k (by decide))
  simp only [hexFour?, hdigit, Option.some.injEq]
  omega

/-- A character is printed escaped or as itself, in either case as the grammar wants it. -/
theorem Piece.spells_chars {p : Piece} (h : p.Printable) : p.Spells p.chars := by
  cases p with
  | unit n => exact .unit (hexFour?_hexFour h)
  | char c =>
    show Piece.Spells (escape c) (.char c)
    by_cases hshort : c = '"' ∨ c = '\\' ∨ c ∈ shortControls
    · -- each of these characters has a short escape
      simp only [shortControls, List.mem_cons, List.not_mem_nil, or_false] at hshort
      rcases hshort with rfl | rfl | rfl | rfl | rfl | rfl | rfl <;> exact .short rfl
    · obtain ⟨hquote, hslash, hcontrols⟩ : c ≠ '"' ∧ c ≠ '\\' ∧ c ∉ shortControls := by
        simpa only [not_or] using hshort
      have hescape : escape c = [c] := by
        simp only [shortControls, List.mem_cons, List.not_mem_nil, or_false, not_or] at hcontrols
        simp only [escape, hquote, hslash, hcontrols, if_false]
      rw [hescape]
      exact .plain hquote hslash fun hlt => hcontrols (h hlt)

theorem spellsPieces_chars {ps : List Piece} (h : ∀ p ∈ ps, p.Printable) :
    SpellsPieces (ps.flatMap Piece.chars) ps := by
  induction ps with
  | nil => exact .nil
  | cons p ps ih =>
    rw [List.flatMap_cons]
    exact .cons (Piece.spells_chars (h p List.mem_cons_self))
      (ih fun q hq => h q (List.mem_cons_of_mem p hq))

theorem spellsFraction_chars {f : Option (List Char)} (h : ∀ ds ∈ f, Digits ds) :
    SpellsFraction (fractionChars f) f := by
  cases f with
  | none => exact .none
  | some ds => exact .some (h ds rfl)

theorem spellsExponent_chars {e : Option (Bool × List Char)} (h : ∀ p ∈ e, Digits p.2) :
    SpellsExponent (exponentChars e) e := by
  cases e with
  | none => exact .none
  | some p =>
    obtain ⟨minus, ds⟩ := p
    have hds : Digits ds := h _ rfl
    cases minus with
    | true => exact .small (.minus hds)
    | false => exact .small (.bare hds)

theorem Numeral.spells_chars {n : Numeral} (h : n.Printable) : n.Spells n.chars :=
  .intro n.negative h.whole (spellsFraction_chars h.fraction) (spellsExponent_chars h.exponent)

/-! ## Trees

The recursion is that of trees, items and members. A list is printed one way after its opening bracket and
another way after an item, as the grammar has it. -/

mutual

/-- What is printed of a printable tree spells the tree. -/
theorem spells_chars : ∀ {j : Json}, j.Printable → Spells j.chars (.value j)
  | .null, _ => .null
  | .bool true, _ => .yes
  | .bool false, _ => .no
  | .number _, h => .number (Numeral.spells_chars h)
  | .string _, h => .string (spellsPieces_chars h)
  | .array _, h => .array (Items.spells_chars h).1
  | .object _, h => .object (Members.spells_chars h).1

theorem Items.spells_chars : ∀ {l : Items}, l.Printable →
    Spells l.chars (.items l) ∧ Spells l.moreChars (.moreItems l)
  | .close, _ => ⟨.noItems blank_nil, .noMoreItems blank_nil⟩
  | .item _ _, h =>
    have hitem := Spells.item (Json.spells_chars h.1) (Items.spells_chars h.2).2
    ⟨.someItems hitem, .moreItems blank_nil hitem⟩

theorem Members.spells_chars : ∀ {m : Members}, m.Printable →
    Spells m.chars (.members m) ∧ Spells m.moreChars (.moreMembers m)
  | .close, _ => ⟨.noMembers blank_nil, .noMoreMembers blank_nil⟩
  | .member (.string _) _ _, h =>
    have hmember := Spells.member (.string (spellsPieces_chars h.1)) blank_nil
      (Json.spells_chars h.2.1) (Members.spells_chars h.2.2).2
    ⟨.someMembers hmember, .moreMembers blank_nil hmember⟩

end

/-! ## Trees that are made

What the program writes is made by a few functions, and all of them make printable trees. -/

theorem Piece.printable_ofChar (c : Char) : (Piece.ofChar c).Printable := by
  rw [Piece.ofChar]
  split
  · next h =>
    -- a control is far below the greatest unit
    have hlt : c.toNat < ' '.toNat := h.1
    show c.toNat < 0x10000
    exact Nat.lt_trans hlt (by decide)
  · next h =>
    exact fun hlt => Decidable.not_not.1 fun hmem => h ⟨hlt, hmem⟩

theorem printable_pieces (s : String) : ∀ p ∈ s.toList.map Piece.ofChar, p.Printable := by
  intro p hp
  obtain ⟨c, _, rfl⟩ := List.mem_map.1 hp
  exact Piece.printable_ofChar c

theorem printable_ofString (s : String) : (ofString s).Printable := printable_pieces s

theorem printable_ofString? (s : Option String) : (ofString? s).Printable := by
  cases s with
  | none => exact trivial
  | some s => exact printable_ofString s

/-- The digits of a positive number do not begin with zero. -/
theorem toDigits_ne_zero_cons {n : Nat} (hn : 0 < n) (ds : List Char) :
    Nat.toDigits 10 n ≠ '0' :: ds := by
  induction n using Nat.strongRecOn generalizing ds with
  | ind n ih =>
    rcases Nat.lt_or_ge n 10 with hlt | hge
    · have hdigit : ∀ k < 10, 0 < k → Nat.digitChar k ≠ '0' := by decide
      rw [Nat.toDigits_of_lt_base hlt]
      exact fun h => hdigit n hlt hn (List.cons.inj h).1
    · -- the first digit is that of the tenth part
      rw [Nat.toDigits_of_base_le (by decide) hge]
      intro h
      rcases List.append_eq_cons_iff.1 h with ⟨hnil, _⟩ | ⟨ds', htenth, _⟩
      · exact Nat.toDigits_ne_nil hnil
      · exact ih (n / 10) (by omega) (by omega) ds' htenth

theorem wholeDigits_toDigits (n : Nat) : WholeDigits (Nat.toDigits 10 n) where
  ne_nil := Nat.toDigits_ne_nil
  isDigit _ hc := Nat.isDigit_of_mem_toDigits (by decide) (by decide) hc
  no_leading_zero d ds := by
    rcases Nat.eq_zero_or_pos n with rfl | hn
    · exact fun h => nomatch (List.cons.inj h).2
    · exact toDigits_ne_zero_cons hn _

theorem printable_ofNat (n : Nat) : (ofNat n).Printable :=
  ⟨wholeDigits_toDigits n, (fun _ h => nomatch h), (fun _ h => nomatch h)⟩

theorem Items.printable_ofList {js : List Json} (h : ∀ j ∈ js, j.Printable) :
    (Items.ofList js).Printable := by
  induction js with
  | nil => exact trivial
  | cons j js ih =>
    exact ⟨h j List.mem_cons_self, ih fun i hi => h i (List.mem_cons_of_mem j hi)⟩

theorem Members.printable_ofList {es : List (String × Json)} (h : ∀ e ∈ es, e.2.Printable) :
    (Members.ofList es).Printable := by
  induction es with
  | nil => exact trivial
  | cons e es ih =>
    exact ⟨printable_pieces e.1, h e List.mem_cons_self,
      ih fun i hi => h i (List.mem_cons_of_mem e hi)⟩

end Casebook.Json
