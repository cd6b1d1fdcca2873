import Casebook.Proofs.Json.Spelling

/-!
# Reading what is spelled

The reader reads every spelling of a tree and leaves what stands behind it (`readValue_of_spells`).
The readers are opened here once, one lemma for each way that they can go on, and the main result
follows by induction on the spelling.

Only a number does not know where it ends: what stands behind it must not go on with it (`Ends`).
Blanks, commas, colons and closing brackets do not, and neither does the end of the text.
-/

namespace Casebook.Json

/-! ## What stands behind a number

Of what can stand behind a value in a text, nothing goes on with a number: that is why a number need not
be closed. -/

/-- Whether a character goes on with a number. -/
def goesOn (c : Char) : Bool := c.isDigit || c = '.' || c = 'e' || c = 'E'

/-- What stands behind a number does not go on with it. -/
def Ends (rest : List Char) : Prop := ∀ c ∈ rest.head?, goesOn c = false

theorem goesOn_of_isSpace {c : Char} (h : isSpace c = true) : goesOn c = false := by
  simp only [isSpace, Bool.or_eq_true, decide_eq_true_eq] at h
  rcases h with ((rfl | rfl) | rfl) | rfl <;> decide

theorem ends_blanks {ws tail : List Char} {c : Char} (hws : Blank ws) (hc : goesOn c = false) :
    Ends (ws ++ c :: tail) := by
  cases ws with
  | nil =>
    intro d hd
    cases hd
    exact hc
  | cons w ws =>
    intro d hd
    cases hd
    exact goesOn_of_isSpace (hws w List.mem_cons_self)

/-! ## Blanks

Every reader of a part begins with `skipSpace`, and sees the next token then. -/

theorem skipSpace_blank_append {ws : List Char} (hws : Blank ws) (cs : List Char) :
    skipSpace (ws ++ cs) = skipSpace cs :=
  List.dropWhile_append_of_pos hws

theorem skipSpace_cons {c : Char} (h : isSpace c = false) (tail : List Char) :
    skipSpace (c :: tail) = c :: tail := by
  rw [skipSpace, List.dropWhile_cons_of_neg (by rw [h]; exact Bool.false_ne_true)]

theorem skipSpace_token {ws : List Char} {c : Char} (hws : Blank ws) (hc : isSpace c = false)
    (tail : List Char) : skipSpace (ws ++ c :: tail) = c :: tail := by
  rw [skipSpace_blank_append hws, skipSpace_cons hc]

/-! ## Strings -/

/-- A string is read up to the quote that closes it. By induction on its pieces, none of which is a
quote. -/
theorem readPieces_of_spells {cs : List Char} {ps : List Piece} (h : SpellsPieces cs ps)
    (rest : List Char) : readPieces (cs ++ '"' :: rest) = some (ps, rest) := by
  induction h with
  | nil => rw [List.nil_append, readPieces]
  | @cons cs ds p ps hp _ ih =>
    rw [List.append_assoc]
    -- the piece says which way the reader goes, and the side goals rule the other ways out
    cases hp with
    | @plain c hquote hslash hcontrol =>
      have hplain : (decide (c = '\\') || decide (c < ' ')) = false := by
        rw [decide_eq_false hslash, decide_eq_false hcontrol]
        rfl
      rw [List.singleton_append, readPieces, hplain, ih]
      · rfl
      · exact fun h => hquote h
      · exact fun _ _ _ _ _ h _ => hslash h
      · exact fun _ _ h _ => hslash h
    | @short e c he =>
      have hu : e ≠ 'u' := by
        rintro rfl
        cases he
      rw [List.cons_append, List.singleton_append, readPieces, he, ih]
      exact fun _ _ _ _ _ h _ => hu h
    | unit hn => simp only [List.cons_append, List.nil_append, readPieces, hn, ih]

/-! ## Numbers

Each part of a number ends where the next one begins, or where the number does. So each lemma asks of what
stands behind a part only that it does not begin like more of it, and the next part is seen not to. -/

theorem takeWhile_isDigit_of_head {rest : List Char} (h : ∀ c ∈ rest.head?, c.isDigit = false) :
    rest.takeWhile Char.isDigit = [] ∧ rest.dropWhile Char.isDigit = rest := by
  cases rest with
  | nil => exact ⟨rfl, rfl⟩
  | cons c tail =>
    have hc : c.isDigit = false := h c rfl
    simp [hc]

theorem Digits.exists_cons {ds : List Char} (hds : Digits ds) :
    ∃ d ds', ds = d :: ds' ∧ d.isDigit = true := by
  cases ds with
  | nil => exact absurd rfl hds.ne_nil
  | cons d ds => exact ⟨d, ds, rfl, hds.isDigit d List.mem_cons_self⟩

theorem Digits.append_ne_cons {ds : List Char} (hds : Digits ds) {c : Char}
    (hc : c.isDigit = false) (rest tail : List Char) : ds ++ rest ≠ c :: tail := by
  obtain ⟨d, ds', rfl, hd⟩ := hds.exists_cons
  intro h
  rw [(List.cons.inj h).1, hc] at hd
  cases hd

theorem readDigits_append {ds rest : List Char} (hds : Digits ds)
    (h : ∀ c ∈ rest.head?, c.isDigit = false) : readDigits (ds ++ rest) = some (ds, rest) := by
  obtain ⟨htake, hdrop⟩ := takeWhile_isDigit_of_head h
  rw [readDigits, List.takeWhile_append_of_pos hds.isDigit, htake, List.append_nil,
    List.dropWhile_append_of_pos hds.isDigit, hdrop]
  cases ds with
  | nil => exact absurd rfl hds.ne_nil
  | cons d ds => rfl

theorem readWhole_append {ds rest : List Char} (hds : WholeDigits ds)
    (h : ∀ c ∈ rest.head?, c.isDigit = false) : readWhole (ds ++ rest) = some (ds, rest) := by
  rw [readWhole, readDigits_append hds.toDigits h]
  split
  · next heq =>
    simp only [Option.some.injEq, Prod.mk.injEq] at heq
    exact absurd heq.1 (hds.no_leading_zero _ _)
  · rfl

theorem readFraction_append {fs rest : List Char} {f : Option (List Char)}
    (hf : SpellsFraction fs f) (h : ∀ c ∈ rest.head?, c.isDigit = false ∧ c ≠ '.') :
    readFraction (fs ++ rest) = some (f, rest) := by
  cases hf with
  | none =>
    rw [List.nil_append]
    unfold readFraction
    split
    · exact absurd rfl (h '.' rfl).2
    · rfl
  | some hds =>
    rw [List.cons_append, readFraction, readDigits_append hds fun c hc => (h c hc).1]
    rfl

theorem readPower_append {cs rest : List Char} {p : Bool × List Char} (hp : SpellsPower cs p)
    (h : ∀ c ∈ rest.head?, c.isDigit = false) : readPower (cs ++ rest) = some (p, rest) := by
  cases hp with
  | bare hds =>
    rw [readPower, readDigits_append hds h]
    · rfl
    · exact fun tail => hds.append_ne_cons (by decide) rest tail
    · exact fun tail => hds.append_ne_cons (by decide) rest tail
  | plus hds =>
    rw [List.cons_append, readPower, readDigits_append hds h]
    rfl
  | minus hds =>
    rw [List.cons_append, readPower, readDigits_append hds h]
    rfl

theorem Ends.not_isDigit {rest : List Char} (h : Ends rest) {c : Char} (hc : c ∈ rest.head?) :
    c.isDigit = false ∧ c ≠ '.' := by
  have hgo := h c hc
  simp only [goesOn, Bool.or_eq_false_iff, decide_eq_false_iff_not] at hgo
  exact ⟨hgo.1.1.1, hgo.1.1.2⟩

theorem readExponent_append {es rest : List Char} {e : Option (Bool × List Char)}
    (he : SpellsExponent es e) (h : Ends rest) : readExponent (es ++ rest) = some (e, rest) := by
  have hdigit : ∀ c ∈ rest.head?, c.isDigit = false := fun c hc => (h.not_isDigit hc).1
  cases he with
  | none =>
    rw [List.nil_append]
    unfold readExponent
    split
    · exact absurd (h 'e' rfl) (by decide)
    · exact absurd (h 'E' rfl) (by decide)
    · rfl
  | small hp =>
    rw [List.cons_append, readExponent, readPower_append hp hdigit]
    rfl
  | capital hp =>
    rw [List.cons_append, readExponent, readPower_append hp hdigit]
    rfl

/-- An exponent does not go on with the digits before it. -/
theorem head_exponent_append {es rest : List Char} {e : Option (Bool × List Char)}
    (he : SpellsExponent es e) (h : Ends rest) :
    ∀ c ∈ (es ++ rest).head?, c.isDigit = false ∧ c ≠ '.' := by
  intro c hc
  cases he with
  | none => exact h.not_isDigit hc
  | small hp =>
    cases hc
    decide
  | capital hp =>
    cases hc
    decide

/-- A fraction does not go on with the digits before it. -/
theorem head_fraction_append {fs rest : List Char} {f : Option (List Char)}
    (hf : SpellsFraction fs f) (h : ∀ c ∈ rest.head?, c.isDigit = false ∧ c ≠ '.') :
    ∀ c ∈ (fs ++ rest).head?, c.isDigit = false := by
  intro c hc
  cases hf with
  | none => exact (h c hc).1
  | some hds =>
    cases hc
    decide

theorem readUnsigned_append {ws fs es rest : List Char} {f : Option (List Char)}
    {e : Option (Bool × List Char)} (hw : WholeDigits ws) (hf : SpellsFraction fs f)
    (he : SpellsExponent es e) (h : Ends rest) (negative : Bool) :
    readUnsigned negative (ws ++ (fs ++ (es ++ rest))) = some (⟨negative, ws, f, e⟩, rest) := by
  have hes := head_exponent_append he h
  have hfs := head_fraction_append hf hes
  rw [readUnsigned, readWhole_append hw hfs]
  simp only [readFraction_append hf hes, readExponent_append he h]

/-- A number is read from the front of a text, if what is behind does not go on with it. -/
theorem readNumeral_append {cs rest : List Char} {n : Numeral} (hn : n.Spells cs) (h : Ends rest) :
    readNumeral (cs ++ rest) = some (n, rest) := by
  obtain ⟨negative, hw, hf, he⟩ := hn
  have hread := readUnsigned_append hw hf he h negative
  cases negative with
  | true =>
    simp only [if_true, List.cons_append, List.nil_append, List.append_assoc]
    rw [readNumeral, hread]
  | false =>
    simp only [Bool.false_eq_true, if_false, List.nil_append, List.append_assoc]
    rw [readNumeral, hread]
    exact fun tail => hw.append_ne_cons (by decide) _ tail

/-- A number begins with a minus sign or a digit. -/
theorem Numeral.Spells.head {cs : List Char} {n : Numeral} (hn : n.Spells cs) :
    ∃ c tail, cs = c :: tail ∧ (c = '-' ∨ c.isDigit = true) := by
  obtain ⟨negative, hw, _, _⟩ := hn
  cases negative with
  | true => exact ⟨'-', _, rfl, .inl rfl⟩
  | false =>
    obtain ⟨d, ds, rfl, hd⟩ := hw.exists_cons
    exact ⟨d, _, rfl, .inr hd⟩

/-! ## How values begin

A list is read item by item as long as no bracket closes it. A value never begins with such a bracket, so
the reader of a list does not stop before an item. -/

/-- Whether a value may begin with a character. -/
def beginsValue (c : Char) : Bool :=
  c = '-' || c.isDigit || ['n', 't', 'f', '"', '[', '{'].contains c

theorem beginsValue_of_numeral {c : Char} (h : c = '-' ∨ c.isDigit = true) :
    beginsValue c = true := by
  rcases h with rfl | h
  · decide
  · rw [beginsValue, h, Bool.or_true, Bool.true_or]

theorem isSpace_of_beginsValue {c : Char} (h : beginsValue c = true) : isSpace c = false := by
  rw [← Bool.not_eq_true]
  intro hc
  simp only [isSpace, Bool.or_eq_true, decide_eq_true_eq] at hc
  rcases hc with ((rfl | rfl) | rfl) | rfl <;> exact absurd h (by decide)

/-- A value begins, after blanks, with a character that is no blank and closes nothing. -/
theorem Spells.head {cs : List Char} {j : Json} (h : Spells cs (.value j)) :
    ∃ ws c tail, cs = ws ++ c :: tail ∧ Blank ws ∧ beginsValue c = true := by
  generalize hp : Part.value j = p at h
  induction h generalizing j with
  | null => exact ⟨[], 'n', _, rfl, blank_nil, rfl⟩
  | yes => exact ⟨[], 't', _, rfl, blank_nil, rfl⟩
  | no => exact ⟨[], 'f', _, rfl, blank_nil, rfl⟩
  | number hn =>
    obtain ⟨c, tail, rfl, hc⟩ := hn.head
    exact ⟨[], c, tail, rfl, blank_nil, beginsValue_of_numeral hc⟩
  | string _ => exact ⟨[], '"', _, rfl, blank_nil, rfl⟩
  | array _ _ => exact ⟨[], '[', _, rfl, blank_nil, rfl⟩
  | object _ _ => exact ⟨[], '{', _, rfl, blank_nil, rfl⟩
  | @blanks ws cs j' hws _ ih =>
    obtain ⟨ws', c, tail, rfl, hws', hc⟩ := ih rfl
    refine ⟨ws ++ ws', c, tail, (List.append_assoc ..).symm, fun d hd => ?_, hc⟩
    exact (List.mem_append.1 hd).elim (hws d) (hws' d)
  | _ => cases hp

/-- Where a value stands, what follows the blanks does not close a list. -/
theorem Spells.skipSpace_value_ne {cs : List Char} {j : Json} (h : Spells cs (.value j))
    {c : Char} (hc : beginsValue c = false) (rest tail : List Char) :
    skipSpace (cs ++ rest) ≠ c :: tail := by
  obtain ⟨ws, d, ds, rfl, hws, hd⟩ := h.head
  rw [List.append_assoc, List.cons_append, skipSpace_token hws (isSpace_of_beginsValue hd)]
  intro heq
  rw [(List.cons.inj heq).1, hc] at hd
  cases hd

theorem Spells.skipSpace_item_ne {cs : List Char} {l : Items} (h : Spells cs (.item l))
    {c : Char} (hc : beginsValue c = false) (rest tail : List Char) :
    skipSpace (cs ++ rest) ≠ c :: tail := by
  cases h with
  | item hj _ =>
    rw [List.append_assoc]
    exact hj.skipSpace_value_ne hc _ tail

theorem Spells.skipSpace_member_ne {cs : List Char} {m : Members} (h : Spells cs (.member m))
    {c : Char} (hc : beginsValue c = false) (rest tail : List Char) :
    skipSpace (cs ++ rest) ≠ c :: tail := by
  cases h with
  | member hk _ _ _ =>
    rw [List.append_assoc]
    exact hk.skipSpace_value_ne hc _ tail

/-! ## One step of a reader

The readers carry along that a text only gets shorter, which is what makes them terminate. Their equations
are restated without that, as what is read (`Scan.out`), and are opened nowhere else. -/

namespace Scan

variable {α β : Type} {cs tail : List Char}

/-- What was read, and what is left. -/
def out (s : Scan α cs) : α × List Char := (s.value, s.rest)

theorem out_within (s : Scan α tail) (h : tail.length ≤ cs.length) (f : α → β) :
    (s.within h f).out = (f s.out.1, s.out.2) := rfl

end Scan

/-- The reader's equation, without the proofs that the reader carries. -/
theorem out_readValue (cs : List Char) :
    (readValue cs).out = match skipSpace cs with
      | '"' :: tail => ((readPieces tail).map fun s => (Json.string s.1, s.2)).getD (.broken, [])
      | '[' :: tail => (.array (readItems tail).out.1, (readItems tail).out.2)
      | '\x7b' :: tail => (.object (readMembers tail).out.1, (readMembers tail).out.2)
      | text => (readScalar text).getD (.broken, []) := by
  rw [readValue]
  split
  · next tail h =>
    split
    · next ps rest hread =>
      show (Json.string ps, rest) = _
      rw [h]
      simp only [hread, Option.map_some, Option.getD_some]
    · next hread =>
      show (Json.broken, []) = _
      rw [h]
      simp only [hread, Option.map_none, Option.getD_none]
  · next h =>
    rw [Scan.out_within, h]
    rfl
  · next h =>
    rw [Scan.out_within, h]
    rfl
  · next hstring harray hobject =>
    split
    · next j rest hread =>
      show (j, rest) = _
      split
      · next h => exact absurd h (hstring _)
      · next h => exact absurd h (harray _)
      · next h => exact absurd h (hobject _)
      · rw [hread, Option.getD_some]
    · next hread =>
      show (Json.broken, []) = _
      split
      · next h => exact absurd h (hstring _)
      · next h => exact absurd h (harray _)
      · next h => exact absurd h (hobject _)
      · rw [hread, Option.getD_none]

theorem out_readItems (cs : List Char) :
    (readItems cs).out = match skipSpace cs with
      | ']' :: tail => (.close, tail)
      | _ => (readItem cs).out := by
  rw [readItems]
  split
  · next tail h =>
    show (Items.close, tail) = _
    rw [h]
    rfl
  · next hne =>
    split
    · next h => exact absurd h (hne _)
    · rfl

theorem out_readItem (cs : List Char) :
    (readItem cs).out
      = (.item (readValue cs).out.1 (readMoreItems (readValue cs).out.2).out.1,
        (readMoreItems (readValue cs).out.2).out.2) := by
  rw [readItem, Scan.out_within]
  rfl

theorem out_readMoreItems (cs : List Char) :
    (readMoreItems cs).out = match skipSpace cs with
      | ']' :: tail => (.close, tail)
      | ',' :: tail => (readItem tail).out
      | _ => (.cut, []) := by
  rw [readMoreItems]
  split
  · next tail h =>
    show (Items.close, tail) = _
    rw [h]
    rfl
  · next h =>
    rw [Scan.out_within, h]
    rfl
  · next hclose hcomma =>
    split
    · next h => exact absurd h (hclose _)
    · next h => exact absurd h (hcomma _)
    · rfl

theorem out_readMembers (cs : List Char) :
    (readMembers cs).out = match skipSpace cs with
      | '}' :: tail => (.close, tail)
      | _ => (readMember cs).out := by
  rw [readMembers]
  split
  · next tail h =>
    show (Members.close, tail) = _
    rw [h]
    rfl
  · next hne =>
    split
    · next h => exact absurd h (hne _)
    · rfl

theorem out_readMember (cs : List Char) :
    (readMember cs).out = match (readValue cs).out.1, skipSpace (readValue cs).out.2 with
      | .string ps, ':' :: tail =>
        (.member (.string ps) (readValue tail).out.1 (readMoreMembers (readValue tail).out.2).out.1,
          (readMoreMembers (readValue tail).out.2).out.2)
      | other, _ => (.member other .broken .cut, []) := by
  rw [readMember]
  split
  · next ps tail hps h =>
    rw [Scan.out_within]
    rw [show (readValue cs).out = (.string ps, (readValue cs).rest) from Prod.ext hps rfl]
    simp only []
    rw [h]
    rfl
  · next hne =>
    split
    · next hps h => exact absurd h (hne _ _ hps)
    · rfl

theorem out_readMoreMembers (cs : List Char) :
    (readMoreMembers cs).out = match skipSpace cs with
      | '}' :: tail => (.close, tail)
      | ',' :: tail => (readMember tail).out
      | _ => (.cut, []) := by
  rw [readMoreMembers]
  split
  · next tail h =>
    show (Members.close, tail) = _
    rw [h]
    rfl
  · next h =>
    rw [Scan.out_within, h]
    rfl
  · next hclose hcomma =>
    split
    · next h => exact absurd h (hclose _)
    · next h => exact absurd h (hcomma _)
    · rfl

/-! ## The reader reads every spelling

`Part.Reads` is the one statement for all seven readers, so that a single induction on the spelling goes
through them together. -/

/-- The reader of a part finds the part at the front of a text, and leaves the rest. -/
def Part.Reads : Part → List Char → List Char → Prop
  | .value j, cs, rest => (readValue cs).out = (j, rest)
  | .items l, cs, rest => (readItems cs).out = (l, rest)
  | .item l, cs, rest => (readItem cs).out = (l, rest)
  | .moreItems l, cs, rest => (readMoreItems cs).out = (l, rest)
  | .members m, cs, rest => (readMembers cs).out = (m, rest)
  | .member m, cs, rest => (readMember cs).out = (m, rest)
  | .moreMembers m, cs, rest => (readMoreMembers cs).out = (m, rest)

/-- What follows an item or a member goes on with no number. -/
theorem Spells.ends_moreItems {cs : List Char} {l : Items} (h : Spells cs (.moreItems l))
    (rest : List Char) : Ends (cs ++ rest) := by
  cases h with
  | noMoreItems hws =>
    rw [List.append_assoc]
    exact ends_blanks hws (by decide)
  | moreItems hws _ =>
    rw [List.append_assoc]
    exact ends_blanks hws (by decide)

theorem Spells.ends_moreMembers {cs : List Char} {m : Members} (h : Spells cs (.moreMembers m))
    (rest : List Char) : Ends (cs ++ rest) := by
  cases h with
  | noMoreMembers hws =>
    rw [List.append_assoc]
    exact ends_blanks hws (by decide)
  | moreMembers hws _ =>
    rw [List.append_assoc]
    exact ends_blanks hws (by decide)

theorem readValue_numeral {cs rest : List Char} {n : Numeral} (hn : n.Spells cs)
    (h : Ends rest) : (readValue (cs ++ rest)).out = (.number n, rest) := by
  have hread := readNumeral_append hn h
  obtain ⟨c, tail, rfl, hc⟩ := hn.head
  have hspace := isSpace_of_beginsValue (beginsValue_of_numeral hc)
  have hne {d : Char} (hd : d ≠ '-' ∧ d.isDigit = false) : c ≠ d := by
    rintro rfl
    rcases hc with hc | hc
    · exact hd.1 hc
    · rw [hd.2] at hc
      cases hc
  -- the first character is a sign or a digit: no token of another value begins with it
  rw [List.cons_append] at hread ⊢
  rw [out_readValue, skipSpace_cons hspace]
  split
  · next heq => exact absurd (List.cons.inj heq).1 (hne (by decide))
  · next heq => exact absurd (List.cons.inj heq).1 (hne (by decide))
  · next heq => exact absurd (List.cons.inj heq).1 (hne (by decide))
  · rw [readScalar, hread]
    · rfl
    · exact fun _ heq => absurd (List.cons.inj heq).1 (hne (by decide))
    · exact fun _ heq => absurd (List.cons.inj heq).1 (hne (by decide))
    · exact fun _ heq => absurd (List.cons.inj heq).1 (hne (by decide))

/-! ## One rule of the grammar

For each rule, if its parts are read one behind the other, then so is what the rule makes of them. Blanks and
the next token say which way a reader goes, and where there is no token, the assumption does. -/

namespace Part.Reads

variable {ws cs mid tail rest : List Char} {j : Json} {l : Items} {m : Members} {ps : List Piece}

theorem null (rest : List Char) : (Part.value .null).Reads ('n' :: 'u' :: 'l' :: 'l' :: rest) rest := by
  show (readValue _).out = _
  rw [out_readValue, skipSpace_cons (by decide)]
  rfl

theorem yes (rest : List Char) :
    (Part.value (.bool true)).Reads ('t' :: 'r' :: 'u' :: 'e' :: rest) rest := by
  show (readValue _).out = _
  rw [out_readValue, skipSpace_cons (by decide)]
  rfl

theorem no (rest : List Char) :
    (Part.value (.bool false)).Reads ('f' :: 'a' :: 'l' :: 's' :: 'e' :: rest) rest := by
  show (readValue _).out = _
  rw [out_readValue, skipSpace_cons (by decide)]
  rfl

theorem string (h : SpellsPieces cs ps) (rest : List Char) :
    (Part.value (.string ps)).Reads ('"' :: (cs ++ '"' :: rest)) rest := by
  show (readValue _).out = _
  rw [out_readValue, skipSpace_cons (by decide)]
  simp only [readPieces_of_spells h]
  rfl

theorem array (h : (Part.items l).Reads cs rest) : (Part.value (.array l)).Reads ('[' :: cs) rest := by
  have hread : (readItems cs).out = (l, rest) := h
  show (readValue _).out = _
  rw [out_readValue, skipSpace_cons (by decide)]
  simp only [hread]

theorem object (h : (Part.members m).Reads cs rest) :
    (Part.value (.object m)).Reads ('\x7b' :: cs) rest := by
  have hread : (readMembers cs).out = (m, rest) := h
  show (readValue _).out = _
  rw [out_readValue, skipSpace_cons (by decide)]
  simp only [hread]

theorem blanks (hws : Blank ws) (h : (Part.value j).Reads cs rest) :
    (Part.value j).Reads (ws ++ cs) rest := by
  show (readValue _).out = _
  rw [out_readValue, skipSpace_blank_append hws, ← out_readValue]
  exact h

theorem noItems (hws : Blank ws) (rest : List Char) :
    (Part.items .close).Reads (ws ++ ']' :: rest) rest := by
  show (readItems _).out = _
  rw [out_readItems, skipSpace_token hws (by decide)]
  rfl

/-- Where no bracket closes the list, its first item is read. -/
theorem someItems (hopen : ∀ tail, skipSpace cs ≠ ']' :: tail) (h : (Part.item l).Reads cs rest) :
    (Part.items l).Reads cs rest := by
  show (readItems _).out = _
  rw [out_readItems]
  split
  · next heq => exact absurd heq (hopen _)
  · exact h

theorem item (hj : (Part.value j).Reads cs mid) (hl : (Part.moreItems l).Reads mid rest) :
    (Part.item (.item j l)).Reads cs rest := by
  have hvalue : (readValue cs).out = (j, mid) := hj
  have hmore : (readMoreItems mid).out = (l, rest) := hl
  show (readItem _).out = _
  rw [out_readItem, hvalue, hmore]

theorem noMoreItems (hws : Blank ws) (rest : List Char) :
    (Part.moreItems .close).Reads (ws ++ ']' :: rest) rest := by
  show (readMoreItems _).out = _
  rw [out_readMoreItems, skipSpace_token hws (by decide)]
  rfl

theorem moreItems (hws : Blank ws) (h : (Part.item l).Reads cs rest) :
    (Part.moreItems l).Reads (ws ++ ',' :: cs) rest := by
  show (readMoreItems _).out = _
  rw [out_readMoreItems, skipSpace_token hws (by decide)]
  exact h

theorem noMembers (hws : Blank ws) (rest : List Char) :
    (Part.members .close).Reads (ws ++ '}' :: rest) rest := by
  show (readMembers _).out = _
  rw [out_readMembers, skipSpace_token hws (by decide)]
  rfl

/-- Where no brace closes the object, its first member is read. -/
theorem someMembers (hopen : ∀ tail, skipSpace cs ≠ '}' :: tail) (h : (Part.member m).Reads cs rest) :
    (Part.members m).Reads cs rest := by
  show (readMembers _).out = _
  rw [out_readMembers]
  split
  · next heq => exact absurd heq (hopen _)
  · exact h

/-- A key, a colon behind blanks, a value, and the members behind it. -/
theorem member (hk : (Part.value (.string ps)).Reads cs (ws ++ ':' :: tail)) (hws : Blank ws)
    (hj : (Part.value j).Reads tail mid) (hm : (Part.moreMembers m).Reads mid rest) :
    (Part.member (.member (.string ps) j m)).Reads cs rest := by
  have hkey : (readValue cs).out = (.string ps, ws ++ ':' :: tail) := hk
  have hvalue : (readValue tail).out = (j, mid) := hj
  have hmore : (readMoreMembers mid).out = (m, rest) := hm
  show (readMember _).out = _
  rw [out_readMember, hkey]
  simp only []
  rw [skipSpace_token hws (by decide)]
  simp only []
  rw [hvalue, hmore]

theorem noMoreMembers (hws : Blank ws) (rest : List Char) :
    (Part.moreMembers .close).Reads (ws ++ '}' :: rest) rest := by
  show (readMoreMembers _).out = _
  rw [out_readMoreMembers, skipSpace_token hws (by decide)]
  rfl

theorem moreMembers (hws : Blank ws) (h : (Part.member m).Reads cs rest) :
    (Part.moreMembers m).Reads (ws ++ ',' :: cs) rest := by
  show (readMoreMembers _).out = _
  rw [out_readMoreMembers, skipSpace_token hws (by decide)]
  exact h

end Part.Reads

/-- The reader of a part reads every spelling of the part. By induction on the spelling, one rule of the
grammar after the other; what stands behind a part is the rest for the reader of that part, and must not go
on with a number at its end. -/
theorem reads_of_spells {cs : List Char} {p : Part} (h : Spells cs p) :
    ∀ rest, Ends rest → p.Reads (cs ++ rest) rest := by
  induction h with
  | null => exact fun rest _ => .null rest
  | yes => exact fun rest _ => .yes rest
  | no => exact fun rest _ => .no rest
  | number hn => exact fun rest hr => readValue_numeral hn hr
  | @string cs ps hps =>
    intro rest _
    show (Part.value (.string ps)).Reads ('"' :: ((cs ++ ['"']) ++ rest)) rest
    rw [List.append_assoc]
    exact .string hps rest
  | array _ ih => exact fun rest hr => (ih rest hr).array
  | object _ ih => exact fun rest hr => (ih rest hr).object
  | blanks hws _ ih =>
    intro rest hr
    rw [List.append_assoc]
    exact (ih rest hr).blanks hws
  | noItems hws =>
    intro rest _
    rw [List.append_assoc]
    exact .noItems hws rest
  | someItems h ih =>
    -- an item does not begin with a closing bracket
    exact fun rest hr => (ih rest hr).someItems (h.skipSpace_item_ne (by decide) rest)
  | item _ hl ihj ihl =>
    intro rest hr
    rw [List.append_assoc]
    -- an item that is a number ends where the comma or the bracket behind it begins
    exact (ihj _ (hl.ends_moreItems rest)).item (ihl rest hr)
  | noMoreItems hws =>
    intro rest _
    rw [List.append_assoc]
    exact .noMoreItems hws rest
  | moreItems hws _ ih =>
    intro rest hr
    rw [List.append_assoc]
    exact (ih rest hr).moreItems hws
  | noMembers hws =>
    intro rest _
    rw [List.append_assoc]
    exact .noMembers hws rest
  | someMembers h ih =>
    exact fun rest hr => (ih rest hr).someMembers (h.skipSpace_member_ne (by decide) rest)
  | @member ks ws cs ds ps j m _ hws _ hm ihk ihj ihm =>
    intro rest hr
    have happend : ks ++ (ws ++ ':' :: (cs ++ ds)) ++ rest
        = ks ++ (ws ++ ':' :: (cs ++ (ds ++ rest))) := by
      simp only [List.append_assoc, List.cons_append]
    rw [happend]
    exact (ihk _ (ends_blanks hws (by decide))).member hws (ihj _ (hm.ends_moreMembers rest))
      (ihm rest hr)
  | noMoreMembers hws =>
    intro rest _
    rw [List.append_assoc]
    exact .noMoreMembers hws rest
  | moreMembers hws _ ih =>
    intro rest hr
    rw [List.append_assoc]
    exact (ih rest hr).moreMembers hws

/-- Every spelling of a value is read as that value. -/
theorem readValue_of_spells {cs : List Char} {j : Json} (h : Spells cs (.value j))
    {rest : List Char} (hr : Ends rest) : (readValue (cs ++ rest)).out = (j, rest) :=
  reads_of_spells h rest hr

end Casebook.Json
