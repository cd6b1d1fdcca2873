import Casebook.Json.Decoder
import Casebook.Proofs.Json.Printing

/-!
# Decoding texts

A text is decoded like the tree that it spells (`decode_of_spells`).

What the decoders of texts, numbers and lists make of the trees that stand for texts, numbers and
lists, and what a number is like that was decoded: it is a word of 64 bits. A list is decoded item by
item, and no other way.
-/

namespace Casebook.Json

/-! ## Taking decoders apart

Decoders are programs that may fail at each of their steps. These lemmas take one step off, in a decoder
that is known to succeed or to fail, and are used wherever a decoder is opened. -/

theorem bind_eq_ok {α β : Type} {x : Decoded α} {f : α → Decoded β} {b : β}
    (h : x >>= f = .ok b) : ∃ a, x = .ok a ∧ f a = .ok b := by
  cases x with
  | error e => cases h
  | ok a => exact ⟨a, rfl, h⟩

theorem bind_of_eq_ok {α β : Type} {x : Decoded α} {a : α} (h : x = .ok a) (f : α → Decoded β) :
    x >>= f = f a := by
  rw [h]
  rfl

theorem map_eq_ok {α β : Type} {x : Decoded α} {f : α → β} {b : β}
    (h : x.map f = .ok b) : ∃ a, x = .ok a ∧ f a = b := by
  cases x with
  | error e => cases h
  | ok a => exact ⟨a, rfl, Except.ok.inj h⟩

theorem map_of_eq_ok {α β : Type} {x : Decoded α} {f : α → β} {a : α} (h : x = .ok a) :
    x.map f = .ok (f a) := by
  rw [h]
  rfl

theorem map_of_eq_error {α β : Type} {x : Decoded α} {f : α → β} {e : Fault} (h : x = .error e) :
    x.map f = .error e := by
  rw [h]
  rfl

/-- What is refused is not decoded. -/
theorem refuse_ne_ok {α : Type} (expected : Expected) (j : Json) (a : α) :
    j.refuse expected ≠ .ok a := by
  rw [refuse]
  cases j.found with
  | ok f => exact nofun
  | error e => exact nofun

theorem decodeOption_eq_ok {α : Type} {decode : Json → Decoded α} {j : Json} {a? : Option α}
    (h : j.decodeOption decode = .ok a?) :
    j = .null ∧ a? = none ∨ ∃ a, decode j = .ok a ∧ a? = some a := by
  unfold decodeOption at h
  split at h
  · cases h
    exact .inl ⟨rfl, rfl⟩
  · obtain ⟨a, ha, rfl⟩ := map_eq_ok h
    exact .inr ⟨a, ha, rfl⟩

/-! ## Whole texts

From here on the reader is out of sight: a text is decoded like its tree. -/

/-- The tree of a text, as far as it can be read. -/
def tree (text : String) : Json := (readValue text.toList).value

/-- A text that spells a tree, with blanks around it, is decoded like the tree itself. -/
theorem decode_of_spells {α : Type} (decoder : Json → Decoded α) {cs ws : List Char} {j : Json}
    (h : Spells cs (.value j)) (hws : Blank ws) :
    decode decoder (String.ofList (cs ++ ws)) = decoder j := by
  have hends : Ends ws := fun c hc => goesOn_of_isSpace (hws c (List.mem_of_mem_head? hc))
  obtain ⟨hvalue, hrest⟩ := Prod.mk.inj (readValue_of_spells h hends)
  have hblank : skipSpace ws = [] := by
    rw [← List.append_nil ws, skipSpace_blank_append hws]
    rfl
  rw [decode, String.toList_ofList, hvalue, hrest, hblank]
  cases decoder j with
  | error e => rfl
  | ok a => rfl

/-- A printed tree is decoded like the tree itself. -/
theorem decode_render {α : Type} (decoder : Json → Decoded α) {j : Json} (h : j.Printable) :
    decode decoder j.render = decoder j := by
  have hspelled := decode_of_spells decoder (spells_chars h) blank_nil
  rwa [List.append_nil] at hspelled

/-- A text is decoded if its tree is and nothing else is left of it. -/
theorem decode_eq_ok_iff {α : Type} {decoder : Json → Decoded α} {text : String} {a : α} :
    decode decoder text = .ok a
      ↔ decoder (tree text) = .ok a ∧ skipSpace (readValue text.toList).rest = [] := by
  rw [decode, tree]
  constructor
  · intro h
    obtain ⟨b, hb, hend⟩ := bind_eq_ok h
    split at hend
    · next hempty =>
      rw [hb]
      exact ⟨hend, List.isEmpty_iff.1 hempty⟩
    · cases hend
  · rintro ⟨ha, hrest⟩
    rw [hrest, bind_of_eq_ok ha]
    rfl

theorem decode_of_eq_error {α : Type} {decoder : Json → Decoded α} {text : String} {e : Fault}
    (h : decoder (tree text) = .error e) : decode decoder text = .error e := by
  rw [tree] at h
  rw [decode, h]
  rfl

theorem exists_of_decode {α : Type} {decoder : Json → Decoded α} {text : String} {a : α}
    (h : decode decoder text = .ok a) : ∃ j, decoder j = .ok a := ⟨_, (decode_eq_ok_iff.1 h).1⟩

/-! ## Texts

A written text has a control as a unit and every other character as itself, and spells itself. -/

theorem spelled?_unit {n : Nat} (h : n < 0xD800) (ps : List Piece) :
    spelled? (.unit n :: ps) = (spelled? ps).map (Char.ofNat n :: ·) := by
  rw [spelled?.eq_def (.unit n :: ps)]
  simp only [decide_eq_true h, Bool.true_or, if_true]

theorem spelled?_ofChar (c : Char) (ps : List Piece) :
    spelled? (Piece.ofChar c :: ps) = (spelled? ps).map (c :: ·) := by
  rw [Piece.ofChar]
  split
  · -- the unit of a control is far below the halves of pairs
    next h =>
    have hlt : c.toNat < ' '.toNat := h.1
    rw [spelled?_unit (Nat.lt_trans hlt (by decide)), Char.ofNat_toNat]
  · rw [spelled?]

theorem textOf_ofString (s : String) : textOf (s.toList.map Piece.ofChar) = .ok s := by
  have hspelled (cs : List Char) : spelled? (cs.map Piece.ofChar) = some cs := by
    induction cs with
    | nil => rfl
    | cons c cs ih => rw [List.map_cons, spelled?_ofChar, ih, Option.map_some]
  rw [textOf, hspelled]
  exact congrArg Except.ok (String.ofList_toList)

theorem decodeText_ofString (expected : Expected) (s : String) :
    (ofString s).decodeText expected = .ok s := textOf_ofString s

theorem keyText_ofString (s : String) : (ofString s).keyText = .ok s := textOf_ofString s

theorem decodeOption_ofString? (s : Option String) :
    (ofString? s).decodeOption (decodeText .text) = .ok s := by
  cases s with
  | none => rfl
  | some s => exact congrArg (Except.map some) (textOf_ofString s)

/-! ## Numbers

A number of 64 bits is decoded exactly. The reader of numbers takes digits as long as they fit and would
give anything longer to the decoder of fractions, so a number that was decoded as an integer did fit. -/

namespace Numeral

theorem le_ofDigitChars (cs : List Char) (n : Nat) : n ≤ Nat.ofDigitChars 10 cs n := by
  rw [Nat.ofDigitChars_eq_ofDigitChars_zero]
  exact Nat.le_add_right_of_le (Nat.le_mul_of_pos_left n (Nat.pow_pos (by decide)))

/-- Digits of a number that fits are all taken. -/
theorem appendDigits_of_le {cs : List Char} {n : Nat} (h : Nat.ofDigitChars 10 cs n ≤ maxWord) :
    appendDigits n cs = (Nat.ofDigitChars 10 cs n, []) := by
  induction cs generalizing n with
  | nil => rw [appendDigits, Nat.ofDigitChars_nil]
  | cons c cs ih =>
    rw [Nat.ofDigitChars_cons] at h ⊢
    rw [appendDigits, if_pos (Nat.le_trans (le_ofDigitChars cs _) h)]
    exact ih h

/-- No more digits are taken than fit. -/
theorem appendDigits_le {n : Nat} (h : n ≤ maxWord) (cs : List Char) :
    (appendDigits n cs).1 ≤ maxWord := by
  induction cs generalizing n with
  | nil => exact h
  | cons c cs ih =>
    rw [appendDigits]
    split
    · next hfits => exact ih hfits
    · exact h

/-- A number that is not negative is read as an integer only if it fits. -/
theorem le_maxWord_of_value? {m : Numeral} {n : Nat} (h : m.value? = some (.integer n)) :
    n ≤ maxWord := by
  have hle := appendDigits_le (Nat.zero_le maxWord) m.whole
  -- only a numeral whose digits were all taken is an integer
  cases happend : appendDigits 0 m.whole with
  | mk whole left =>
    rw [happend] at hle
    simp only [value?, happend] at h
    split at h
    · split at h
      · cases h
        exact hle
      · split at h
        · -- a negative integer is not a natural number
          next hpos =>
          simp only [Option.some.injEq, Value.integer.injEq] at h
          omega
        · obtain ⟨x, _, hx⟩ := Option.map_eq_some_iff.1 h
          cases hx
    · obtain ⟨x, _, hx⟩ := Option.map_eq_some_iff.1 h
      cases hx

end Numeral

theorem decodeNat_ofNat (expected : Expected) {n : Nat} (h : n ≤ Numeral.maxWord) :
    (ofNat n).decodeNat expected = .ok n := by
  have hdigits : Nat.ofDigitChars 10 (Nat.toDigits 10 n) 0 = n := Nat.ofDigitChars_ten_toDigits
  have happend : Numeral.appendDigits 0 (Nat.toDigits 10 n) = (n, []) := by
    rw [Numeral.appendDigits_of_le (by rw [hdigits]; exact h), hdigits]
  have hvalue : Numeral.value? ⟨false, Nat.toDigits 10 n, none, none⟩ = some (.integer n) := by
    rw [Numeral.value?, happend]
    rfl
  rw [ofNat, decodeNat, hvalue]

/-- A number that is decoded is a word of 64 bits. -/
theorem le_maxWord_of_decodeNat {expected : Expected} {j : Json} {n : Nat}
    (h : j.decodeNat expected = .ok n) : n ≤ Numeral.maxWord := by
  unfold decodeNat at h
  split at h
  · split at h
    · next hvalue =>
      cases h
      exact Numeral.le_maxWord_of_value? hvalue
    · cases h
    · cases h
    · cases h
  · exact absurd h (refuse_ne_ok expected _ n)

/-! ## Lists

A list is decoded as a whole or not at all: the first item that is refused is the fault of the list. -/

section Lists

variable {α : Type} {decode : Json → Decoded α}

/-- A list is decoded if each of its items is. -/
theorem Items.decodeAll_map {toJson : α → Json} {as : List α}
    (h : ∀ a ∈ as, decode (toJson a) = .ok a) :
    (Items.ofList (as.map toJson)).decodeAll decode = .ok as := by
  induction as with
  | nil => rfl
  | cons a as ih =>
    have ih := ih fun b hb => h b (List.mem_cons_of_mem a hb)
    rw [List.map_cons, ofList, decodeAll, h a List.mem_cons_self, ih]
    rfl

/-- A list with an item that is refused is refused, for the same reason if there is but one. -/
theorem Items.decodeAll_map_error {toJson : α → Json} {as : List α} {e : Fault}
    (h : ∀ a ∈ as, decode (toJson a) = .ok a ∨ decode (toJson a) = .error e)
    (hbad : ∃ a ∈ as, decode (toJson a) = .error e) :
    (Items.ofList (as.map toJson)).decodeAll decode = .error e := by
  induction as with
  | nil =>
    obtain ⟨a, hmem, _⟩ := hbad
    cases hmem
  | cons a as ih =>
    rw [List.map_cons, ofList, decodeAll]
    rcases h a List.mem_cons_self with ha | ha
    · have hrest : ∃ b ∈ as, decode (toJson b) = .error e := by
        obtain ⟨b, hmem, hb⟩ := hbad
        rcases List.mem_cons.1 hmem with rfl | hmem
        · cases ha.symm.trans hb
        · exact ⟨b, hmem, hb⟩
      rw [ha, ih (fun b hb => h b (List.mem_cons_of_mem a hb)) hrest]
      rfl
    · rw [ha]
      rfl

/-- An item at a position. -/
inductive Items.Has (value : Json) : Nat → Items → Prop
  | head {rest : Items} : Has value 0 (.item value rest)
  | tail {n : Nat} {other : Json} {rest : Items} : Has value n rest →
    Has value (n + 1) (.item other rest)

/-- Every item of a list that is decoded is decoded. -/
theorem Items.exists_of_has {l : Items} {n : Nat} {value : Json} {as : List α} (h : l.Has value n)
    (hdecode : l.decodeAll decode = .ok as) : ∃ a, decode value = .ok a := by
  induction h generalizing as with
  | head =>
    obtain ⟨a, ha, -⟩ := bind_eq_ok hdecode
    exact ⟨a, ha⟩
  | tail _ ih =>
    obtain ⟨_, -, hdecode⟩ := bind_eq_ok hdecode
    obtain ⟨as', has', -⟩ := bind_eq_ok hdecode
    exact ih has'

/-- What a decoded list holds was decoded, item by item. -/
theorem Items.has_of_mem {l : Items} {as : List α} (h : l.decodeAll decode = .ok as) :
    ∀ a ∈ as, ∃ value n, l.Has value n ∧ decode value = .ok a := by
  fun_induction decodeAll decode l generalizing as with
  | case1 =>
    cases h
    exact fun a ha => nomatch ha
  | case2 => cases h
  | case3 j l ih =>
    obtain ⟨b, hb, h⟩ := bind_eq_ok h
    obtain ⟨bs, hbs, h⟩ := bind_eq_ok h
    cases h
    intro a ha
    rcases List.mem_cons.1 ha with rfl | ha
    · exact ⟨j, 0, .head, hb⟩
    · obtain ⟨value, n, hvalue, hdecode⟩ := ih hbs a ha
      exact ⟨value, n + 1, .tail hvalue, hdecode⟩

theorem exists_array_of_decodeList {room : Nat} {j : Json} {as : List α}
    (h : j.decodeList room decode = .ok as) : ∃ l, j = .array l ∧ l.decodeAll decode = .ok as := by
  unfold decodeList at h
  split at h
  · next l =>
    split at h
    · cases h
    · exact ⟨l, rfl, h⟩
  · exact absurd h (refuse_ne_ok _ _ as)

theorem exists_of_decodeList {room : Nat} {j : Json} {as : List α}
    (h : j.decodeList room decode = .ok as) : ∀ a ∈ as, ∃ i, decode i = .ok a := by
  obtain ⟨l, -, hl⟩ := exists_array_of_decodeList h
  intro a ha
  obtain ⟨value, _, -, hvalue⟩ := Items.has_of_mem hl a ha
  exact ⟨value, hvalue⟩

end Lists

/-! ## Objects of texts -/

theorem Members.decodeTexts_ofList (es : List (String × String)) :
    (Members.ofList (es.map fun e => (e.1, ofString e.2))).decodeTexts = .ok es := by
  induction es with
  | nil => rfl
  | cons e es ih =>
    rw [List.map_cons, ofList, decodeTexts, keyText_ofString, decodeText_ofString, ih]
    rfl

/-- No object is opened where there is no room. -/
theorem decodeTexts_zero_ne_ok (j : Json) (es : List (String × String)) :
    j.decodeTexts 0 ≠ .ok es := by
  intro h
  unfold decodeTexts at h
  split at h
  · cases h
  · exact refuse_ne_ok _ _ es h

end Casebook.Json
