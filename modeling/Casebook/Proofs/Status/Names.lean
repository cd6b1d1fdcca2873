import Casebook.Proofs.Json.Grammar
import Casebook.Proofs.Result.Forms

/-!
# The names of statuses

The name of a status is written down four times: where a status is shown (`Status.name`), where a plain
text is read (`Status.parse`), where the names are listed to people (`Status.variants`), and inside JSON
(`Status.tag`), where `Status.ofJson` reads a string or an object with the name for its only key
(`Json.IsVariant`). None of these knows a name that another does not, however the JSON is spelled.

`Status.spellings` is the main result. The tables are compared case by case, each with `Status.name`
(`Status.parse_eq_ok_iff`, `Status.ofTag?_eq_some_iff`). What is left is about JSON: whatever is decoded
as an alternative is a name that the table knows (`Json.exists_of_decodeVariant`), and a text that is
read as a tree spells that tree (`Json.spellsText_tree`).
-/

namespace Casebook

/-! ## Alternatives

`Json.decodeVariant` reads a status, but it would read any choice among names. What it accepts and how it
refuses is told here for any table of names. -/

namespace Json

/-- An alternative is written as a text, or as an object with the text for its only key and the value
`null`. -/
def IsVariant (s : String) (j : Json) : Prop :=
  IsText s j ∨ ∃ key, IsText s key ∧ j = .object (.member key .null .close)

theorem IsText.complete {s : String} {j : Json} (h : IsText s j) : j.complete = true := by
  obtain ⟨ps, rfl, -⟩ := h
  rfl

theorem IsVariant.complete {s : String} {j : Json} (h : IsVariant s j) : j.complete = true := by
  rcases h with h | ⟨key, hkey, rfl⟩
  · exact h.complete
  · have hmember : Members.complete (.member key .null .close) = true := by
      rw [Members.complete, hkey.complete]
      rfl
    exact hmember

theorem isText_of_decodeText {expected : Expected} {s : String} {j : Json}
    (h : j.decodeText expected = .ok s) : IsText s j := by
  unfold decodeText at h
  split at h
  · next ps => exact ⟨ps, rfl, h⟩
  · exact absurd h (refuse_ne_ok expected _ s)

section Variants

variable {α : Type} {ofName? : String → Option α} {known : List String} {room : Nat}

/-- What is decoded as an alternative is the name of that alternative. -/
theorem exists_of_decodeVariant {j : Json} {a : α} (h : j.decodeVariant ofName? known room = .ok a) :
    ∃ s, ofName? s = some a ∧ IsVariant s j := by
  unfold decodeVariant at h
  split at h
  · next ps =>
    obtain ⟨s, hs, h⟩ := bind_eq_ok h
    split at h
    · next b hb =>
      cases h
      exact ⟨s, hb, .inl ⟨ps, rfl, hs⟩⟩
    · cases h
  · next key value rest =>
    have hroom : room ≠ 0 := by
      rintro rfl
      cases h
    rw [if_neg hroom] at h
    obtain ⟨s, hs, h⟩ := bind_eq_ok (x := key.decodeText .variant) h
    split at h
    · cases h
    · next b hb =>
      split at h
      · cases h
        exact ⟨s, hb, .inr ⟨key, isText_of_decodeText hs, rfl⟩⟩
      · cases h
      · exact absurd h (refuse_ne_ok .unit value a)
  · cases h

/-- A text that names nothing is refused in the words that list what is known. -/
theorem decodeVariant_of_unknown {s : String} {j : Json} (hs : ofName? s = none) (h : IsVariant s j) :
    j.decodeVariant ofName? known (room + 1) = .error (.data (.unknownVariant s known)) := by
  rcases h with ⟨ps, rfl, hps⟩ | ⟨key, hkey, rfl⟩
  · rw [decodeVariant, bind_of_eq_ok hps, hs]
    rfl
  · rw [decodeVariant, if_neg (Nat.succ_ne_zero room)]
    show (key.decodeText .variant >>= _) = _
    rw [bind_of_eq_ok (hkey.decodeText .variant), hs]
    rfl

end Variants

end Json

/-! ## Both ways to a status

The four tables are put side by side. Where they agree is proved by cases on the status, and what is on
none of them is refused by each. -/

namespace Status

/-- A JSON text that writes a name, in whatever spelling. -/
def Writes (s text : String) : Prop := ∃ j, Json.SpellsText text j ∧ Json.IsVariant s j

theorem mem_all (v : Status) : v ∈ all := by
  cases v <;> decide

theorem parse_name (v : Status) : parse v.name = .ok v := by
  cases v <;> rfl

/-- The lines of the table that is parsed are those of the names that are shown. -/
theorem parse_eq_ok_iff {s : String} {v : Status} : parse s = .ok v ↔ s = v.name := by
  constructor
  · intro h
    unfold parse at h
    split at h <;> cases h <;> rfl
  · rintro rfl
    exact parse_name v

/-- What is on no line of the table is refused. -/
theorem parse_of_unknown {s : String} (h : ∀ v : Status, s ≠ v.name) : parse s = .error ⟨s⟩ := by
  unfold parse
  split
  · exact absurd rfl (h .skipped)
  · exact absurd rfl (h .interrupted)
  · exact absurd rfl (h .suppressed)
  · exact absurd rfl (h .cancelled)
  · exact absurd rfl (h .completed)
  · rfl

theorem ofTag?_eq_some_iff {s : String} {v : Status} : ofTag? s = some v ↔ s = v.name := by
  constructor
  · intro h
    have htag := List.find?_some h
    exact (beq_iff_eq.1 htag).symm.trans (tag_eq_name v)
  · rintro rfl
    exact ofTag?_name v

theorem ofTag?_eq_none_iff {s : String} : ofTag? s = none ↔ ∀ v : Status, s ≠ v.name := by
  rw [Option.eq_none_iff_forall_ne_some]
  exact forall_congr' fun v => not_congr ofTag?_eq_some_iff

theorem map_name_all : all.map name = variants := rfl

theorem tags_eq_variants : tags = variants := rfl

/-- A text is decoded as a status exactly if it writes the name of that status. -/
theorem decode_eq_ok_iff_writes {v : Status} {text : String} :
    Json.decode (ofJson Json.maxOpen) text = .ok v ↔ Writes v.name text := by
  constructor
  · intro h
    obtain ⟨htree, hrest⟩ := Json.decode_eq_ok_iff.1 h
    obtain ⟨s, hs, hvariant⟩ := Json.exists_of_decodeVariant htree
    obtain rfl := ofTag?_eq_some_iff.1 hs
    exact ⟨_, Json.spellsText_tree hvariant.complete hrest, hvariant⟩
  · rintro ⟨j, htext, hvariant⟩
    rw [htext.decode]
    exact ofJson_of_form hvariant 126

/-- A JSON text that writes any other text is refused, and told what is known. -/
theorem decode_of_unknown {s text : String} (h : ∀ v : Status, s ≠ v.name) (htext : Writes s text) :
    Json.decode (ofJson Json.maxOpen) text = .error (.data (.unknownVariant s tags)) := by
  obtain ⟨j, htext, hvariant⟩ := htext
  rw [htext.decode]
  exact Json.decodeVariant_of_unknown (ofTag?_eq_none_iff.2 h) hvariant

/-- The plain and the JSON form of a status have the same names.

1. A plain text is parsed as a status exactly if it is the name under which the status is shown.
2. A JSON text is decoded as a status exactly if it writes a text that is parsed as this status.
3. Any other text is rejected by both: it is no plain name, and every JSON text that writes it is refused.
4. The names that are listed are five, once each, and they are the texts that are parsed.
5. They are also the names under which statuses are shown and those inside JSON, in the same order, and
   a status is written to JSON under the name under which it is shown. -/
theorem spellings :
    (∀ (v : Status) (s : String), parse s = .ok v ↔ s = v.name)
      ∧ (∀ (v : Status) (text : String), Json.decode (ofJson Json.maxOpen) text = .ok v
        ↔ ∃ s, parse s = .ok v ∧ Writes s text)
      ∧ (∀ s : String, (∀ v : Status, s ≠ v.name) → parse s = .error ⟨s⟩ ∧ ∀ text, Writes s text →
        Json.decode (ofJson Json.maxOpen) text = .error (.data (.unknownVariant s tags)))
      ∧ (variants = ["skipped", "interrupted", "suppressed", "cancelled", "completed"]
        ∧ variants.Nodup ∧ ∀ s : String, s ∈ variants ↔ ∃ v, parse s = .ok v)
      ∧ all.map name = variants ∧ tags = variants ∧ ∀ v : Status, v.toJson = .ofString v.name := by
  refine ⟨fun v s => parse_eq_ok_iff, fun v text => ?json, fun s h => ?unknown,
    ⟨rfl, by decide, fun s => ?known⟩, map_name_all, tags_eq_variants, fun v => ?written⟩
  case json =>
    simp only [parse_eq_ok_iff, exists_eq_left]
    exact decode_eq_ok_iff_writes
  case unknown => exact ⟨parse_of_unknown h, fun text htext => decode_of_unknown h htext⟩
  case known =>
    simp only [parse_eq_ok_iff, ← map_name_all, List.mem_map]
    exact ⟨fun ⟨v, _, hv⟩ => ⟨v, hv.symm⟩, fun ⟨v, hv⟩ => ⟨v, mem_all v, hv.symm⟩⟩
  case written => rw [toJson, tag_eq_name]

/-- An escaped letter and an object with blanks are the same name, and a capital letter is none. -/
theorem spellings_of_skipped :
    Json.decode (ofJson Json.maxOpen) (String.ofList
        ['"', 's', '\\', 'u', '0', '0', '6', 'b', 'i', 'p', 'p', 'e', 'd', '"', '\n']) = .ok .skipped
      ∧ Json.decode (ofJson Json.maxOpen) (String.ofList
        (' ' :: '{' :: ' ' :: Status.skipped.toJson.chars
          ++ [' ', ':', ' ', 'n', 'u', 'l', 'l', '}', '\n'])) = .ok .skipped
      ∧ Json.decode (ofJson Json.maxOpen) (Json.ofString "Skipped").render
        = .error (.data (.unknownVariant "Skipped" tags)) := by
  obtain ⟨hplain, hjson, hunknown, -⟩ := spellings
  have hparse : parse "skipped" = .ok .skipped := (hplain .skipped "skipped").2 rfl
  refine ⟨(hjson _ _).2 ⟨_, hparse, ?escaped⟩, (hjson _ _).2 ⟨_, hparse, ?object⟩,
    (hunknown "Skipped" fun v => ?capital).2 _ ?written⟩
  case escaped =>
    have hchar (c : Char) (h : c ≠ '"' ∧ c ≠ '\\' ∧ ¬ c < ' ') : Json.Piece.Spells [c] (.char c) :=
      .plain h.1 h.2.1 h.2.2
    have hunit : Json.Piece.Spells ['\\', 'u', '0', '0', '6', 'b'] (.unit 0x6b) := .unit rfl
    have hpieces : Json.SpellsPieces ['s', '\\', 'u', '0', '0', '6', 'b', 'i', 'p', 'p', 'e', 'd']
        [.char 's', .unit 0x6b, .char 'i', .char 'p', .char 'p', .char 'e', .char 'd'] :=
      .cons (hchar 's' (by decide)) (.cons hunit (.cons (hchar 'i' (by decide))
        (.cons (hchar 'p' (by decide)) (.cons (hchar 'p' (by decide)) (.cons (hchar 'e' (by decide))
        (.cons (hchar 'd' (by decide)) .nil))))))
    exact ⟨_, ⟨_, ['\n'], rfl, .string hpieces, Json.blank_iff_all.2 rfl⟩, .inl ⟨_, rfl, rfl⟩⟩
  case object =>
    have hblank : Json.Blank [' '] := Json.blank_iff_all.2 rfl
    have hkey : Json.Spells Status.skipped.toJson.chars (.value Status.skipped.toJson) :=
      Json.spells_chars (Json.printable_ofString "skipped")
    have hmember := Json.Spells.member (.blanks hblank hkey) hblank (.blanks hblank .null)
      (.noMoreMembers Json.blank_nil)
    have hobject := Json.Spells.blanks hblank (.object (.someMembers hmember))
    exact ⟨_, ⟨_, ['\n'], rfl, hobject, Json.blank_iff_all.2 rfl⟩,
      .inr ⟨_, Json.isText_ofString "skipped", rfl⟩⟩
  case capital => cases v <;> decide
  case written =>
    exact ⟨_, Json.spellsText_render (Json.printable_ofString "Skipped"),
      .inl (Json.isText_ofString "Skipped")⟩

end Status

end Casebook
