import Mathlib.Algebra.Group.Int.Defs
import Mathlib.Algebra.Group.Nat.Defs
import Casebook.Proofs.Text.ByteOrder
import Casebook.Proofs.Toml.Inside
import Casebook.Settings.Loading

/-!
# Settings from a text

A document gives settings by a single value, the number of the first export (`Settings.found?`). All
that can go wrong otherwise is a number that cannot be held, and only where a key means nothing, because
such a value is looked at without being used: `Settings.ofDocument_eq_ok_iff`.

The names of the keys that mean nothing are listed once each, in ascending order
(`Settings.mem_unknownKeys`, `Settings.pairwise_unknownKeys`), and `Loading.ofTextAt_cases` says all that
comes of a text: settings with a warning about those keys if there are any, or a fault without a
warning. `Loading.ofText_outcome` puts this together for a text that is read as a document.
-/

namespace Casebook

namespace Word

variable {bits : Nat} {n : Int}

theorem count_eq (bits : Nat) : (count bits : Int) = 2 ^ bits := by
  show ((2 ^ bits : Nat) : Int) = 2 ^ bits
  push_cast
  rfl

theorem holds_iff : holds bits n = true ↔ 0 ≤ n ∧ n < 2 ^ bits := by
  simp [holds, count_eq]

theorem holdsSigned_iff :
    holdsSigned bits n = true ↔ -2 ^ (bits - 1) ≤ n ∧ n < 2 ^ (bits - 1) := by
  simp [holdsSigned, count_eq]

end Word

namespace Settings

open Toml (Value Entries Document Inside)

/-! ## The number of the first export

Settings are given in a table, or in an array whose items stand in the order of the fields. There is one
field, so either way there is one value at most that counts. -/

/-- The value that is taken as the number of the first export: the one under its key in a table, or the
first item of an array. -/
def found? : Option Value → Option Value
  | some (.table _ entries) => entries.lookup indexKey
  | some (.array items) => items.head?
  | some (.tables elements) => elements.head?.map (.table .header)
  | _ => none

/-- Whether a value is a table or an array. -/
def isCollection : Value → Bool
  | .table _ _ | .array _ | .tables _ => true
  | _ => false

theorem indexOf_eq_ok_iff {v : Value} {n : Nat} :
    indexOf v = .ok n ↔ v = .integer n ∧ n < 2 ^ 64 := by
  cases v with
  | integer m =>
    have hm : Value.integer m = .integer n ↔ m = n := by simp
    rw [indexOf, hm]
    by_cases hfits : Word.holds 64 m = true
    · rw [if_pos hfits]
      have hbounds := Word.holds_iff.1 hfits
      simp only [Except.ok.injEq]
      omega
    · rw [if_neg hfits]
      rw [Word.holds_iff] at hfits
      split <;> simp only [reduceCtorEq, false_iff] <;> omega
  | _ => simp [indexOf]

/-- Settings come from the number that is found, or are the default ones where none is. -/
theorem ofIndex?_eq_ok_iff {v? : Option Value} {n : Nat} :
    ofIndex? v? = .ok { firstIndex := n }
      ↔ v? = none ∧ n = 1 ∨ v? = some (.integer n) ∧ n < 2 ^ 64 := by
  cases v? with
  | none => simp [ofIndex?, eq_comm]
  | some v =>
    have hmap : ofIndex? (some v) = .ok { firstIndex := n } ↔ indexOf v = .ok n := by
      rw [ofIndex?]
      cases indexOf v <;> simp [Except.map]
    rw [hmap, indexOf_eq_ok_iff]
    simp

theorem ofValue?_eq {v? : Option Value} (h : ∀ v, v? = some v → isCollection v = true) :
    ofValue? v? = ofIndex? (found? v?) := by
  cases v? with
  | none => rfl
  | some v =>
    have hv := h v rfl
    cases v with
    | table kind entries | array items | tables elements => rfl
    | _ => simp [isCollection] at hv

/-! ## Keys that mean nothing

A key means nothing at the top of a document if it is not that of the table with the settings, and inside
of that table if it is not that of the number. No other keys are looked at: what stands inside of an
unknown value is part of that value. -/

/-- A key of a document that means nothing, by its full name, and its value. -/
inductive Unknown (d : Document) : String → Value → Prop where
  | outer {key : String} {v : Value} (h : (key, v) ∈ d.entries) (hkey : key ≠ tableKey) :
      Unknown d key v
  /-- A key of the table with the settings. -/
  | inner {kind : Toml.TableKind} {entries : Entries} {key : String} {v : Value}
      (htable : d.entries.lookup tableKey = some (.table kind entries)) (h : (key, v) ∈ entries)
      (hkey : key ≠ indexKey) : Unknown d (tableKey ++ "." ++ key) v

theorem mem_unknownEntries_iff {d : Document}
    (h : ∀ v, d.entries.lookup tableKey = some v → isCollection v = true) (name : String)
    (v : Value) : (name, v) ∈ unknownEntries d ↔ Unknown d name v := by
  simp only [unknownEntries, List.mem_append, List.mem_map, List.mem_filter, ne_eq,
    decide_not, Bool.not_eq_true', decide_eq_false_iff_not, Prod.mk.injEq, Prod.exists]
  constructor
  · rintro (⟨hmem, hkey⟩ | ⟨key, w, ⟨hmem, hkey⟩, rfl, rfl⟩)
    · exact .outer hmem hkey
    · cases htable : d.entries.lookup tableKey with
      | none => simp [htable, tableEntries] at hmem
      | some t =>
        have ht := h t htable
        cases t with
        | table kind entries => exact .inner htable (by simpa [htable, tableEntries] using hmem) hkey
        | date => simp [isCollection] at ht
        | _ => simp [htable, tableEntries] at hmem
  · rintro (⟨hmem, hkey⟩ | ⟨htable, hmem, hkey⟩)
    · exact .inl ⟨hmem, hkey⟩
    · exact .inr ⟨_, _, ⟨by rwa [htable], hkey⟩, rfl, rfl⟩

theorem Unknown.holds {d : Document} {name : String} {v w : Value} (h : Unknown d name v)
    (hw : Inside w v) : d.Holds w := by
  cases h with
  | outer hmem _ => exact ⟨_, hmem, hw⟩
  | inner htable hmem _ =>
    obtain ⟨before, after, hentries, -⟩ := List.lookup_eq_some_iff.1 htable
    have htracker : (tableKey, _) ∈ d.entries := hentries ▸ List.mem_append_cons_self
    exact ⟨_, htracker, .entry hmem hw⟩

/-- By induction on the length, as what is left after the first text is shorter but no tail. -/
theorem nodup_eraseDups (l : List String) : l.eraseDups.Nodup := by
  induction hn : l.length using Nat.strongRecOn generalizing l with
  | ind n ih =>
    cases l with
    | nil => simp
    | cons s rest =>
      have hshorter : (rest.filter fun t => !t == s).length < n := by
        have hle := List.length_filter_le (fun t => !t == s) rest
        rw [← hn, List.length_cons]
        omega
      rw [List.eraseDups_cons, List.nodup_cons]
      exact ⟨by simp [List.mem_eraseDups], ih _ hshorter _ rfl⟩

theorem mem_unknownKeys {d : Document} {name : String} :
    name ∈ unknownKeys d ↔ ∃ v, (name, v) ∈ unknownEntries d := by
  rw [unknownKeys, (List.mergeSort_perm _ _).mem_iff, List.mem_eraseDups, List.mem_map]
  constructor
  · rintro ⟨⟨key, v⟩, hmem, rfl⟩
    exact ⟨v, hmem⟩
  · rintro ⟨v, hmem⟩
    exact ⟨_, hmem, rfl⟩

/-- The names are in strictly ascending order. -/
theorem pairwise_unknownKeys (d : Document) : (unknownKeys d).Pairwise (· < ·) := by
  have hnodup : (unknownKeys d).Nodup :=
    (List.mergeSort_perm _ _).nodup_iff.2 (nodup_eraseDups _)
  have hsorted : (unknownKeys d).Pairwise fun a b => decide (¬ b < a) = true := by
    refine List.pairwise_mergeSort (fun a b c hab hbc => ?_) (fun a b => ?_) _
    · rw [decide_eq_true_iff] at hab hbc ⊢
      exact List.le_trans (α := Char) hab hbc
    · simp only [Bool.or_eq_true, decide_eq_true_iff]
      exact List.le_total (α := Char) a.toList b.toList
  refine (hsorted.and hnodup).imp fun ⟨hle, hne⟩ => ?_
  exact Properties.name_lt_of_not_lt (of_decide_eq_true hle) (Ne.symm hne)

/-! ## Numbers that cannot be held

A value that nobody uses is still read into some form, and there are numbers without any. So a text may
fail for a number under a key that means nothing. -/

theorem isCommon_iff {d : Document} :
    isCommon d = true
      ↔ (∀ n : Int, d.Holds (.integer n) → -2 ^ 63 ≤ n ∧ n < 2 ^ 63) ∧ ¬ d.Holds .tooLarge := by
  rw [isCommon, Document.all_iff]
  constructor
  · intro hall
    exact ⟨fun n hn => Word.holdsSigned_iff.1 (hall _ hn), fun hlarge =>
      absurd (hall _ hlarge) (by simp)⟩
  · rintro ⟨hrange, hno⟩ w hw
    cases w with
    | integer n => exact Word.holdsSigned_iff.2 (hrange n hw)
    | tooLarge => exact absurd hw hno
    | _ => rfl

/-- Among numbers of 64 bits only those with a fraction or an exponent may be too large. -/
theorem isHeld_iff {v : Value}
    (h : ∀ n : Int, Inside (.integer n) v → -2 ^ 63 ≤ n ∧ n < 2 ^ 64) :
    isHeld v = true ↔ ¬ Inside .tooLarge v := by
  rw [isHeld, Value.all_iff]
  constructor
  · intro hall hlarge
    exact absurd (hall _ hlarge) (by simp)
  · intro hno w hw
    cases w with
    | integer n =>
      obtain ⟨hlow, hhigh⟩ := h n hw
      have hsigned : Word.holdsSigned 128 n = true := by
        rw [Word.holdsSigned_iff]
        omega
      simp [hsigned]
    | tooLarge => exact absurd hw hno
    | _ => rfl

/-- A document gives settings if and only if its number of the first export does, and every number under
a key that means nothing can be held. -/
theorem ofDocument_eq_ok_iff {d : Document} {s : Settings} :
    ofDocument d = .ok s
      ↔ ofValue? (d.entries.lookup tableKey) = .ok s
        ∧ ∀ name v, (name, v) ∈ unknownEntries d → isHeld v = true := by
  rw [ofDocument]
  cases hvalue : ofValue? (d.entries.lookup tableKey) with
  | error f => simp
  | ok s' =>
    have hheld : ((unknownEntries d).all fun e => isHeld e.2) = true
        ↔ ∀ name v, (name, v) ∈ unknownEntries d → isHeld v = true := by
      rw [List.all_eq_true]
      exact Prod.forall
    simp only
    split
    · next hall => exact (and_iff_left (hheld.1 hall)).symm
    · next hlarge => exact iff_of_false (by simp) fun h => hlarge (hheld.2 h.2)

/-- The same where all integers have 64 bits and the settings stand in a table or an array. -/
theorem ofDocument_eq_ok_iff_found {d : Document}
    (hrange : ∀ n : Int, d.Holds (.integer n) → -2 ^ 63 ≤ n ∧ n < 2 ^ 64)
    (hplace : ∀ v, d.entries.lookup tableKey = some v → isCollection v = true) (n : Nat) :
    ofDocument d = .ok { firstIndex := n }
      ↔ (found? (d.entries.lookup tableKey) = none ∧ n = 1
          ∨ found? (d.entries.lookup tableKey) = some (.integer n) ∧ n < 2 ^ 64)
        ∧ ∀ name v, Unknown d name v → ¬ Inside .tooLarge v := by
  rw [ofDocument_eq_ok_iff, ofValue?_eq hplace, ofIndex?_eq_ok_iff]
  refine and_congr_right fun _ => forall_congr' fun name => forall_congr' fun v => ?_
  rw [mem_unknownEntries_iff hplace]
  refine imp_congr_right fun hunknown => isHeld_iff fun m hm => hrange m ?_
  exact hunknown.holds hm

/-! ## What comes of a text

Reading has three stages: the text, the document, and the settings with their warning. The path that a
text comes from goes along unused, and is named at the end. -/

namespace Loading

variable {text : String} {d : Document}

theorem ofTextAt_of_ok {s : Settings} (hparse : Document.parse? text = some d)
    (h : Settings.ofDocument d = .ok s) (path? : Option String) :
    ofTextAt path? text = { result := .ok s, notes := keyNotes path? (unknownKeys d) } := by
  rw [ofTextAt, hparse]
  simp only [Loading.ofDocument, h]

theorem ofTextAt_of_error {f : Fault} (hparse : Document.parse? text = some d)
    (h : Settings.ofDocument d = .error f) (path? : Option String) :
    ofTextAt path? text = { result := .error (.parse path? f), notes := [] } := by
  rw [ofTextAt, hparse]
  simp only [Loading.ofDocument, h]

theorem warnings_keyNotes (path? : Option String) (keys : List String) :
    (keyNotes path? keys).filterMap Note.warning?
      = if keys = [] then [] else [{ path?, keys }] := by
  cases keys <;> rfl

/-- Once a text is read as a document, its settings are those of the document. -/
theorem result_ofText_eq_ok_iff (hparse : Document.parse? text = some d) {s : Settings} :
    (ofText text).result = .ok s ↔ Settings.ofDocument d = .ok s := by
  cases hdoc : Settings.ofDocument d with
  | ok s' =>
    have hl : ofText text = _ := ofTextAt_of_ok hparse hdoc none
    rw [hl]
    simp
  | error f =>
    have hl : ofText text = _ := ofTextAt_of_error hparse hdoc none
    rw [hl]
    simp

/-- A text that is read as a document gives settings if and only if the number of the first export is
missing or an integer of 64 bits without a sign, and no number under a key that means nothing is too
large. There is a warning if and only if there are settings and a key that means nothing: a single one,
with the names of all such keys in ascending order, and the log has one line for it. -/
theorem ofText_outcome (hparse : Document.parse? text = some d)
    (hrange : ∀ n : Int, d.Holds (.integer n) → -2 ^ 63 ≤ n ∧ n < 2 ^ 64)
    (hplace : ∀ v, d.entries.lookup "tracker" = some v → isCollection v = true) :
    let l := ofText text
    let found := found? (d.entries.lookup "tracker")
    let fits := ∀ name v, Unknown d name v → ¬ Inside .tooLarge v
    (∀ n : Nat, l.result = .ok { firstIndex := n }
      ↔ (found = none ∧ n = 1 ∨ found = some (.integer n) ∧ n < 2 ^ 64) ∧ fits)
      ∧ ((∃ s, l.result = .ok s) ∨ ∃ fault, l.result = .error (.parse none fault))
      ∧ ∃ keys : List String, keys.Pairwise (fun a b => Text.bytes a < Text.bytes b)
        ∧ (∀ name, name ∈ keys ↔ ∃ v, Unknown d name v)
        ∧ (∀ s, l.result = .ok s →
          l.warnings = if keys = [] then [] else [{ path? := none, keys }])
        ∧ (∀ e, l.result = .error e → l.warnings = [])
        ∧ l.records = l.warnings.map fun w =>
          { level := .warn
            message := "ignoring unknown tracker config keys: " ++ ", ".intercalate w.keys } := by
  intro l found fits
  have hok := ofDocument_eq_ok_iff_found hrange hplace
  have hkeys : ∀ name, name ∈ unknownKeys d ↔ ∃ v, Unknown d name v := fun name => by
    rw [mem_unknownKeys]
    exact exists_congr fun v => mem_unknownEntries_iff hplace name v
  have hascending := (pairwise_unknownKeys d).imp Text.bytes_lt_bytes_iff.2
  refine ⟨fun n => (result_ofText_eq_ok_iff hparse).trans (hok n), ?_⟩
  -- only a document that gives settings has its keys noted, though they are there either way
  cases hdoc : Settings.ofDocument d with
  | ok s =>
    have hl : l = { result := .ok s, notes := keyNotes none (unknownKeys d) } :=
      ofTextAt_of_ok hparse hdoc none
    rw [hl]
    refine ⟨.inl ⟨s, rfl⟩, unknownKeys d, hascending, hkeys, fun _ _ => ?_, nofun, ?_⟩
    · exact warnings_keyNotes none (unknownKeys d)
    · show (keyNotes none (unknownKeys d)).map Note.record = List.map _ (List.filterMap _ (keyNotes _ _))
      cases unknownKeys d <;> rfl
  | error f =>
    have hl : l = { result := .error (.parse none f), notes := [] } :=
      ofTextAt_of_error hparse hdoc none
    rw [hl]
    exact ⟨.inr ⟨f, rfl⟩, unknownKeys d, hascending, hkeys, nofun, fun _ _ => rfl, rfl⟩

/-- A number is given, one key of its table means nothing, and neither does another table. -/
theorem ofText_outcome_two_keys :
    let text := "[tracker]\nrepeated-property-initial-index = 2\ncolour = \"blue\"\n\n[other]\nkey = 1\n"
    ∃ (d : Document) (keys : List String), Document.parse? text = some d
      ∧ (∀ n : Int, d.Holds (.integer n) → -2 ^ 63 ≤ n ∧ n < 2 ^ 64)
      ∧ (∀ v, d.entries.lookup "tracker" = some v → isCollection v = true)
      ∧ (ofText text).result = .ok { firstIndex := 2 }
      ∧ "other" ∈ keys ∧ "tracker.colour" ∈ keys
      ∧ (ofText text).warnings = [{ path? := none, keys }] := by
  intro text
  have hread : (Document.parse? text).any (fun d =>
      isCommon d
      && (d.entries.lookup "tracker").all isCollection
      && decide ((ofIndex? (found? (d.entries.lookup "tracker"))).toOption
        = some { firstIndex := 2 })
      && decide ((unknownEntries d).map Prod.fst = ["other", "tracker.colour"])) = true := by
    decide +kernel
  obtain ⟨d, hparse, hd⟩ := (Option.any_eq_true _ _).1 hread
  simp only [Bool.and_eq_true, decide_eq_true_iff, isCommon_iff, Option.all_eq_true] at hd
  obtain ⟨⟨⟨⟨hsigned, hno⟩, hplace⟩, hindex⟩, hnames⟩ := hd
  have hvalue : ofIndex? (found? (d.entries.lookup "tracker")) = .ok { firstIndex := 2 } := by
    cases hfound : ofIndex? (found? (d.entries.lookup "tracker")) with
    | error f => rw [hfound] at hindex; exact nomatch hindex
    | ok s => rw [hfound] at hindex; exact congrArg Except.ok (Option.some.inj hindex)
  have hrange : ∀ n : Int, d.Holds (.integer n) → -2 ^ 63 ≤ n ∧ n < 2 ^ 64 := fun n hn => by
    have hbounds := hsigned n hn
    omega
  have hfits : ∀ name v, Unknown d name v → ¬ Inside .tooLarge v :=
    fun name v hunknown hlarge => hno (hunknown.holds hlarge)
  have hunknown : ∀ name ∈ ["other", "tracker.colour"], ∃ v, Unknown d name v := by
    intro name hname
    obtain ⟨⟨_, v⟩, hv, rfl⟩ := List.mem_map.1 (hnames ▸ hname)
    exact ⟨v, (mem_unknownEntries_iff hplace _ v).1 hv⟩
  obtain ⟨hresult, -, keys, -, hkeys, hwarnings, -⟩ := ofText_outcome hparse hrange hplace
  have hother : "other" ∈ keys := (hkeys _).2 (hunknown _ (by simp))
  have hcolour : "tracker.colour" ∈ keys := (hkeys _).2 (hunknown _ (by simp))
  have hok := (hresult 2).2 ⟨ofIndex?_eq_ok_iff.1 hvalue, hfits⟩
  refine ⟨d, keys, hparse, hrange, hplace, hok, hother, hcolour, ?_⟩
  rw [hwarnings _ hok, if_neg (List.ne_nil_of_mem hother)]

/-- A document without settings, whose only number is too large to be held and stands under a key that
means nothing, gives no settings. -/
theorem overflow_under_unknown_key :
    ¬ ∀ (text : String) (d : Document), Document.parse? text = some d →
      (∀ n : Int, d.Holds (.integer n) → -2 ^ 63 ≤ n ∧ n < 2 ^ 64) →
      (∀ v, d.entries.lookup "tracker" = some v → isCollection v = true) →
      ((∃ s, (ofText text).result = .ok s)
        ↔ ∀ v, found? (d.entries.lookup "tracker") = some v →
          ∃ n : Nat, v = .integer n ∧ n < 2 ^ 64) := by
  intro h
  have hparse : Document.parse? "x = 1e999" = some ⟨[("x", .tooLarge)]⟩ := rfl
  have hrange : ∀ n : Int, Document.Holds ⟨[("x", .tooLarge)]⟩ (.integer n) →
      -2 ^ 63 ≤ n ∧ n < 2 ^ 64 := by
    rintro n ⟨e, he, hn⟩
    obtain rfl := List.mem_singleton.1 he
    cases hn
  have hnone : List.lookup "tracker" [("x", Value.tooLarge)] = none := rfl
  have hplace : ∀ v, List.lookup "tracker" [("x", Value.tooLarge)] = some v →
      isCollection v = true := by simp [hnone]
  obtain ⟨s, hs⟩ := (h _ _ hparse hrange hplace).2 (by simp [hnone, found?])
  have herror : (ofText "x = 1e999").result = .error (.parse none .range) := rfl
  rw [herror] at hs
  cases hs

end Loading

end Settings

end Casebook
