import Casebook.Mismatch
import Casebook.Settings.Basic
import Casebook.Toml.Document
import Casebook.Word

/-!
# Settings in a document

Settings are given by a TOML document, in the table `tracker`. `Settings.ofDocument` takes them from
it, and `Settings.unknownKeys` are the names of the keys that mean nothing.

A value that means nothing may be anything, as long as its numbers can be held at all. A value that
does not fit is described by a `Mismatch`, except in a document with numbers that are too large for
common readers of TOML: there no more is said than that it is out of range.
-/

namespace Casebook

open Toml (Value Entries Document)

namespace Settings

/-- Why a text gives no settings. -/
inductive Fault where
  | malformed
  | range
  /-- The document has a value that does not fit its place. -/
  | shape (m : Mismatch)
deriving DecidableEq, Repr

/-- What more can be said about a fault. -/
def Fault.explanation? : Fault → Option String
  | malformed | range => none
  | shape m => some (m.message .alwaysPlain)

/-! ## Keys

Two of these names belong to the format, and that of the record is told in complaints. `dateKey` is what a
date has inside when it stands where the table should be. -/

/-- The key of the table with the settings. -/
def tableKey : String := "tracker"

/-- The key of the number of the first export. -/
def indexKey : String := "repeated-property-initial-index"

/-- The name of the record that the table is read as. -/
def recordName : String := "TrackerConfig"

/-- The key under which a date appears, where a table is wanted and a date is found. -/
def dateKey : String := "$__toml_private_datetime"

/-! ## Numbers

Numbers of a document are unbounded here, and three bounds matter: that of common readers, that of what
can be held at all, and that of the setting itself. -/

/-- Whether a document has no number that common readers of TOML refuse: integers have 64 bits with a
sign, and numbers with a fraction or an exponent fit double precision. -/
def isCommon (d : Document) : Bool :=
  d.all fun
    | .integer n => Word.holdsSigned 64 n
    | .tooLarge => false
    | _ => true

/-- Whether a value has no number that cannot be held: integers have 128 bits, with a sign or
without one, and numbers with a fraction or an exponent fit double precision. -/
def isHeld (v : Value) : Bool :=
  v.all fun
    | .integer n => Word.holdsSigned 128 n || Word.holds 128 n
    | .tooLarge => false
    | _ => true

/-! ## Reading a document

The settings and the entries that mean nothing are taken from a document separately. A fault of the
settings goes first; a number that cannot be held, under a key that means nothing, counts where the
settings have none. -/

/-- The fault of a value that stands where something else is wanted. -/
def unfit (wanted : Expected) : Value → Fault
  | .text s => .shape (.type (.text s) wanted)
  | .integer n => .shape (.type (.integer n) wanted)
  | .float x => .shape (.type (.float x) wanted)
  | .tooLarge => .range
  | .boolean b => .shape (.type (.boolean b) wanted)
  | .date => .shape (.type .map wanted)
  | .array _ | .tables _ => .shape (.type .sequence wanted)
  | .table _ _ => .shape (.type .map wanted)

/-- The number of the first export that a value gives. -/
def indexOf : Value → Except Fault Nat
  | .integer n =>
    if Word.holds 64 n then .ok n.toNat
    else if Word.holdsSigned 64 n then .error (.shape (.value (.integer n) .count))
    else .error .range
  | v => .error (unfit .count v)

/-- The settings that an optional number of the first export makes. -/
def ofIndex? : Option Value → Except Fault Settings
  | none => .ok {}
  | some v => (indexOf v).map fun n => { firstIndex := n }

/-- The settings that the value under `tableKey` gives: a table, or an array whose first item is the
number of the first export. -/
def ofValue : Value → Except Fault Settings
  | .table _ entries => ofIndex? (entries.lookup indexKey)
  | .array items => ofIndex? items.head?
  | .tables elements => ofIndex? (elements.head?.map (.table .header))
  | .date => .ok {}
  | v => .error (unfit (.record recordName) v)

/-- The entries of the table with the settings. -/
def tableEntries : Option Value → Entries
  | some (.table _ entries) => entries
  | some .date => [(dateKey, .date)]
  | _ => []

/-- The entries that mean nothing, with full names. -/
def unknownEntries (d : Document) : Entries :=
  d.entries.filter (·.1 ≠ tableKey)
    ++ ((tableEntries (d.entries.lookup tableKey)).filter (·.1 ≠ indexKey)).map
      fun (key, v) => (tableKey ++ "." ++ key, v)

/-- The names of the entries that mean nothing, each once, in ascending order. -/
def unknownKeys (d : Document) : List String :=
  ((unknownEntries d).map Prod.fst).eraseDups.mergeSort fun a b => decide (¬ b < a)

/-- The settings that the value under `tableKey` gives, if there is one. -/
def ofValue? : Option Value → Except Fault Settings
  | none => .ok {}
  | some v => ofValue v

/-- The settings that a document gives. -/
def ofDocument (d : Document) : Except Fault Settings :=
  match ofValue? (d.entries.lookup tableKey) with
  | .ok s => if (unknownEntries d).all fun e => isHeld e.2 then .ok s else .error .range
  | .error f => .error (if isCommon d then f else .range)

end Settings

end Casebook
