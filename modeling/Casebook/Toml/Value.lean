import Casebook.Decimal.Binary64

/-!
# TOML values

A `Toml.Value` is a value of a TOML document. Tables remember how they came about (`TableKind`),
because that decides what later lines of the document may add to them. Dates and times are checked
when they are read and told apart from other values, and nothing else is kept of them.
-/

namespace Casebook.Toml

/-- How a table came about. -/
inductive TableKind where
  | inline
  | header
  /-- It lies on the way to a table that has a header. -/
  | implied
  /-- It lies on the way to a value that was given under a dotted key. -/
  | dotted
deriving DecidableEq, Repr

/-- A value. -/
inductive Value where
  | text (s : String)
  | integer (n : Int)
  /-- A number with a fraction or an exponent, or an infinity, or not a number. -/
  | float (x : Binary64)
  /-- A number with a fraction or an exponent that is too large for double precision. -/
  | tooLarge
  | boolean (b : Bool)
  /-- A date, a time, or both. -/
  | date
  /-- An array written between brackets. -/
  | array (items : List Value)
  /-- The tables under a repeated header, by their entries. -/
  | tables (elements : List (List (String × Value)))
  | table (kind : TableKind) (entries : List (String × Value))

/-- Values under keys, each key once, in the order in which they were given first. -/
abbrev Entries := List (String × Value)

mutual

/-- Whether a condition holds for a value and for every value inside it. -/
def Value.all (p : Value → Bool) : Value → Bool
  | .array items => p (.array items) && allItems p items
  | .tables elements => p (.tables elements) && allElements p elements
  | .table kind entries => p (.table kind entries) && allEntries p entries
  | v => p v

/-- Whether a condition holds throughout a list of values. -/
def allItems (p : Value → Bool) : List Value → Bool
  | [] => true
  | v :: rest => v.all p && allItems p rest

/-- Whether a condition holds throughout the values under keys. -/
def allEntries (p : Value → Bool) : List (String × Value) → Bool
  | [] => true
  | (_, v) :: rest => v.all p && allEntries p rest

/-- Whether a condition holds throughout a list of tables. -/
def allElements (p : Value → Bool) : List (List (String × Value)) → Bool
  | [] => true
  | entries :: rest => allEntries p entries && allElements p rest

end

end Casebook.Toml
