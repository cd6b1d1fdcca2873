import Casebook.Toml.Value

/-!
# Tables and how they grow

A line of a TOML document adds to tables that earlier lines have made. It names its place by a path
of keys, and `update` goes down that path, making the tables that are missing. A path is either that
of a header or that of a dotted key (`Way`), and not every table may be entered on either.

At the end of the path one thing is added: a value (`addValue`), the table of a header (`addTable`),
or one more table under a repeated header (`addElement`). None of them replaces what is there.
-/

namespace Casebook.Toml

/-- What a path of keys belongs to. -/
inductive Way where
  | header
  /-- The keys before the last one of a dotted key. -/
  | dotted
deriving DecidableEq, Repr

/-- The kind of the tables that a path makes. -/
def Way.kind : Way → TableKind
  | header => .implied
  | dotted => .dotted

/-- Whether a table of a kind may be entered. What stands between braces is closed, and a dotted key
stays out of a table that has a header. -/
def Way.enters : Way → TableKind → Bool
  | _, .inline => false
  | dotted, .header => false
  | _, _ => true

/-! ## Entries

Entries are in the order in which their keys first came up, and a key has one value at most. -/

/-- Stores a value under a key, in the place of an earlier value if there is one. -/
def store (key : String) (v : Value) : Entries → Entries
  | [] => [(key, v)]
  | (k, w) :: rest => if k = key then (key, v) :: rest else (k, w) :: store key v rest

/-- Adds a value under a key that is free. -/
def addNew (key : String) (v : Value) (entries : Entries) : Option Entries :=
  if (entries.lookup key).isNone then some (entries ++ [(key, v)]) else none

/-! ## Paths

Each key of a path leads to a table: one that is there and may be entered, a new one, or the last one
under a repeated header. What is found at the end is changed, and all tables on the way are stored again. -/

/-- Goes down a path from a table and changes the entries at its end. -/
def update (way : Way) (change : TableKind → Entries → Option Entries) :
    List String → TableKind → Entries → Option Entries
  | [], kind, entries => change kind entries
  | key :: path, _, entries =>
    match entries.lookup key with
    -- the table that is missing is made even if it stays empty
    | none => do
      let inner ← update way change path way.kind []
      return store key (.table way.kind inner) entries
    | some (.table kind inner) =>
      if way.enters kind then do
        let inner ← update way change path kind inner
        return store key (.table kind inner) entries
      else none
    | some (.tables elements) =>
      match elements.getLast? with
      | none => none
      -- a path leads into the last table under a repeated header
      | some inner => do
        let inner ← update way change path .header inner
        return store key (.tables (elements.dropLast ++ [inner])) entries
    | some _ => none

/-! ## What is added

What may be added depends on how the table at the end of the path was made, which its kind tells. -/

/-- Adds a value under a key, where a dotted key has led, or none has. Values under dotted keys go
into tables that dotted keys have made, and no others do. -/
def addValue (isDotted : Bool) (key : String) (v : Value) (kind : TableKind) (entries : Entries) :
    Option Entries :=
  if decide (kind = .dotted) = isDotted then addNew key v entries else none

/-- Adds a value under a dotted key, of which `path` are the keys before the last one. -/
def assign (path : List String) (key : String) (v : Value) : TableKind → Entries → Option Entries :=
  update .dotted (addValue (!path.isEmpty) key v) path

/-- Adds the table of a header. A table that only lay on the way to others has its header now. -/
def addTable (key : String) (_ : TableKind) (entries : Entries) : Option Entries :=
  match entries.lookup key with
  | none => addNew key (.table .header []) entries
  | some (.table .implied inner) => some (store key (.table .header inner) entries)
  | some _ => none

/-- Adds one more table under a repeated header. -/
def addElement (key : String) (_ : TableKind) (entries : Entries) : Option Entries :=
  match entries.lookup key with
  | none => addNew key (.tables [[]]) entries
  | some (.tables elements) => some (store key (.tables (elements ++ [[]])) entries)
  | some _ => none

end Casebook.Toml
