import Casebook.Toml.Statement

/-!
# TOML documents

A `Document` is the table that the statements of a text make, one after the other. A text has no
document (`Document.parse?`) if it cannot be read as statements, or if a statement goes against those
before it.
-/

namespace Casebook.Toml

/-- A document. -/
structure Document where
  entries : Entries

namespace Document

/-- A document whose lines are still being taken in. -/
structure Draft where
  /-- The entries of the outermost table so far. -/
  entries : Entries := []
  /-- The path of the last header. -/
  here : List String := []

/-- Takes in a statement. -/
def Draft.add (d : Draft) : Statement → Option Draft
  | .assign path key v => do
    let entries ← update .header (assign path key v) d.here .header d.entries
    return { d with entries }
  | .table path key => do
    let entries ← update .header (addTable key) path .header d.entries
    return { entries, here := path ++ [key] }
  | .element path key => do
    let entries ← update .header (addElement key) path .header d.entries
    return { entries, here := path ++ [key] }

/-- The document that statements make. -/
def ofStatements? (statements : List Statement) : Option Document := do
  let draft ← statements.foldlM Draft.add {}
  return ⟨draft.entries⟩

/-- The document that a text spells. -/
def parse? (text : String) : Option Document := do
  ofStatements? (← Reader.whole? Statement.readAll text.toList)

/-- Whether a condition holds for every value in the document. -/
def all (p : Value → Bool) (d : Document) : Bool := allEntries p d.entries

end Document

end Casebook.Toml
