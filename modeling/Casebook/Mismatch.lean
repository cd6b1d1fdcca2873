import Casebook.Decimal.Shortest
import Casebook.Text.Quoted

/-!
# Values of the wrong type

A reader of structured data meets a value (`Found`) where its data model wants another (`Expected`).
This module holds both and the texts of the complaint, for every format that is read.
-/

namespace Casebook

/-- A value that was met. -/
inductive Found where
  /-- Nothing, written out. -/
  | null
  | boolean (b : Bool)
  | integer (n : Int)
  /-- A number with a fraction or an exponent, or one too large for an integer. -/
  | float (x : Binary64)
  | text (s : String)
  | sequence
  | map
deriving DecidableEq, Repr

/-- What is wanted at a place. -/
inductive Expected where
  | text
  | map
  | sequence
  | millis
  | count
  | unit
  /-- The name of one of several alternatives. -/
  | variant
  | record (name : String)
deriving DecidableEq, Repr

/-- The value in a message; formats differ in how they lay out a number with a fraction. -/
def Found.describe (layout : FloatLayout) : Found → String
  | null => "null"
  | boolean b => "boolean `" ++ (if b then "true" else "false") ++ "`"
  | integer n => "integer `" ++ toString n ++ "`"
  | float x => "floating point `" ++ layout.text x ++ "`"
  | text s => "string " ++ Text.quoted s
  | sequence => "sequence"
  | map => "map"

/-- What is wanted, in a message. -/
def Expected.describe : Expected → String
  | text => "a string"
  | map => "a map"
  | sequence => "a sequence"
  | millis => "u64"
  | count => "usize"
  | unit => "unit"
  | variant => "variant identifier"
  | record name => "struct " ++ name

/-- A value that does not fit its place. -/
inductive Mismatch where
  /-- The value has the wrong type. -/
  | type (found : Found) (expected : Expected)
  /-- The value has the right type and is out of range. -/
  | value (found : Found) (expected : Expected)
deriving DecidableEq, Repr

/-- The complaint. -/
def Mismatch.message (layout : FloatLayout) : Mismatch → String
  | type found expected =>
    "invalid type: " ++ found.describe layout ++ ", expected " ++ expected.describe
  | value found expected =>
    "invalid value: " ++ found.describe layout ++ ", expected " ++ expected.describe

end Casebook
