/-!
# Log records

A `Log.Record` is a line of the log: a level, a message, and fields with their values.
-/

namespace Casebook

namespace Log

/-- How much a record matters. -/
inductive Level where
  | trace
  | debug
  | warn
deriving DecidableEq, Repr

/-- The name of a level. -/
def Level.name : Level → String
  | trace => "TRACE"
  | debug => "DEBUG"
  | warn => "WARN"

/-- The value of a field. -/
inductive Value where
  | text (s : String)
  | number (n : Nat)
deriving DecidableEq, Repr

/-- A line of the log. -/
structure Record where
  level : Level
  message : String
  fields : List (String × Value) := []
deriving DecidableEq, Repr

end Log

end Casebook
