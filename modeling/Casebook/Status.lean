/-!
# How a test ended

A `Status` says how a test ended, not whether it passed: a completed test may still have failures.

A status is shown by its `Status.name`, read by `Status.parse`, and listed to people in
`Status.variants`. Each of these three is a table of its own, and JSON has a fourth one
(`Casebook.Result.Json`); nothing here makes them agree.
-/

namespace Casebook

/-- How a test ended. -/
inductive Status where
  /-- It never ran, or was skipped after starting. -/
  | skipped
  /-- It started and was stopped before it could finish. -/
  | interrupted
  /-- It was suppressed before it started. -/
  | suppressed
  /-- It was cancelled before it started. -/
  | cancelled
  | completed
deriving DecidableEq, Repr

namespace Status

/-- Every status, in the order of its declaration. -/
def all : List Status := [skipped, interrupted, suppressed, cancelled, completed]

/-- The name of a status, as it is shown. -/
def name : Status → String
  | skipped => "skipped"
  | interrupted => "interrupted"
  | suppressed => "suppressed"
  | cancelled => "cancelled"
  | completed => "completed"

/-- The names that are listed to people. -/
def variants : List String := ["skipped", "interrupted", "suppressed", "cancelled", "completed"]

/-- A text that names no status. -/
structure Unknown where
  text : String
deriving DecidableEq, Repr

/-- The refusal of an unknown name, with the names that are known. -/
def Unknown.message (e : Unknown) : String :=
  "unrecognized value for test result status: " ++ e.text ++ "\n(known values: "
    ++ ", ".intercalate variants ++ ")"

/-- Reads the name of a status. -/
def parse (s : String) : Except Unknown Status :=
  match s with
  | "skipped" => .ok skipped
  | "interrupted" => .ok interrupted
  | "suppressed" => .ok suppressed
  | "cancelled" => .ok cancelled
  | "completed" => .ok completed
  | other => .error ⟨other⟩

/-- Whether the body of the test was executed, even in part. -/
def wasRun : Status → Bool
  | interrupted | completed => true
  | skipped | suppressed | cancelled => false

end Status

end Casebook
