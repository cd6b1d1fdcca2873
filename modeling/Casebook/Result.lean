import Casebook.Failure
import Casebook.Properties

/-!
# Results

A `Result` is a snapshot of a test, with a result of its own for each sub-test that was discovered
while it ran.
-/

namespace Casebook

/-- What became of a test. -/
structure Result where
  name : String
  /-- The class, or other group, that the test belongs to. -/
  className : String
  /-- The properties that were exported while it ran. -/
  properties : Properties
  /-- The failures of the test itself, in the order in which they were recorded. -/
  failures : List Failure
  /-- When the test was active, if it ever was. -/
  interval? : Option Interval
  status : Status
  /-- The number of test units that the result stands for. -/
  numTests : Nat
  numFailures : Nat
  /-- The results of its sub-tests, in the order of their discovery. -/
  children : List Result
deriving Repr

namespace Result

/-- Whether the body of the test was executed. -/
def wasRun (r : Result) : Bool := r.status.wasRun

/-- Whether any test unit of the result failed. -/
def hasFailures (r : Result) : Bool := 0 < r.numFailures

end Result

end Casebook
