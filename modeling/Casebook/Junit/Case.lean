import Casebook.Result
import Casebook.Text.Plain

/-!
# JUnit cases

A `Junit.Case` is a test as a JUnit report shows it. `Junit.Case.ofResult` makes one from a result:

* a completed test without failed units is a success;
* a completed test with failed units is a failure;
* an interrupted test is an error;
* a skipped, suppressed or cancelled test is skipped.

All texts of a case are plain (`Text.plain`).
-/

namespace Casebook.Junit

/-- What a case says about a test that is no success. -/
structure Details where
  message : Option String := none
  kind : Option String := none
  description : Option String := none
deriving DecidableEq, Repr

/-- The verdict on a test. -/
inductive Verdict where
  | success
  | failure (details : Details)
  /-- It did not get to its end. -/
  | error (details : Details)
  /-- It was not run, or not to its end on purpose. -/
  | skipped (details : Details)
deriving DecidableEq, Repr

/-- A test in a report. -/
structure Case where
  name : String
  className : String
  /-- How long it was active, in milliseconds. -/
  time? : Option Millis
  /-- When it became active. -/
  timestamp? : Option DateTime
  verdict : Verdict
deriving DecidableEq, Repr

/-- The kind of an error case. -/
def interruptedKind : String := "interrupted"

/-- The message of a failed case that has no failures of its own. -/
def parentFailedMessage : String := "(the parent test failed)"

/-- The texts of failures, with a blank line between them, if there is any text. -/
def joinedTexts (failures : List Failure) : Option String :=
  let text := "\n\n".intercalate (failures.filterMap Failure.text?)
  if text.isEmpty then none else some text

namespace Details

/-- The details with all texts made plain. -/
def plain (d : Details) : Details where
  message := d.message.map Text.plain
  kind := d.kind.map Text.plain
  description := d.description.map Text.plain

/-- The details of failures: message and kind of the first one, and the texts of all. -/
def ofFailures : List Failure → Details
  | [] => {}
  | f :: fs => { message := f.message, kind := f.kind, description := joinedTexts (f :: fs) }

end Details

namespace Verdict

/-- The verdict on a result. -/
def ofResult (r : Result) : Verdict :=
  match r.status with
  | .completed =>
    if r.hasFailures then
      if r.failures.isEmpty then .failure { message := some (Text.plain parentFailedMessage) }
      else .failure (Details.ofFailures r.failures).plain
    else .success
  | .interrupted =>
    .error { Details.ofFailures r.failures with kind := some interruptedKind }.plain
  | .skipped | .suppressed | .cancelled =>
    .skipped
      { message := some r.status.name, description := joinedTexts r.failures : Details }.plain

end Verdict

namespace Case

/-- The case of a result, without its sub-tests. -/
def ofResult (r : Result) : Case where
  name := Text.plain r.name
  className := Text.plain r.className
  time? := r.interval?.map Interval.length
  timestamp? := r.interval?.bind Interval.startTime?
  verdict := Verdict.ofResult r

end Case

end Casebook.Junit
