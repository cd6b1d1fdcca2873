import Casebook.Interval
import Casebook.Status

/-!
# Failures

A `Failure` is what is kept of something that went wrong in a test: a message, the kind of failure
and a longer description, each of which may be missing. `Failure.ofCause` makes one from a `Cause`,
an error that may have been caused by another error; its description tells the whole chain.
-/

namespace Casebook

/-! ## Causes

The chain of an error is followed by its sources and told from the outside in, one line for each error. -/

/-- An error, with the errors that led to it. -/
inductive Cause where
  /-- An error that was caused by nothing else. -/
  | root (message : String)
  | inverted (e : Interval.Inverted)
  | unknownStatus (e : Status.Unknown)
  /-- An error that was caused by `source`. -/
  | causedBy (message : String) (source : Cause)
deriving DecidableEq, Repr

namespace Cause

/-- The text of the error itself. -/
def message : Cause → String
  | root m => m
  | inverted e => e.message
  | unknownStatus e => e.message
  | causedBy m _ => m

/-- The error that led to this one. -/
def source? : Cause → Option Cause
  | causedBy _ s => some s
  | _ => none

/-- The texts of the error and of all that led to it, outermost first. -/
def messages : Cause → List String
  | causedBy m s => m :: s.messages
  | c => [c.message]

/-- What stands between the text of an error and the text of its source. -/
def separator : String := "\n  caused by: "

/-- The text of the error, followed by the trail of its source. -/
def trail : Cause → String
  | causedBy m s => m ++ separator ++ s.trail
  | c => c.message

end Cause

/-! ## Failures

All parts of a failure are optional and independent of each other. Details are set one at a time, and the
last one of each kind is kept. -/

/-- A failure of a test. -/
structure Failure where
  /-- A short message. -/
  message : Option String := none
  /-- The kind of failure, such as the name of an error. -/
  kind : Option String := none
  /-- A longer text, such as a trace. -/
  description : Option String := none
deriving DecidableEq, Repr

namespace Failure

/-- A failure of which only the message is known. -/
def ofMessage (message : String) : Failure := { message := some message }

/-- A failure that came from an error: its message is that error's, its description the whole chain. -/
def ofCause (c : Cause) : Failure :=
  { message := some c.message, description := some c.trail }

/-- Something that is added to a failure after it was made. -/
inductive Detail where
  | kind (s : String)
  | description (s : String)
deriving DecidableEq, Repr

/-- The failure with a detail set. -/
def set (f : Failure) : Detail → Failure
  | .kind s => { f with kind := some s }
  | .description s => { f with description := some s }

/-- The failure with details set one after the other; a later one replaces an earlier one. -/
def setAll (f : Failure) (details : List Detail) : Failure := details.foldl set f

/-- The longest text there is: the description, else the message. -/
def text? (f : Failure) : Option String := f.description.or f.message

end Failure

end Casebook
