import Casebook.Junit.Case
import Casebook.Result.Json
import Casebook.Tracker.Basic

/-!
# Steps of a tracker

A `Step` is something that is asked of a tracker: a call that tells it what happens to the test, a
notice of the same without an answer, an export, a new sub-test, or a question about what it knows.
`Tracker.step` gives the tracker after the step and the `Reply` to it, and `Tracker.run` does so for
a list of steps.
-/

namespace Casebook

/-! ## Calls

Calls and notices come from two interfaces to the same test. A call is answered whether the test has
moved; a notice is passed on as a call whose answer is dropped. -/

/-- A call that tells a tracker what happens to its test. -/
inductive Call where
  | start
  | finish
  | skip
  | suppress
  | interrupt
  /-- The test as a whole fails. -/
  | fail (failure : Failure)
  /-- A sub-test fails. -/
  | failSubtest (id : TestId) (failure : Failure)
deriving DecidableEq, Repr

/-- The signal of a call. -/
def Call.signal : Call → Signal
  | start => .start
  | finish => .finish
  | skip => .skip
  | suppress => .suppress
  | interrupt => .interrupt
  | fail _ => .fail
  | failSubtest _ _ => .fail

/-- A notice to a node in a tree of tests, which is not answered. -/
inductive Notice where
  | interrupted
  | skipped
  | suppressed
  /-- The test as a whole failed. -/
  | failed (failure : Failure)
  /-- A sub-test failed. -/
  | subtestFailed (id : TestId) (failure : Failure)
deriving DecidableEq, Repr

/-- The call that a notice amounts to. -/
def Notice.call : Notice → Call
  | interrupted => .interrupt
  | skipped => .skip
  | suppressed => .suppress
  | failed f => .fail f
  | subtestFailed id f => .failSubtest id f

/-! ## Steps and replies

`Tracker.after`, `Tracker.answer` and `Tracker.events` are the three effects of a step, each a table by
steps. A run threads the tracker through them and keeps the replies. -/

/-- Something that is asked of a tracker. -/
inductive Step where
  | call (c : Call) (now : Millis)
  | notice (n : Notice) (now : Millis)
  | exportProperty (name value : String)
  | exportRepeated (base value : String)
  | addSubtest (t : Subtest)
  /-- The question what is tracked. -/
  | describe
  | build
  | render
  | junitCase
deriving DecidableEq, Repr

/-- What a step is answered. -/
inductive Answer where
  | none
  /-- Whether a transition was made. -/
  | applied (b : Bool)
  /-- The name under which a property was stored. -/
  | name (s : String)
  | subject (s : Subject)
  | result (r : Result)
  | line (s : String)
  | junitCase (c : Junit.Case)
deriving Repr

/-- The reply to a step. -/
structure Reply where
  answer : Answer
  /-- What is noted about the step. -/
  events : List Event
  lifecycle : Lifecycle
deriving Repr

namespace Tracker

/-- Records the failure that a call reports, if it reports one. -/
def recordOf (t : Tracker) : Call → Tracker
  | .fail f => t.recordFailure f
  | .failSubtest id f => t.recordSubtestFailure id f
  | _ => t

/-- Makes a call: attempts the transitions of its signal, and records its failure in any case. -/
def call (t : Tracker) (c : Call) (now : Millis) : Tracker :=
  { t with lifecycle := (t.lifecycle.signal c.signal now).lifecycle }.recordOf c

/-- What is noted when the result is built. -/
def builtEvent (t : Tracker) : Event :=
  .built t.build.status t.build.numTests t.build.numFailures

/-- The tracker after a step. -/
def after (t : Tracker) : Step → Tracker
  | .call c now => t.call c now
  | .notice n now => t.call n.call now
  | .exportProperty name value => t.exportProperty name value
  | .exportRepeated base value => t.exportRepeated base value
  | .addSubtest c => { t with subject := t.subject.addSubtest c }
  | .describe | .build | .render | .junitCase => t

/-- The answer to a step. -/
def answer (t : Tracker) : Step → Answer
  | .call c now => .applied (t.lifecycle.signal c.signal now).applied
  | .notice _ _ => .none
  | .exportProperty _ _ => .none
  | .exportRepeated base _ => .name (t.nextName base)
  | .addSubtest _ => .none
  | .describe => .subject t.subject
  | .build => .result t.build
  | .render => .line t.build.render
  | .junitCase => .junitCase (.ofResult t.build)

/-- What is noted about a step. -/
def events (t : Tracker) : Step → List Event
  | .call c now => (t.lifecycle.signal c.signal now).events
  | .notice n now => (t.lifecycle.signal n.call.signal now).events
  | .exportProperty name _ => [.exported name]
  | .exportRepeated base _ => [.exportedRepeated (t.nextName base)]
  | .addSubtest _ | .describe => []
  | .build | .render | .junitCase => [t.builtEvent]

/-- The tracker after a step, and the reply to it. -/
def step (t : Tracker) (s : Step) : Tracker × Reply :=
  (t.after s, { answer := t.answer s, events := t.events s, lifecycle := (t.after s).lifecycle })

/-- The tracker after a list of steps, and the replies to them. -/
def run (t : Tracker) : List Step → Tracker × List Reply
  | [] => (t, [])
  | s :: steps =>
    let (t', reply) := t.step s
    let (t'', replies) := t'.run steps
    (t'', reply :: replies)

end Tracker

end Casebook
