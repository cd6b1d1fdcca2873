import Casebook.Junit.Suite
import Casebook.Tracker.Step

/-!
# Sessions

A session is a list of trackers that are driven together. A step of a session is a step of one
tracker, or a step that takes in every tracker. Each tracker that a step concerns gives its reply.
-/

namespace Casebook

namespace Session

/-- A step of a session. -/
inductive Step where
  | on (index : Nat) (step : Casebook.Step)
  /-- Every tracker is told that its test was interrupted. -/
  | interruptAll (now : Millis)
  /-- The question for the JUnit suite of all trackers. -/
  | junitSuite (name : String)
deriving DecidableEq, Repr

/-- The replies to a step of a session. -/
structure Reply where
  /-- The replies of the trackers, each with the index of the tracker. -/
  replies : List (Nat × Casebook.Reply)
  suite? : Option Junit.Suite := none
deriving Repr

/-- What a step of a session asks of the tracker at an index. -/
def stepOf (index : Nat) : Step → Option Casebook.Step
  | .on i s => if i = index then some s else none
  | .interruptAll now => some (.notice .interrupted now)
  | .junitSuite _ => some .build

/-- The trackers after a step. -/
def after (trackers : List Tracker) (s : Step) : List Tracker :=
  trackers.mapIdx fun i t =>
    match stepOf i s with
    | some step => t.after step
    | none => t

/-- The replies of the trackers that a step concerns. -/
def replies (trackers : List Tracker) (s : Step) : List (Nat × Casebook.Reply) :=
  (trackers.mapIdx fun i t => (stepOf i s).map fun step => (i, (t.step step).2)).filterMap id

/-- The trackers after a step, and the replies to it. -/
def step (trackers : List Tracker) (s : Step) : List Tracker × Reply :=
  let suite? :=
    match s with
    | .junitSuite name => some (Junit.Suite.ofResults name (trackers.map Tracker.build))
    | _ => none
  (after trackers s, { replies := replies trackers s, suite? })

/-- The trackers after a list of steps, and the replies to them. -/
def run (trackers : List Tracker) : List Step → List Tracker × List Reply
  | [] => (trackers, [])
  | s :: steps =>
    let (trackers', reply) := step trackers s
    let (trackers'', replies) := run trackers' steps
    (trackers'', reply :: replies)

end Session

end Casebook
