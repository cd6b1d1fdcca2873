import Casebook.Interval
import Casebook.Status

/-!
# The lifecycle of a test

A test is in one `State`, and signals move it along:

* `initial`: `start` leads to `started`, `suppress` to `suppressed`, `interrupt` to `cancelled`, and
  `fail` to `finished`;
* `started`: `finish` leads to `finished`, `skip` to `skipped`, and `interrupt` to `interrupted`;
* every other state is terminal.

A `Transition` is an edge of this diagram, and a `Signal` attempts one transition or several until one
applies. The `Lifecycle` of a test is its state with the interval during which it was active: the
first transition opens the interval, and each later one extends it. Every attempt says in `Event`s
what it did.
-/

namespace Casebook

/-! ## States

Seven states are told apart here, and five statuses are shown. The two states that are no end of a test
have to be shown as something too, for whoever asks before the end. -/

/-- Where a test stands. -/
inductive State where
  | initial
  /-- It has started and not ended. -/
  | started
  /-- It started and was then skipped. -/
  | skipped
  /-- It was suppressed before it started. -/
  | suppressed
  /-- It was cancelled before it started. -/
  | cancelled
  | interrupted
  /-- It came to its end, well or not. -/
  | finished
deriving DecidableEq, Repr

namespace State

/-- The name of a state. -/
def name : State → String
  | initial => "initial"
  | started => "started"
  | skipped => "skipped"
  | suppressed => "suppressed"
  | cancelled => "cancelled"
  | interrupted => "interrupted"
  | finished => "finished"

/-- How a test ended that is seen in a state. One that is still running counts as interrupted, and
one that never ran as skipped. -/
def status : State → Status
  | initial => .skipped
  | started => .interrupted
  | skipped => .skipped
  | suppressed => .suppressed
  | cancelled => .cancelled
  | interrupted => .interrupted
  | finished => .completed

/-- Whether no transition leads out of the state. -/
def isTerminal : State → Bool
  | initial | started => false
  | _ => true

end State

/-! ## Signals

The diagram above is given by the transitions that a signal attempts. Most signals attempt one; an
interruption attempts two, of which the first is for a running test. -/

/-- A step from one state to another. -/
structure Transition where
  source : State
  target : State
deriving DecidableEq, Repr

/-- Something that happens to a test. -/
inductive Signal where
  | start
  | finish
  | skip
  | suppress
  /-- The test is interrupted, or cancelled if it has not started. -/
  | interrupt
  | fail
deriving DecidableEq, Repr

/-- The transitions that a signal attempts, in turn, until one applies. -/
def Signal.transitions : Signal → List Transition
  | start => [⟨.initial, .started⟩]
  | finish => [⟨.started, .finished⟩]
  | skip => [⟨.started, .skipped⟩]
  | suppress => [⟨.initial, .suppressed⟩]
  | interrupt => [⟨.started, .interrupted⟩, ⟨.initial, .cancelled⟩]
  | fail => [⟨.initial, .finished⟩]

/-! ## Events

Events are kept as data until they are rendered for a log. They hold what the log is to show, whether
anything was done or not. -/

/-- What is noted about a test. -/
inductive Event where
  /-- A transition was attempted in a state that it does not start from. -/
  | ignored (current : State) (transition : Transition)
  /-- A transition came before the end of the interval, which stays. -/
  | clockWentBack (stop now : Millis)
  | moved (transition : Transition) (now : Millis)
  | exported (name : String)
  | exportedRepeated (name : String)
  | built (status : Status) (numTests numFailures : Nat)
deriving DecidableEq, Repr

/-! ## Lifecycles

A transition is made in its source state only, and the interval is touched only by transitions that are
made. So the interval of a test reaches from its first transition to its last one, as far as the clock
goes forward. -/

/-- The state of a test, and when it was active. -/
structure Lifecycle where
  state : State := .initial
  /-- When it was active, once a transition has been made. -/
  interval? : Option Interval := none
deriving DecidableEq, Repr

namespace Lifecycle

/-- What came of an attempt. -/
structure Attempt where
  lifecycle : Lifecycle
  applied : Bool
  events : List Event
deriving DecidableEq, Repr

/-- The interval after a transition at `now`. -/
def intervalAt (l : Lifecycle) (now : Millis) : Interval :=
  match l.interval? with
  | none => .instant now
  | some i => i.extend now

/-- The note that the clock has gone back, if it has. -/
def clockEvents (l : Lifecycle) (now : Millis) : List Event :=
  match l.interval? with
  | none => []
  | some i => if now < i.stop then [.clockWentBack i.stop now] else []

/-- Attempts a transition. -/
def attempt (l : Lifecycle) (t : Transition) (now : Millis) : Attempt :=
  if l.state = t.source then
    { lifecycle := { state := t.target, interval? := some (l.intervalAt now) }
      applied := true
      events := l.clockEvents now ++ [.moved t now] }
  else
    { lifecycle := l, applied := false, events := [.ignored l.state t] }

/-- Attempts transitions in turn until one applies. -/
def attemptAny (l : Lifecycle) (now : Millis) : List Transition → Attempt
  | [] => { lifecycle := l, applied := false, events := [] }
  | t :: ts =>
    let a := l.attempt t now
    if a.applied then a
    else
      -- the events of both are kept, so that a log shows what was attempted in vain
      let b := a.lifecycle.attemptAny now ts
      { b with events := a.events ++ b.events }

/-- What a signal does. -/
def signal (l : Lifecycle) (s : Signal) (now : Millis) : Attempt := l.attemptAny now s.transitions

end Lifecycle

end Casebook
