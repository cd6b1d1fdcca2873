import Casebook.Log
import Casebook.Session

/-!
# The log of a session

`Event.record` writes an event of a test as a log record, and `Session.Reply.records` are the records
of a step of a session.
-/

namespace Casebook

open Log (Value)

/-- The log record of an event of the test `id`. -/
def Event.record (id : TestId) : Event → Log.Record
  | ignored current t =>
    { level := .trace
      message := "ignoring transition from a state the test is not in"
      fields := [("test", .text id.text), ("current", .text current.name),
        ("from", .text t.source.name), ("to", .text t.target.name)] }
  | clockWentBack stop now =>
    { level := .warn
      message := "clock went backwards, keeping the current end of the interval"
      fields := [("test", .text id.text), ("end", .number stop.toNat), ("now", .number now.toNat)] }
  | moved t now =>
    { level := .debug
      message := "test transitioned"
      fields := [("test", .text id.text), ("from", .text t.source.name),
        ("to", .text t.target.name), ("now", .number now.toNat)] }
  | exported name =>
    { level := .debug
      message := "exported property"
      fields := [("test", .text id.text), ("name", .text name)] }
  | exportedRepeated name =>
    { level := .debug
      message := "exported repeated property"
      fields := [("test", .text id.text), ("name", .text name)] }
  | built status numTests numFailures =>
    { level := .trace
      message := "built test result"
      fields := [("test", .text id.text), ("status", .text status.name),
        ("num_tests", .number numTests), ("num_failures", .number numFailures)] }

namespace Session

/-- The log records of a reply to a step of trackers, in the order of the trackers. -/
def Reply.records (trackers : List Tracker) (r : Reply) : List Log.Record :=
  r.replies.flatMap fun (index, reply) =>
    match trackers[index]? with
    | some t => reply.events.map (Event.record t.subject.id)
    | none => []

end Session

end Casebook
