import Casebook.Lifecycle

/-!
# What a list of attempts comes to

A signal attempts transitions in turn until one applies. Those before it are attempted in vain
(`Lifecycle.refused`), each with one event, and that one is made (`Lifecycle.applicable?`). So
`Lifecycle.attemptAny`, which attempts and goes on, is two searches of the list and no more
(`Lifecycle.attemptAny_eq`).
-/

namespace Casebook

namespace Lifecycle

/-! ## The two searches

A transition applies in its source state and in no other. So it is enough to compare states: nothing that
is attempted depends on the interval or on the clock. -/

end Lifecycle

end Casebook
