/-!
# Settings of trackers

`Settings` are what is set once for all trackers of a run.
-/

namespace Casebook

/-- What is set for all trackers of a run. -/
structure Settings where
  /-- The number of the first export of a repeated property. -/
  firstIndex : Nat := 1
deriving DecidableEq, Repr

end Casebook
