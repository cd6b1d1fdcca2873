import Casebook.FailureMap
import Casebook.Lifecycle
import Casebook.Result
import Casebook.Settings.Basic

/-!
# Trackers

A `Tracker` keeps what happens to one test: its lifecycle, its failures and those of its sub-tests,
and the properties that are exported while it runs. Failures and properties are kept whatever the
state of the test is, and nothing is ever taken out. `Tracker.build` renders the result at any
moment.
-/

namespace Casebook

/-- What is known of a test. -/
structure Tracker where
  subject : Subject
  /-- The name of the suite that the test is in. -/
  parent : String
  settings : Settings := {}
  lifecycle : Lifecycle := {}
  properties : Properties := ∅
  /-- The base names of the repeated properties exported so far, in their order. -/
  repeated : List String := []
  /-- The failures of the test as a whole, in their order. -/
  failures : List Failure := []
  /-- The failures of sub-tests, discovered or not. -/
  subtestFailures : FailureMap := ∅
deriving Repr

namespace Tracker

/-- A tracker of a test in a suite, to which nothing has happened yet. -/
def new (subject parent : Subject) (settings : Settings) : Tracker :=
  { subject, parent := parent.name, settings }

/-! ## Exported properties

A plain export replaces what is stored under its name. A repeated export makes up a name from its base and
a number, and stores its value there in the same way, without asking whether the name is taken. Only the
base names are remembered, so numbers do not depend on plain exports. -/

/-- Exports a property, in place of any earlier value of that name. -/
def exportProperty (t : Tracker) (name value : String) : Tracker :=
  { t with properties := t.properties.insert name value }

/-- The name under which the next repeated export of a base name is stored: the base name and a
running number, which counts the exports of that base name from the first index that is set. -/
def nextName (t : Tracker) (base : String) : String :=
  base ++ toString (t.repeated.count base + t.settings.firstIndex)

/-- Exports a property that may be exported again under the same base name. -/
def exportRepeated (t : Tracker) (base value : String) : Tracker :=
  { t with
    properties := t.properties.insert (t.nextName base) value
    repeated := t.repeated ++ [base] }

/-! ## Failures

Failures are kept apart by what failed. Neither kind looks at the lifecycle: a failure is recorded after
the end of a test as well as before. -/

/-- Records a failure of the test as a whole. -/
def recordFailure (t : Tracker) (f : Failure) : Tracker := { t with failures := t.failures ++ [f] }

/-- Records a failure of a sub-test. -/
def recordSubtestFailure (t : Tracker) (id : TestId) (f : Failure) : Tracker :=
  { t with subtestFailures := t.subtestFailures.record id f }

/-! ## Results

A result is computed from the tracker whenever it is asked for, and nothing of it is stored. The counts
are of the units that the subject stands for (`Subject.units`). -/

/-- The number of failed units. A failure of the whole test fails every unit; otherwise each sub-test
with a failure is a failed unit. -/
def numFailures (t : Tracker) : Nat :=
  if t.failures.isEmpty then t.subtestFailures.size else t.subject.units

/-- The result of a sub-test. It shares the interval and the status of the test, and fails with it. -/
def buildSubtest (t : Tracker) (c : Subtest) : Result where
  name := c.name
  className := t.subject.name
  -- what is exported belongs to the test
  properties := ∅
  failures := t.subtestFailures.get c.id
  interval? := t.lifecycle.interval?
  status := t.lifecycle.state.status
  numTests := 1
  numFailures := if t.failures.isEmpty && (t.subtestFailures.get c.id).isEmpty then 0 else 1
  children := []

/-- The result of the test as it stands. A test without a method goes by the name of its class, in
the class of its suite. -/
def build (t : Tracker) : Result where
  name := t.subject.method?.getD t.subject.className
  className := if t.subject.method?.isSome then t.subject.className else t.parent
  properties := t.properties
  failures := t.failures
  interval? := t.lifecycle.interval?
  status := t.lifecycle.state.status
  numTests := t.subject.units
  numFailures := t.numFailures
  children := t.subject.subtests.map t.buildSubtest

end Tracker

end Casebook
