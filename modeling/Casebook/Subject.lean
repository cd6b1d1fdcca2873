/-!
# What is tracked

A `Subject` describes a test: its identity, its names, and the sub-tests (`Subtest`) that have been
discovered while it ran.
-/

namespace Casebook

/-- The identity of a test or sub-test. -/
structure TestId where
  text : String
deriving DecidableEq, Repr

namespace TestId

/-- Ids are ordered by their texts. -/
instance : LT TestId := ⟨fun a b => a.text < b.text⟩

instance (a b : TestId) : Decidable (a < b) := inferInstanceAs (Decidable (a.text < b.text))

/-- The ids in ascending order, repeats kept. -/
def sort (ids : List TestId) : List TestId := ids.mergeSort fun a b => decide (¬ b < a)

/-- The number of different ids. -/
def countDistinct (ids : List TestId) : Nat := ids.eraseDups.length

end TestId

/-- A test that was discovered while another test ran. -/
structure Subtest where
  id : TestId
  name : String
deriving DecidableEq, Repr

namespace Subtest

/-- A sub-test that is identified by the name that is shown. -/
def ofName (name : String) : Subtest := ⟨⟨name⟩, name⟩

end Subtest

/-- A test, as the one who runs it describes it. -/
structure Subject where
  id : TestId
  /-- The method, which is missing for a test that is described like a suite. -/
  method? : Option String
  /-- The class, or other group, that the test belongs to. -/
  className : String
  name : String
  /-- Whether the subject counts as a single test, if it says so itself. -/
  single? : Option Bool := none
  /-- The sub-tests discovered so far, in the order of their discovery. -/
  subtests : List Subtest := []
deriving DecidableEq, Repr

namespace Subject

/-- The test of a method of a class. -/
def ofMethod (className method : String) : Subject :=
  let name := method ++ "(" ++ className ++ ")"
  { id := ⟨name⟩, method? := some method, className, name }

/-- A subject that is described like a suite. -/
def ofSuite (name : String) : Subject :=
  { id := ⟨name⟩, method? := none, className := name, name }

/-- The subject with one more sub-test. -/
def addSubtest (s : Subject) (t : Subtest) : Subject := { s with subtests := s.subtests ++ [t] }

/-- Whether the subject is a single test unit. Unless it says so itself, it is one as long as no
sub-test has been discovered. -/
def isSingle (s : Subject) : Bool := s.single?.getD s.subtests.isEmpty

/-- The number of test units: one, or one for each sub-test. -/
def units (s : Subject) : Nat := if s.isSingle then 1 else s.subtests.length

end Subject

end Casebook
