import Casebook.Junit.Case

/-!
# JUnit suites

A `Junit.Suite` is a list of cases with their counts, and the properties of the suite.
`Junit.Suite.ofResults` shows each result as one case, or, if it has sub-tests, each of its sub-tests
as one.
-/

namespace Casebook.Junit

/-- The counts of a suite. -/
structure Tally where
  tests : Nat := 0
  failures : Nat := 0
  errors : Nat := 0
  /-- The number of skipped cases. -/
  disabled : Nat := 0
deriving DecidableEq, Repr

/-- The counts with one more case. -/
def Tally.add (n : Tally) : Verdict → Tally
  | .success => { n with tests := n.tests + 1 }
  | .failure _ => { n with tests := n.tests + 1, failures := n.failures + 1 }
  | .error _ => { n with tests := n.tests + 1, errors := n.errors + 1 }
  | .skipped _ => { n with tests := n.tests + 1, disabled := n.disabled + 1 }

/-- A list of cases in a report. -/
structure Suite where
  name : String
  tally : Tally := {}
  cases : List Case := []
  /-- The properties, in the order in which they were added. -/
  properties : List (String × String) := []
deriving DecidableEq, Repr

namespace Suite

/-- A suite without cases. -/
def empty (name : String) : Suite := { name := Text.plain name }

/-- The suite with one more case. -/
def addCase (s : Suite) (c : Case) : Suite :=
  { s with tally := s.tally.add c.verdict, cases := s.cases ++ [c] }

/-- The suite with more properties. -/
def addProperties (s : Suite) (p : Properties) : Suite :=
  { s with
    properties := s.properties ++ p.entries.map fun e => (Text.plain e.1, Text.plain e.2) }

/-- The results that a result is shown as. -/
def shownAs (r : Result) : List Result := if r.children.isEmpty then [r] else r.children

/-- The suite with a result added. -/
def addResult (s : Suite) (r : Result) : Suite :=
  (((shownAs r).map Case.ofResult).foldl addCase s).addProperties r.properties

/-- The suite of a list of results. -/
def ofResults (name : String) (results : List Result) : Suite :=
  results.foldl addResult (empty name)

end Suite

end Casebook.Junit
