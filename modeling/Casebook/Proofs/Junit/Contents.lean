import Mathlib.Data.List.Basic
import Casebook.Proofs.Junit.Tally
import Casebook.Proofs.Text.ByteOrder

/-!
# The contents of a suite

A suite is made by adding results one after the other, and what has been added before is never looked
at again: adding a result to two suites, one behind the other, is adding it to the second
(`Suite.addResult_append`). So the suite of two lists of results is that of the first list with that of
the second behind it (`Suite.ofResults_append`), counts, cases and properties together.

`Suite.contents_ofResults` says in full what a suite holds.
-/

namespace Casebook.Junit

/-! ## One suite behind another

Every operation on a suite works at its end: it adds to the counts and appends to the lists. Each lemma
says so of one operation, up to the fold over all results. -/

/-- The counts of two lists of cases together. -/
def Tally.plus (m n : Tally) : Tally where
  tests := m.tests + n.tests
  failures := m.failures + n.failures
  errors := m.errors + n.errors
  disabled := m.disabled + n.disabled

theorem Tally.plus_add (m n : Tally) (v : Verdict) : (m.plus n).add v = m.plus (n.add v) := by
  cases v <;> rfl

/-- A case counts as a success, a failure, an error or a skipped test, and as one of these only. -/
theorem Tally.tests_ofVerdicts (vs : List Verdict) :
    (ofVerdicts vs).tests = (ofVerdicts vs).errors + (ofVerdicts vs).failures
      + (ofVerdicts vs).disabled + vs.countP (fun v => decide (v = .success)) := by
  simp only [ofVerdicts]
  induction vs with
  | nil => rfl
  | cons v vs ih =>
    simp only [List.length_cons, ih, List.countP_cons]
    cases v <;> simp [Verdict.isError, Verdict.isFailure, Verdict.isSkipped] <;> omega

namespace Suite

/-- A suite with the contents of another one behind its own. -/
def append (s t : Suite) : Suite where
  name := s.name
  tally := s.tally.plus t.tally
  cases := s.cases ++ t.cases
  properties := s.properties ++ t.properties

variable (s t : Suite)

theorem append_empty (name : String) : s.append (empty name) = s := by
  cases s
  simp only [append, empty, Tally.plus, List.append_nil, Nat.add_zero]

theorem addCase_append (c : Case) : (s.append t).addCase c = s.append (t.addCase c) := by
  simp only [append, addCase, Tally.plus_add, List.append_assoc]

theorem foldl_addCase_append (cs : List Case) :
    cs.foldl addCase (s.append t) = s.append (cs.foldl addCase t) := by
  induction cs generalizing t with
  | nil => rfl
  | cons c cs ih => rw [List.foldl_cons, List.foldl_cons, addCase_append, ih]

theorem addProperties_append (p : Properties) :
    (s.append t).addProperties p = s.append (t.addProperties p) := by
  simp only [append, addProperties, List.append_assoc]

theorem addResult_append (r : Result) : (s.append t).addResult r = s.append (t.addResult r) := by
  rw [addResult, addResult, foldl_addCase_append, addProperties_append]

theorem foldl_addResult_append (rs : List Result) :
    rs.foldl addResult (s.append t) = s.append (rs.foldl addResult t) := by
  induction rs generalizing t with
  | nil => rfl
  | cons r rs ih => rw [List.foldl_cons, List.foldl_cons, addResult_append, ih]

theorem ofResults_append (name : String) (xs ys : List Result) :
    ofResults name (xs ++ ys) = (ofResults name xs).append (ofResults name ys) := by
  show (xs ++ ys).foldl addResult (empty name) = _
  rw [List.foldl_append]
  show ys.foldl addResult (ofResults name xs) = _
  rw [← append_empty (ofResults name xs) name, foldl_addResult_append, append_empty]
  rfl

/-! ## What a suite holds

Cases and counts are read off by `Suite.cases_ofResults` and `Suite.tally_ofResults`. Properties are added
once for each result, behind those of the results before, and cases add none. -/

theorem properties_foldl_addCase (cs : List Case) :
    (cs.foldl addCase s).properties = s.properties := by
  induction cs generalizing s with
  | nil => rfl
  | cons c cs ih => exact ih (s.addCase c)

theorem properties_ofResults_singleton (name : String) (r : Result) :
    (ofResults name [r]).properties
      = r.properties.entries.map fun e => (Text.plain e.1, Text.plain e.2) := by
  show (((shownAs r).map Case.ofResult).foldl addCase (empty name)).properties ++ _ = _
  rw [properties_foldl_addCase]
  rfl

/-- The properties of a suite are those of the results, one result after the other. -/
theorem properties_ofResults (name : String) (rs : List Result) :
    (ofResults name rs).properties
      = rs.flatMap fun r => r.properties.entries.map fun e => (Text.plain e.1, Text.plain e.2) := by
  induction rs with
  | nil => rfl
  | cons r rs ih =>
    have hcons : ofResults name (r :: rs) = (ofResults name [r]).append (ofResults name rs) :=
      ofResults_append name [r] rs
    rw [hcons, List.flatMap_cons, ← ih, ← properties_ofResults_singleton name r]
    rfl

/-- What a suite holds. Its cases are those of the results without sub-tests and of the sub-tests of
the others, in their order; its properties are those of the results, each result's by the bytes of the
names. Its counts are those of the verdicts on its cases, and every case counts as one thing. The
suite of two lists of results has the contents of the suite of the first list, followed by those of
the second. -/
theorem contents_ofResults (name : String) (xs ys : List Result) :
    let suite := ofResults name
    ((suite xs).cases = xs.flatMap fun r =>
        if r.children.isEmpty then [Case.ofResult r] else r.children.map Case.ofResult)
      ∧ ((suite xs).properties = xs.flatMap fun r =>
        r.properties.entries.map fun e => (Text.plain e.1, Text.plain e.2))
      ∧ (∀ r : Result, r.properties.entries.Pairwise fun a b => Text.bytes a.1 < Text.bytes b.1)
      ∧ (suite xs).tally = .ofVerdicts ((suite xs).cases.map Case.verdict)
      ∧ (suite xs).tally.tests = (suite xs).cases.length
      ∧ (suite xs).tally.tests = (suite xs).tally.errors + (suite xs).tally.failures
        + (suite xs).tally.disabled
        + (suite xs).cases.countP (fun c => decide (c.verdict = .success))
      ∧ (suite (xs ++ ys)).cases = (suite xs).cases ++ (suite ys).cases
      ∧ (suite (xs ++ ys)).properties = (suite xs).properties ++ (suite ys).properties
      ∧ (suite (xs ++ ys)).tally =
        { tests := (suite xs).tally.tests + (suite ys).tally.tests
          failures := (suite xs).tally.failures + (suite ys).tally.failures
          errors := (suite xs).tally.errors + (suite ys).tally.errors
          disabled := (suite xs).tally.disabled + (suite ys).tally.disabled } := by
  intro suite
  have hcounted : (suite xs).tally = .ofVerdicts ((suite xs).cases.map Case.verdict) :=
    counted_foldl_addResult xs rfl
  have happend : suite (xs ++ ys) = (suite xs).append (suite ys) := ofResults_append name xs ys
  refine ⟨?_, properties_ofResults name xs, fun r => ?_, hcounted, ?_, ?_, ?_, ?_, ?_⟩
  · show (ofResults name xs).cases = _
    rw [cases_ofResults, List.map_flatMap]
    exact List.flatMap_congr fun r _ => by
      rw [shownAs]
      split <;> rfl
  · exact r.properties.ascending.imp Text.bytes_lt_bytes_iff.2
  · rw [hcounted, Tally.ofVerdicts, List.length_map]
  · rw [hcounted, Tally.tests_ofVerdicts, List.countP_map]
    rfl
  · rw [happend]
    rfl
  · rw [happend]
    rfl
  · rw [happend]
    rfl

end Suite

end Casebook.Junit
