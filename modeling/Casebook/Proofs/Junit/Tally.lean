import Mathlib.Algebra.GroupWithZero.Nat
import Casebook.Junit.Suite

/-!
# The counts of a suite

A suite counts its cases one by one as they are added. `tally_ofResults` reads the counts off the list
of all verdicts instead, so that nothing below follows the additions again, and
`Verdict.kinds_ofResult` says which verdict each kind of count is about.

A result is *balanced* when its own counts are those of the results that it is shown as. The counts of
a suite of balanced results are sums over the results: each result counts with all its tests where its
status makes them errors or skipped, and with its failures where it is completed.
-/

namespace Casebook

namespace Junit

/-! ## Kinds of verdicts

A suite counts verdicts by their kind and looks at nothing else of them. `Verdict.kinds_ofResult` says of
which results a verdict of each kind is. -/

namespace Verdict

def isFailure : Verdict → Bool
  | failure _ => true
  | _ => false

def isError : Verdict → Bool
  | error _ => true
  | _ => false

def isSkipped : Verdict → Bool
  | skipped _ => true
  | _ => false

/-- Interrupted tests are errors, tests that never ended are skipped, and of the completed ones those
with failures are failures. -/
theorem kinds_ofResult (r : Result) :
    (ofResult r).isFailure = (decide (r.status = .completed) && r.hasFailures)
      ∧ (ofResult r).isError = decide (r.status = .interrupted)
      ∧ (ofResult r).isSkipped = decide (r.status ∈ [.skipped, .suppressed, .cancelled]) := by
  rw [ofResult]
  cases r.status with
  | completed =>
    cases r.hasFailures with
    | true => cases r.failures.isEmpty <;> exact ⟨rfl, rfl, rfl⟩
    | false => exact ⟨rfl, rfl, rfl⟩
  | _ => exact ⟨rfl, rfl, rfl⟩

/-- Only a completed test without failed units is a success. -/
theorem ofResult_eq_success_iff (r : Result) :
    ofResult r = .success ↔ r.status = .completed ∧ r.hasFailures = false := by
  rw [ofResult]
  cases r.status with
  | completed =>
    cases r.hasFailures with
    | true => cases r.failures.isEmpty <;> simp
    | false => simp
  | _ => simp

end Verdict

/-! ## Counting

The counts are a fold over cases, inside a fold over results. `Suite.Counted` is what both folds keep: at
every point the counts are those of the cases so far. -/

/-- The counts of a list of verdicts. -/
def Tally.ofVerdicts (vs : List Verdict) : Tally where
  tests := vs.length
  failures := vs.countP Verdict.isFailure
  errors := vs.countP Verdict.isError
  disabled := vs.countP Verdict.isSkipped

theorem Tally.add_ofVerdicts (vs : List Verdict) (v : Verdict) :
    (ofVerdicts vs).add v = ofVerdicts (vs ++ [v]) := by
  cases v <;> simp [ofVerdicts, Tally.add, Verdict.isFailure, Verdict.isError, Verdict.isSkipped]

namespace Suite

/-- A suite whose counts are those of its cases. -/
def Counted (s : Suite) : Prop := s.tally = .ofVerdicts (s.cases.map Case.verdict)

theorem counted_addCase {s : Suite} (h : s.Counted) (c : Case) : (s.addCase c).Counted := by
  show s.tally.add c.verdict = _
  rw [h, Tally.add_ofVerdicts, addCase, List.map_append]
  rfl

theorem counted_foldl_addCase (cs : List Case) {s : Suite} (h : s.Counted) :
    (cs.foldl addCase s).Counted := by
  induction cs generalizing s with
  | nil => exact h
  | cons c cs ih => exact ih (counted_addCase h c)

theorem counted_foldl_addResult (rs : List Result) {s : Suite} (h : s.Counted) :
    (rs.foldl addResult s).Counted := by
  induction rs generalizing s with
  | nil => exact h
  | cons r rs ih => exact ih (counted_foldl_addCase _ h)

theorem cases_foldl_addCase (cs : List Case) (s : Suite) :
    (cs.foldl addCase s).cases = s.cases ++ cs := by
  induction cs generalizing s with
  | nil => exact (List.append_nil _).symm
  | cons c cs ih =>
    rw [List.foldl_cons, ih, addCase, List.append_assoc]
    rfl

/-- The cases of one result after the other, and inside of each those that it is shown as. -/
theorem cases_foldl_addResult (rs : List Result) (s : Suite) :
    (rs.foldl addResult s).cases = s.cases ++ (rs.flatMap shownAs).map Case.ofResult := by
  induction rs generalizing s with
  | nil => exact (List.append_nil _).symm
  | cons r rs ih =>
    have hr : (s.addResult r).cases = s.cases ++ (shownAs r).map Case.ofResult :=
      cases_foldl_addCase _ s
    rw [List.foldl_cons, ih, hr, List.flatMap_cons, List.map_append, List.append_assoc]

/-- A suite shows every result without children and every child, in their order. -/
theorem cases_ofResults (name : String) (rs : List Result) :
    (ofResults name rs).cases = (rs.flatMap shownAs).map Case.ofResult :=
  cases_foldl_addResult rs (empty name)

/-- The counts of a suite are those of the verdicts on all that it shows. -/
theorem tally_ofResults (name : String) (rs : List Result) :
    (ofResults name rs).tally = .ofVerdicts ((rs.flatMap shownAs).map Verdict.ofResult) := by
  have h : (ofResults name rs).Counted := counted_foldl_addResult rs rfl
  rw [h, cases_ofResults, List.map_map]
  rfl

end Suite

/-! ## Balanced results

Nothing in the type of a result says that its own counts are those of what is shown of it; a result that
was read from a text need not be so. Those of trackers are, and for balanced results in general the counts
of a suite can be taken from the results alone. -/

/-- A result whose counts are those of the results that it is shown as. -/
structure Balanced (r : Result) : Prop where
  /-- All that is shown has the status of the result. -/
  status : ∀ c ∈ Suite.shownAs r, c.status = r.status
  /-- The tests of the result are all that is shown. -/
  length : (Suite.shownAs r).length = r.numTests
  /-- The failed tests of the result are those with failures among all that is shown. -/
  failed : (Suite.shownAs r).countP Result.hasFailures = r.numFailures

namespace Balanced

variable {r : Result}

/-- No more tests fail than there are. -/
theorem numFailures_le (h : Balanced r) : r.numFailures ≤ r.numTests := by
  rw [← h.failed, ← h.length]
  exact List.countP_le_length

/-- All verdicts of a kind that only the status decides are the same. -/
theorem countP_status (h : Balanced r) (p : Status → Bool) :
    (Suite.shownAs r).countP (fun c => p c.status) = if p r.status then r.numTests else 0 := by
  have hp : ∀ c ∈ Suite.shownAs r, (p c.status = true ↔ p r.status = true) := fun c hc => by
    rw [h.status c hc]
  -- all that is shown has one status, so either all of it counts or nothing does
  rw [List.countP_congr hp, ← h.length]
  split
  · next ht => simp [ht, List.countP_true]
  · next hf => simp [hf]

/-- All that is shown of a completed test may fail, one by one; of any other test nothing does. -/
theorem countP_isFailure (h : Balanced r) :
    (Suite.shownAs r).countP (fun c => (Verdict.ofResult c).isFailure)
      = if r.status = .completed then r.numFailures else 0 := by
  have hp : ∀ c ∈ Suite.shownAs r, ((Verdict.ofResult c).isFailure = true
      ↔ (decide (r.status = .completed) && c.hasFailures) = true) := fun c hc => by
    rw [(Verdict.kinds_ofResult c).1, h.status c hc]
  rw [List.countP_congr hp, ← h.failed]
  split
  · next ht => simp [ht]
  · next hf => simp [hf]

end Balanced

/-- A count over lists that belong to results is a sum over the results that contribute to it. -/
theorem countP_flatMap_eq_sum {α : Type} (rs : List Result) (f : Result → List α) (q : α → Bool)
    (p : Result → Bool) (n : Result → Nat)
    (h : ∀ r ∈ rs, (f r).countP q = if p r then n r else 0) :
    (rs.flatMap f).countP q = ((rs.filter p).map n).sum := by
  induction rs with
  | nil => rfl
  | cons r rs ih =>
    have hr := h r List.mem_cons_self
    rw [List.flatMap_cons, List.countP_append, hr,
      ih fun r' hr' => h r' (List.mem_cons_of_mem _ hr'), List.filter_cons]
    split
    · rw [List.map_cons, List.sum_cons]
    · rw [Nat.zero_add]

/-- The counts of a suite of balanced results, as sums over the results. -/
theorem tally_of_balanced (name : String) {rs : List Result} (h : ∀ r ∈ rs, Balanced r) :
    (Suite.ofResults name rs).tally =
      { tests := (rs.map Result.numTests).sum
        failures := ((rs.filter fun r => r.status = .completed).map Result.numFailures).sum
        errors := ((rs.filter fun r => r.status = .interrupted).map Result.numTests).sum
        disabled := ((rs.filter fun r => r.status ∈ [.skipped, .suppressed, .cancelled]).map
          Result.numTests).sum } := by
  rw [Suite.tally_ofResults, Tally.ofVerdicts, Tally.mk.injEq]
  simp only [List.length_map, List.countP_map]
  -- each count is a sum over the results; which of them contribute is decided by their status
  refine ⟨?_, ?_, ?_, ?_⟩
  · rw [List.length_flatMap]
    exact congrArg List.sum (List.map_congr_left fun r hr => (h r hr).length)
  · refine countP_flatMap_eq_sum rs _ _ _ _ fun r hr => ?_
    simpa [Function.comp_def] using (h r hr).countP_isFailure
  · refine countP_flatMap_eq_sum rs _ _ _ _ fun r hr => ?_
    rw [← (h r hr).countP_status fun v => decide (v = .interrupted)]
    exact List.countP_congr fun c _ => by simp [(Verdict.kinds_ofResult c).2.1]
  · refine countP_flatMap_eq_sum rs _ _ _ _ fun r hr => ?_
    rw [← (h r hr).countP_status fun v => decide (v ∈ [.skipped, .suppressed, .cancelled])]
    exact List.countP_congr fun c _ => by simp [(Verdict.kinds_ofResult c).2.2]

end Junit

end Casebook
