import Mathlib.Data.List.Basic
import Casebook.Proofs.Tracker.Counts

/-!
# Verdicts on a run

What a report says about a test depends on two things only: the state that its run ends in, and whether
a failure was reported on the way. `Trial.verdict_iff` says how for the case of the test itself. A test
with a failure is never a success: a failure that was reported after the end, or for a sub-test that
nobody listed, counts as any other.

A suite shows the sub-tests in place of the test. What no listed sub-test failed with is not shown
there, so a suite can be without a failing case although a failure was reported
(`Trial.suite_without_failing_case`). `Trial.failing_case_iff` says exactly when there is one.

* `Trial.hasFailures_result` ties the count of failed tests to the reported failures.
* `Trial.shownAs_result` says what a suite shows of a test.
-/

namespace Casebook

/-! ## States and verdicts

A verdict goes by the status of a result, and there are fewer statuses than states: a test that was left
running is shown as interrupted, and one that never began as skipped. -/

namespace State

theorem status_eq_completed_iff (v : State) : v.status = .completed ↔ v = .finished := by
  cases v <;> decide

theorem status_eq_interrupted_iff (v : State) :
    v.status = .interrupted ↔ v ∈ [.started, .interrupted] := by
  cases v <;> decide

theorem status_mem_skipped_iff (v : State) :
    v.status ∈ [.skipped, .suppressed, .cancelled]
      ↔ v ∈ [.initial, .skipped, .suppressed, .cancelled] := by
  cases v <;> decide

end State

namespace Trial

variable (k : Trial)

/-! ## Reported failures

Whether a failure was reported is a matter of the steps of the trial. What the tracker has stored of it,
and what the result counts of it, is then tied to these two propositions. -/

/-- A failure of the whole test was reported. -/
def Failed : Prop := ∃ f, Call.fail f ∈ Step.calls k.steps

/-- A failure of a sub-test was reported, whether the sub-test was listed or not. -/
def SubtestFailed (id : TestId) : Prop := ∃ f, Call.failSubtest id f ∈ Step.calls k.steps

variable {k}

theorem failures_tracker_ne_nil_iff : k.tracker.failures ≠ [] ↔ k.Failed := by
  have hrun : k.tracker.failures = (Step.calls k.steps).filterMap Call.failure? := by
    show ((Tracker.new k.subject k.parent k.settings).run k.steps).1.failures = _
    rw [Tracker.failures_run]
    exact List.nil_append _
  rw [hrun]
  constructor
  · intro h
    obtain ⟨f, hf⟩ := List.exists_mem_of_ne_nil _ h
    obtain ⟨c, hc, hcf⟩ := List.mem_filterMap.1 hf
    cases c with
    | fail g => exact ⟨g, hc⟩
    | _ => simp [Call.failure?] at hcf
  · rintro ⟨f, hf⟩
    exact List.ne_nil_of_mem (List.mem_filterMap.2 ⟨_, hf, rfl⟩)

theorem get_subtestFailures_tracker_ne_nil_iff {id : TestId} :
    k.tracker.subtestFailures.get id ≠ [] ↔ k.SubtestFailed id := by
  rw [Ne, FailureMap.get_eq_nil_iff, Decidable.not_not]
  exact Tracker.mem_ids_subtestFailures_run _ k.steps rfl

theorem size_subtestFailures_tracker_pos_iff :
    0 < k.tracker.subtestFailures.size ↔ ∃ id, k.SubtestFailed id := by
  rw [← FailureMap.length_ids, List.length_pos_iff_exists_mem]
  exact exists_congr fun id => Tracker.mem_ids_subtestFailures_run _ k.steps rfl

/-- A test that counts as its sub-tests stands for one unit at least. -/
theorem units_pos (hsingle : k.subject.single? = none) : 0 < k.tracker.subject.units := by
  have h : k.tracker.subject.single? = none := by rw [subject_tracker]; exact hsingle
  rw [Subject.units, Subject.isSingle, h, Option.getD_none]
  split
  · exact Nat.one_pos
  · next hne => exact List.length_pos_of_ne_nil (by simpa using hne)

/-- The result has failed units if and only if a failure was reported. The subject must leave open whether
it is a single test: one that denies it and has no sub-tests stands for no unit that could fail. -/
theorem hasFailures_result (hsingle : k.subject.single? = none) :
    k.result.hasFailures = true ↔ k.Failed ∨ ∃ id, k.SubtestFailed id := by
  have hcount : k.result.numFailures
      = if k.tracker.failures.isEmpty then k.tracker.subtestFailures.size
        else k.tracker.subject.units := rfl
  rw [Result.hasFailures, decide_eq_true_iff, hcount, ← failures_tracker_ne_nil_iff,
    ← size_subtestFailures_tracker_pos_iff]
  by_cases hf : k.tracker.failures = []
  · -- the count is that of failed ids
    rw [if_pos (List.isEmpty_iff.2 hf)]
    exact (or_iff_right (not_not.2 hf)).symm
  · -- the count is that of units, of which there is one at least
    rw [if_neg (mt List.isEmpty_iff.1 hf)]
    exact iff_of_true (units_pos hsingle) (.inl hf)

/-! ## The case of the test

The case of the test itself is that of the whole result, with all failed units, whoever reported them. -/

/-- The case of a test is a success only if the test finished and nothing was reported to have failed,
a failure if it finished and something was, an error if it was left running or interrupted, and skipped
in every other state. -/
theorem verdict_iff (k : Trial) (hsingle : k.subject.single? = none) :
    let state := k.tracker.lifecycle.state
    let verdict := (Junit.Case.ofResult k.result).verdict
    (verdict = .success ↔ state = .finished ∧ ¬ (k.Failed ∨ ∃ id, k.SubtestFailed id))
      ∧ (verdict.isFailure = true ↔ state = .finished ∧ (k.Failed ∨ ∃ id, k.SubtestFailed id))
      ∧ (verdict.isError = true ↔ state ∈ [.started, .interrupted])
      ∧ (verdict.isSkipped = true ↔ state ∈ [.initial, .skipped, .suppressed, .cancelled]) := by
  intro state verdict
  have hstatus : k.result.status = state.status := rfl
  have hverdict : verdict = .ofResult k.result := rfl
  obtain ⟨hfailure, herror, hskipped⟩ := Junit.Verdict.kinds_ofResult k.result
  refine ⟨?_, ?_, ?_, ?_⟩
  · rw [hverdict, Junit.Verdict.ofResult_eq_success_iff, hstatus, State.status_eq_completed_iff,
      ← hasFailures_result hsingle, Bool.not_eq_true]
  · rw [hverdict, hfailure, Bool.and_eq_true, decide_eq_true_iff, hstatus,
      State.status_eq_completed_iff, hasFailures_result hsingle]
  · rw [hverdict, herror, decide_eq_true_iff, hstatus, State.status_eq_interrupted_iff]
  · rw [hverdict, hskipped, decide_eq_true_iff, hstatus, State.status_mem_skipped_iff]

/-- A test with a listed sub-test, where another sub-test fails after the end. -/
theorem verdict_iff_late_failure :
    let k : Trial := ⟨(Subject.ofMethod "C" "m").addSubtest (.ofName "a"), .ofSuite "C", {},
      [.call .start 1, .call .finish 3, .call (.failSubtest ⟨"b"⟩ {}) 4]⟩
    k.subject.single? = none
      ∧ k.tracker.lifecycle.state = .finished
      ∧ k.SubtestFailed ⟨"b"⟩
      ∧ (Junit.Case.ofResult k.result).verdict.isFailure = true := by
  intro k
  have hstate : k.tracker.lifecycle.state = .finished := rfl
  have hfailed : k.SubtestFailed ⟨"b"⟩ := ⟨{}, by decide⟩
  exact ⟨rfl, hstate, hfailed, (verdict_iff k rfl).2.1.2 ⟨hstate, .inr ⟨_, hfailed⟩⟩⟩

/-! ## The suite of the test

A suite does not show the case above if the test has sub-tests. It shows theirs, and a failure shows there
only by way of a sub-test that is listed. -/

/-- A suite shows a test itself as long as it has no sub-tests, and otherwise its sub-tests. -/
theorem shownAs_result :
    Junit.Suite.shownAs k.result
      = if k.listed = [] then [k.result] else k.listed.map k.tracker.buildSubtest := by
  have hchildren : k.result.children = k.listed.map k.tracker.buildSubtest := by
    show k.tracker.build.children = _
    rw [Tracker.children_build, subject_tracker]
  rw [Junit.Suite.shownAs, hchildren]
  cases k.listed with
  | nil => rfl
  | cons c cs => rfl

/-- A sub-test counts as failed if a failure was reported for it, or for the whole test. -/
theorem hasFailures_buildSubtest_tracker (c : Subtest) :
    (k.tracker.buildSubtest c).hasFailures = true ↔ k.Failed ∨ k.SubtestFailed c.id := by
  rw [Tracker.hasFailures_buildSubtest, ← failures_tracker_ne_nil_iff,
    ← get_subtestFailures_tracker_ne_nil_iff]
  cases k.tracker.failures <;> cases k.tracker.subtestFailures.get c.id <;> simp

/-- Something that is shown of a test has failed if and only if a failure was reported for the whole
test, for a listed sub-test, or for any sub-test while none is listed. -/
theorem exists_failed_shownAs_iff (hsingle : k.subject.single? = none) :
    (∃ r ∈ Junit.Suite.shownAs k.result, r.hasFailures = true)
      ↔ k.Failed ∨ ∃ id, k.SubtestFailed id ∧ (k.listed = [] ∨ id ∈ k.listed.map Subtest.id) := by
  rw [shownAs_result]
  by_cases hlisted : k.listed = []
  · -- the test itself is shown, and a failure of any sub-test is one of its own
    rw [if_pos hlisted]
    simp only [List.mem_singleton, exists_eq_left, hasFailures_result hsingle, hlisted, true_or,
      and_true]
  · rw [if_neg hlisted]
    constructor
    · rintro ⟨r, hr, hfailed⟩
      obtain ⟨c, hc, rfl⟩ := List.mem_map.1 hr
      rcases (hasFailures_buildSubtest_tracker c).1 hfailed with hwhole | hsub
      · exact .inl hwhole
      · exact .inr ⟨c.id, hsub, .inr (List.mem_map_of_mem hc)⟩
    · rintro (hwhole | ⟨id, hsub, hnil | hmem⟩)
      · -- a failure of the whole test shows in every sub-test, and there is one
        obtain ⟨c, hc⟩ := List.exists_mem_of_ne_nil _ hlisted
        exact ⟨_, List.mem_map_of_mem hc, (hasFailures_buildSubtest_tracker c).2 (.inl hwhole)⟩
      · exact absurd hnil hlisted
      · obtain ⟨c, hc, rfl⟩ := List.mem_map.1 hmem
        exact ⟨_, List.mem_map_of_mem hc, (hasFailures_buildSubtest_tracker c).2 (.inr hsub)⟩

/-- All that is shown of a test has its status. -/
theorem status_of_mem_shownAs {r : Result} (hr : r ∈ Junit.Suite.shownAs k.result) :
    r.status = k.tracker.lifecycle.state.status := by
  rw [shownAs_result] at hr
  split at hr
  · rw [List.mem_singleton.1 hr]
    rfl
  · obtain ⟨c, -, rfl⟩ := List.mem_map.1 hr
    rfl

/-- The suite of a finished test has a failing case if and only if a failure was reported for the
whole test, for a listed sub-test, or for any sub-test while none is listed. -/
theorem failing_case_iff (k : Trial) (name : String) (hsingle : k.subject.single? = none)
    (hfinished : k.tracker.lifecycle.state = .finished) :
    let suite := Junit.Suite.ofResults name [k.result]
    (0 < suite.tally.failures ↔ ∃ c ∈ suite.cases, c.verdict.isFailure = true)
      ∧ (0 < suite.tally.failures
        ↔ k.Failed ∨ ∃ id, k.SubtestFailed id
          ∧ (k.listed = [] ∨ id ∈ k.listed.map Subtest.id)) := by
  intro suite
  have hcases : suite.cases = (Junit.Suite.shownAs k.result).map Junit.Case.ofResult := by
    show (Junit.Suite.ofResults name [k.result]).cases = _
    rw [Junit.Suite.cases_ofResults, List.flatMap_singleton]
  have htally : suite.tally = .ofVerdicts (suite.cases.map Junit.Case.verdict) := by
    show (Junit.Suite.ofResults name [k.result]).tally = _
    rw [Junit.Suite.tally_ofResults, hcases, List.flatMap_singleton, List.map_map]
    rfl
  have hcount : 0 < suite.tally.failures ↔ ∃ c ∈ suite.cases, c.verdict.isFailure = true := by
    rw [htally, Junit.Tally.ofVerdicts, List.countP_map, List.countP_pos_iff]
    rfl
  refine ⟨hcount, hcount.trans ?_⟩
  rw [← exists_failed_shownAs_iff hsingle, hcases]
  -- a case fails where the result that it is made from has failed, as all of them are completed
  have hfails : ∀ r ∈ Junit.Suite.shownAs k.result,
      ((Junit.Case.ofResult r).verdict.isFailure = true ↔ r.hasFailures = true) := by
    intro r hr
    have hcompleted : r.status = .completed := by
      rw [status_of_mem_shownAs hr, hfinished]
      rfl
    show (Junit.Verdict.ofResult r).isFailure = true ↔ _
    rw [(Junit.Verdict.kinds_ofResult r).1, hcompleted, decide_eq_true rfl, Bool.true_and]
  simp only [List.mem_map, exists_exists_and_eq_and]
  exact exists_congr fun r => and_congr_right fun hr => hfails r hr

/-- A failure of a sub-test that is listed only after the test finished. -/
theorem failing_case_iff_late_sub_test :
    let k : Trial := ⟨(Subject.ofMethod "C" "m").addSubtest (.ofName "a"), .ofSuite "C", {},
      [.call (.failSubtest ⟨"b"⟩ {}) 1, .addSubtest (.ofName "b")]⟩
    k.subject.single? = none
      ∧ k.tracker.lifecycle.state = .finished
      ∧ 0 < (Junit.Suite.ofResults "s" [k.result]).tally.failures := by
  intro k
  have hstate : k.tracker.lifecycle.state = .finished := rfl
  have hfailed : k.SubtestFailed ⟨"b"⟩ := ⟨{}, by decide⟩
  exact ⟨rfl, hstate, (failing_case_iff k "s" rfl hstate).2.2
    (.inr ⟨_, hfailed, .inr (by decide)⟩)⟩

/-- A finished test of which a failure was reported, in a suite without a failing case: the failure is
that of a sub-test that is not listed, next to one that is. -/
theorem suite_without_failing_case :
    ¬ ∀ (name : String) (k : Trial), k.subject.single? = none →
      k.tracker.lifecycle.state = .finished → (k.Failed ∨ ∃ id, k.SubtestFailed id) →
      1 ≤ (Junit.Suite.ofResults name [k.result]).tally.failures := by
  intro h
  let k : Trial := ⟨(Subject.ofMethod "C" "m").addSubtest (.ofName "a"), .ofSuite "C", {},
    [.call (.failSubtest ⟨"b"⟩ (.ofMessage "boom")) 1]⟩
  have hfailures : (Junit.Suite.ofResults "s" [k.result]).tally.failures = 0 := rfl
  have hpos := h "s" k rfl rfl (.inr ⟨⟨"b"⟩, .ofMessage "boom", by decide⟩)
  rw [hfailures] at hpos
  exact absurd hpos (by decide)

end Trial

end Casebook
