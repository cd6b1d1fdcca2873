import Casebook.Proofs.Tracker.Run

/-!
# Recorded failures

The failures in a result are the failures that were reported, in the order of the reports: those of the
test as a whole in the result itself, and those of a sub-test in its child result. The state
of the test does not matter, nor when a sub-test was discovered, nor whether another sub-test has
the same id. A tracker keeps the two kinds apart, and the second kind by id; the run lemmas relate
both stores to the history of calls.
-/

namespace Casebook

namespace Tracker

variable (t : Tracker) (steps : List Step)

/-! ## What is built

The builder copies the failures as they were recorded: those of the whole test into the result, and
those of an id into every child that has the id. -/

theorem failures_build : t.build.failures = t.failures := rfl

theorem children_build : t.build.children = t.subject.subtests.map t.buildSubtest := rfl

theorem failures_buildSubtest (c : Subtest) :
    (t.buildSubtest c).failures = t.subtestFailures.get c.id := rfl

/-! ## What was reported

The run lemmas say what a tracker holds at the end of a run. It was made without failures, so what it
holds is what the calls of the run reported. -/

/-- A call reports a failure of a sub-test if and only if it is the report of one. -/
theorem subtestFailure?_eq_some_iff {id : TestId} {c : Call} {f : Failure} :
    c.subtestFailure? id = some f ↔ c = .failSubtest id f := by
  cases c with
  | failSubtest i g =>
    rw [Call.subtestFailure?]
    by_cases h : i = id
    · simp [h]
    · simp [h]
  | _ => simp [Call.subtestFailure?]

/-- In a run that began without failures, a sub-test has failed if and only if one was reported. -/
theorem mem_ids_subtestFailures_run (h : t.subtestFailures = ∅) {id : TestId} :
    id ∈ (t.run steps).1.subtestFailures.ids ↔ ∃ f, Call.failSubtest id f ∈ Step.calls steps := by
  have hget := t.get_subtestFailures_run steps id
  rw [h, FailureMap.get_empty, List.nil_append] at hget
  have hmem (f : Failure) : f ∈ (t.run steps).1.subtestFailures.get id
      ↔ Call.failSubtest id f ∈ Step.calls steps := by
    rw [hget, List.mem_filterMap]
    simp only [subtestFailure?_eq_some_iff, exists_eq_right]
  constructor
  · -- an id is only kept with at least one failure, and that one was reported
    intro hid
    have hne : (t.run steps).1.subtestFailures.get id ≠ [] :=
      fun hnil => FailureMap.get_eq_nil_iff.1 hnil hid
    obtain ⟨f, hf⟩ := List.exists_mem_of_ne_nil _ hne
    exact ⟨f, (hmem f).1 hf⟩
  · rintro ⟨f, hf⟩
    refine Decidable.byContradiction fun hid => ?_
    have hf' := (hmem f).2 hf
    rw [FailureMap.get_eq_nil_iff.2 hid] at hf'
    exact absurd hf' List.not_mem_nil

/-- The result of a run holds exactly the failures that were reported, in the order of the reports and
each where it belongs: the failures of the whole test in the result, and those of an id in the child of
every sub-test with that id, whenever it was listed. -/
theorem failures_build_run (subject parent : Subject) (settings : Settings) :
    let r := ((new subject parent settings).run steps).1.build
    r.failures = (Step.calls steps).filterMap Call.failure?
      ∧ r.children.map (fun c => (c.name, c.failures))
        = (subject.subtests ++ Step.discovered steps).map fun c =>
          (c.name, (Step.calls steps).filterMap (Call.subtestFailure? c.id)) := by
  intro r
  constructor
  · show ((new subject parent settings).run steps).1.build.failures = _
    rw [failures_build, failures_run]
    exact List.nil_append _
  · -- the children are built from what is listed at the end, each with the failures of its id
    show ((new subject parent settings).run steps).1.build.children.map _ = _
    rw [children_build, List.map_map, subject_run]
    refine List.map_congr_left fun c _ => ?_
    rw [Function.comp_apply, failures_buildSubtest, get_subtestFailures_run]
    rfl

end Tracker

end Casebook
