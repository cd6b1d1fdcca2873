import Casebook.Proofs.Junit.Tally
import Casebook.Proofs.Tracker.Failures

/-!
# Counts of tests and failures

A result counts its tests and failures by itself, each of its children counts its own, and a suite
counts the verdicts on what it shows. The three agree for a test that is *accounted for*: the subject
leaves it to its sub-tests how many tests it stands for, no id is listed twice, and no failure was
reported for an id that is not listed.

Under these conditions the ids that the tracker holds failures of are, up to order, the ids of the
listed sub-tests with failures (`countP_failed_eq_size`), so counting ids is counting
children.
-/

namespace Casebook

/-! ## The count of one tracker

A tracker counts in two ways. Without a failure of the whole test it counts the ids for which failures
were reported, listed or not; with one it counts every unit that the subject stands for. Its children
count one by one. That the two come to the same is the content of this section, for trackers that are
accounted for. -/

namespace Tracker

/-- A tracker whose failures of sub-tests all belong to listed sub-tests, each listed once. -/
structure Accounted (t : Tracker) : Prop where
  /-- The subject counts as its sub-tests. -/
  single : t.subject.single? = none
  nodup : (t.subject.subtests.map Subtest.id).Nodup
  /-- Every id with a failure is listed. -/
  listed : ∀ id ∈ t.subtestFailures.ids, id ∈ t.subject.subtests.map Subtest.id

/-! A child counts as one test, and as one failure if it has failed, so the sums over the children are
their number and the number of those with failures. -/

theorem sum_numTests_children (t : Tracker) :
    (t.build.children.map Result.numTests).sum = t.build.children.length := by
  rw [children_build]
  induction t.subject.subtests with
  | nil => rfl
  | cons c cs ih =>
    rw [List.map_cons, List.map_cons, List.sum_cons, ih, List.length_cons, Nat.add_comm]
    rfl

theorem hasFailures_buildSubtest (t : Tracker) (c : Subtest) :
    (t.buildSubtest c).hasFailures
      = !(t.failures.isEmpty && (t.subtestFailures.get c.id).isEmpty) := by
  rw [Result.hasFailures, buildSubtest]
  cases t.failures.isEmpty && (t.subtestFailures.get c.id).isEmpty <;> rfl

theorem numFailures_buildSubtest (t : Tracker) (c : Subtest) :
    (t.buildSubtest c).numFailures = if (t.buildSubtest c).hasFailures then 1 else 0 := by
  rw [hasFailures_buildSubtest, buildSubtest]
  cases t.failures.isEmpty && (t.subtestFailures.get c.id).isEmpty <;> rfl

theorem sum_numFailures_children (t : Tracker) :
    (t.build.children.map Result.numFailures).sum
      = t.build.children.countP Result.hasFailures := by
  rw [children_build]
  induction t.subject.subtests with
  | nil => rfl
  | cons c cs ih =>
    rw [List.map_cons, List.map_cons, List.sum_cons, ih, List.countP_cons,
      numFailures_buildSubtest, Nat.add_comm]

namespace Accounted

variable {t : Tracker}

/-- The listed sub-tests with failures are as many as the ids with failures: both are the same set of
ids, without repeats. -/
theorem countP_failed_eq_size (h : t.Accounted) :
    t.subject.subtests.countP (fun c => !(t.subtestFailures.get c.id).isEmpty)
      = t.subtestFailures.size := by
  have hfailed (id : TestId) :
      (!(t.subtestFailures.get id).isEmpty) = true ↔ id ∈ t.subtestFailures.ids := by
    rw [Bool.not_eq_true', List.isEmpty_eq_false_iff, Ne, FailureMap.get_eq_nil_iff,
      Decidable.not_not]
  have hperm : ((t.subject.subtests.map Subtest.id).filter
      fun id => !(t.subtestFailures.get id).isEmpty).Perm t.subtestFailures.ids := by
    -- neither list repeats an id, so it is enough that they have the same members
    refine (List.perm_ext_iff_of_nodup (h.nodup.filter _) t.subtestFailures.nodup_ids).2 fun id => ?_
    rw [List.mem_filter, hfailed]
    exact ⟨And.right, fun hid => ⟨h.listed id hid, hid⟩⟩
  rw [← FailureMap.length_ids, ← hperm.length_eq, ← List.countP_eq_length_filter, List.countP_map]
  rfl

theorem units_of_nil (h : t.Accounted) (hs : t.subject.subtests = []) : t.subject.units = 1 := by
  rw [Subject.units, Subject.isSingle, h.single, hs]
  rfl

theorem units_of_ne_nil (h : t.Accounted) (hs : t.subject.subtests ≠ []) :
    t.subject.units = t.subject.subtests.length := by
  rw [Subject.units, Subject.isSingle, h.single, Option.getD_none, List.isEmpty_eq_false_iff.2 hs]
  rfl

/-- The failed tests of a tracker with sub-tests are its children with failures. -/
theorem countP_hasFailures (h : t.Accounted) (hne : t.subject.subtests ≠ []) :
    t.build.children.countP Result.hasFailures = t.numFailures := by
  show (t.subject.subtests.map t.buildSubtest).countP _ = _
  rw [List.countP_map, numFailures]
  cases hf : t.failures.isEmpty with
  | true =>
    rw [if_pos rfl, ← h.countP_failed_eq_size]
    exact List.countP_congr fun c _ => by simp [hasFailures_buildSubtest, hf]
  | false =>
    -- a failure of the whole test fails every child
    have hall : ∀ c ∈ t.subject.subtests, (Result.hasFailures ∘ t.buildSubtest) c = true :=
      fun c _ => by simp [hasFailures_buildSubtest, hf]
    rw [List.countP_eq_length.2 hall, h.units_of_ne_nil hne]
    rfl

theorem size_le_length (h : t.Accounted) :
    t.subtestFailures.size ≤ t.subject.subtests.length := by
  rw [← h.countP_failed_eq_size]
  exact List.countP_le_length

/-- The result of a tracker that is accounted for is balanced: what a suite shows of it counts as it does
itself. A test without sub-tests is shown as itself, and one with sub-tests is shown as these. -/
theorem balanced (h : t.Accounted) : Junit.Balanced t.build := by
  by_cases hs : t.subject.subtests = []
  · have hshown : Junit.Suite.shownAs t.build = [t.build] := by
      rw [Junit.Suite.shownAs, children_build, hs]
      rfl
    -- with no sub-test there is one unit, and no id that could have failed
    have hunits := h.units_of_nil hs
    have hsize : t.subtestFailures.size = 0 := by
      have := h.size_le_length
      rw [hs] at this
      exact Nat.le_zero.1 this
    have hcount : t.numFailures = 0 ∨ t.numFailures = 1 := by
      rw [numFailures, hunits, hsize]
      split
      · exact .inl rfl
      · exact .inr rfl
    refine ⟨?_, ?_, ?_⟩
    · intro c hc
      rw [hshown, List.mem_singleton] at hc
      rw [hc]
    · rw [hshown]
      exact hunits.symm
    · rw [hshown, List.countP_singleton, Result.hasFailures]
      show (if decide (0 < t.numFailures) = true then 1 else 0) = t.numFailures
      rcases hcount with h0 | h1
      · rw [h0]; rfl
      · rw [h1]; rfl
  · have hshown : Junit.Suite.shownAs t.build = t.build.children := by
      rw [Junit.Suite.shownAs, if_neg]
      simpa [children_build] using hs
    refine ⟨?_, ?_, ?_⟩
    · intro c hc
      rw [hshown, children_build] at hc
      obtain ⟨s, -, rfl⟩ := List.mem_map.1 hc
      rfl
    · rw [hshown, children_build, List.length_map]
      show _ = t.subject.units
      exact (h.units_of_ne_nil hs).symm
    · rw [hshown]
      exact h.countP_hasFailures hs

end Accounted

end Tracker

/-! ## The counts after runs

The conditions are put in terms of what was asked of a tracker, and not of what it holds: which subject
it was made for, and which failures were reported in the run. The lemmas on runs carry them over. -/

/-- A tracker that was made and then driven through a list of steps. -/
structure Trial where
  subject : Subject
  parent : Subject
  settings : Settings
  steps : List Step

namespace Trial

variable (k : Trial)

def tracker : Tracker := ((Tracker.new k.subject k.parent k.settings).run k.steps).1

def result : Result := k.tracker.build

/-- The sub-tests that are listed after the steps. -/
def listed : List Subtest := k.subject.subtests ++ Step.discovered k.steps

/-- A trial in which every failure of a sub-test was reported for one that is listed, by an id that no
other has. -/
structure Accounted : Prop where
  /-- The subject counts as its sub-tests. -/
  single : k.subject.single? = none
  nodup : (k.listed.map Subtest.id).Nodup
  /-- Every id that a failure was reported for is listed. -/
  listed : ∀ id f, Call.failSubtest id f ∈ Step.calls k.steps → id ∈ k.listed.map Subtest.id

variable {k}

theorem subject_tracker : k.tracker.subject = { k.subject with subtests := k.listed } :=
  Tracker.subject_run _ _

theorem Accounted.tracker (h : k.Accounted) : k.tracker.Accounted := by
  refine ⟨?_, ?_, fun id hid => ?_⟩
  · rw [subject_tracker]
    exact h.single
  · rw [subject_tracker]
    exact h.nodup
  · rw [subject_tracker]
    obtain ⟨f, hf⟩ := (Tracker.mem_ids_subtestFailures_run _ k.steps rfl).1 hid
    exact h.listed id f hf

/-- Results, children and suite count alike. A result with children counts as many tests and as many
failures as they do together, and no more failures than tests. A suite counts the tests of all results,
the failures of the completed ones, and all tests of those that were interrupted or did not run. -/
theorem counts_agree (name : String) (trials : List Trial) (h : ∀ k ∈ trials, k.Accounted) :
    (∀ k ∈ trials, k.result.children ≠ [] →
      k.result.numTests = (k.result.children.map Result.numTests).sum
        ∧ k.result.numFailures = (k.result.children.map Result.numFailures).sum
        ∧ k.result.numFailures ≤ k.result.numTests)
      ∧ (Junit.Suite.ofResults name (trials.map result)).tally =
        { tests := ((trials.map result).map Result.numTests).sum
          failures := (((trials.map result).filter fun r => r.status = .completed).map
            Result.numFailures).sum
          errors := (((trials.map result).filter fun r => r.status = .interrupted).map
            Result.numTests).sum
          disabled := (((trials.map result).filter fun r =>
            r.status ∈ [.skipped, .suppressed, .cancelled]).map Result.numTests).sum } := by
  have hbalanced : ∀ k ∈ trials, Junit.Balanced k.result := fun k hk => (h k hk).tracker.balanced
  refine ⟨fun k hk hne => ?_, Junit.tally_of_balanced name (List.forall_mem_map.2 hbalanced)⟩
  -- the children are what is shown, so the balance of the result is about them
  have hshown : Junit.Suite.shownAs k.result = k.result.children :=
    if_neg (by simpa using hne)
  obtain ⟨-, hlength, hfailed⟩ := hbalanced k hk
  rw [hshown] at hlength hfailed
  refine ⟨?_, ?_, (hbalanced k hk).numFailures_le⟩
  · rw [← hlength]
    exact (Tracker.sum_numTests_children k.tracker).symm
  · rw [← hfailed]
    exact (Tracker.sum_numFailures_children k.tracker).symm

/-- A test with two sub-tests, of which one fails before it is listed, and a test that is interrupted
while it runs. -/
theorem counts_agree_late_sub_test :
    let trials : List Trial :=
      [⟨(Subject.ofMethod "C" "m").addSubtest (.ofName "a"), .ofSuite "C", {},
          [.call .start 1, .call (.failSubtest ⟨"b"⟩ {}) 2, .addSubtest (.ofName "b"),
            .call .finish 3]⟩,
        ⟨.ofMethod "C" "n", .ofSuite "C", {}, [.call .start 1, .notice .interrupted 2]⟩]
    (∀ k ∈ trials, k.Accounted)
      ∧ (Junit.Suite.ofResults "s" (trials.map result)).tally
        = { tests := 3, failures := 1, errors := 1, disabled := 0 } := by
  intro trials
  have h : ∀ k ∈ trials, k.Accounted := by
    refine List.forall_mem_cons.2 ⟨?_, List.forall_mem_singleton.2 ?_⟩
    · exact ⟨rfl, by decide, fun id f hf => by
        simp [Step.calls, Step.call?] at hf
        simp [listed, Step.discovered, Step.discovered?, Subject.addSubtest, Subject.ofMethod,
          Subtest.ofName, hf]⟩
    · exact ⟨rfl, by decide, fun id f hf => by
        simp [Step.calls, Step.call?] at hf⟩
  exact ⟨h, (counts_agree "s" trials h).2⟩

end Trial

end Casebook
