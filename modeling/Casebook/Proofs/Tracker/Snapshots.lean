import Casebook.Proofs.Tracker.Counts
import Casebook.Proofs.Tracker.Growth

/-!
# Two results of one run

A result may be asked for at any point of a run, and again later on. The tracker at the later point
extends the tracker at the earlier one (`Tracker.extends_take`), and `Tracker.build` turns this into a
relation between the two results:

* `Tracker.results_extend`: the later result has all that the earlier one has, child by child; once the
  test has come to its end, status and interval are fixed, also for sub-tests that are
  discovered afterwards.
* `Tracker.numFailures_drop_iff`: the count of failed units is the exception. A first failure of the
  whole test turns the count of failed ids into the count of units, which may be smaller
  (`Tracker.fewer_failures_later`); nothing else ever lowers the count.
-/

namespace Casebook

/-! ## Results in sequence

`Result.Extends` is growth as a reader of results sees it. It leaves status and counts out: the status
moves on with the lifecycle, and the count of failed units may fall, which is looked at on its own below. -/

/-- A result that another one follows. Lists grow at their end, so what stood somewhere in the earlier
result stands there in the later one; names of properties stay, their values may be replaced. -/
structure Result.Extends (r r' : Result) : Prop where
  name : r'.name = r.name
  className : r'.className = r.className
  failures : r.failures <+: r'.failures
  length_children : r.children.length ≤ r'.children.length
  /-- A child keeps its place and its names, and a failed one has failed for good. -/
  children : ∀ (i : Nat) (c : Result), r.children[i]? = some c →
    ∃ c' : Result, r'.children[i]? = some c' ∧ c'.name = c.name ∧ c'.className = c.className
      ∧ c.failures <+: c'.failures ∧ (c.hasFailures = true → c'.hasFailures = true)
  names : ∀ name ∈ r.properties.names, name ∈ r'.properties.names
  interval : ∀ i, r.interval? = some i →
    ∃ i', r'.interval? = some i' ∧ i'.start = i.start ∧ i.stop ≤ i'.stop

theorem Subject.units_eq_zero_iff (s : Subject) :
    s.units = 0 ↔ s.single? = some false ∧ s.subtests = [] := by
  rw [units, isSingle]
  cases s.single? with
  | none => cases s.subtests <;> simp
  | some single => cases single <;> simp

namespace Tracker

variable {t t' : Tracker}

/-! ## What the builder makes of growth

A result has no more in it than the tracker that it was built from. So each field of `Result.Extends`
comes from the field of `Tracker.Extends` for the same matter; for the children, this goes through the
sub-test at the same place. -/

namespace Extends

theorem name_subject (h : t.Extends t') : t'.subject.name = t.subject.name := by
  obtain ⟨more, hmore⟩ := h.subject
  rw [hmore]

/-- A sub-test that counts as failed goes on to do so. -/
theorem hasFailures_buildSubtest (h : t.Extends t') (c : Subtest)
    (hc : (t.buildSubtest c).hasFailures = true) : (t'.buildSubtest c).hasFailures = true := by
  rw [Tracker.hasFailures_buildSubtest, Bool.not_eq_true', Bool.and_eq_false_iff,
    List.isEmpty_eq_false_iff, List.isEmpty_eq_false_iff] at hc ⊢
  rcases hc with hwhole | hsub
  · exact .inl (h.failures.ne_nil hwhole)
  · exact .inr ((h.subtestFailures c.id).ne_nil hsub)

theorem build (h : t.Extends t') : t.build.Extends t'.build := by
  obtain ⟨more, hmore⟩ := h.subject
  have hsubtests : t'.subject.subtests = t.subject.subtests ++ more := by rw [hmore]
  refine ⟨?_, ?_, h.failures, ?_, fun i c hc => ?_, h.names, h.lifecycle.interval⟩
  · show t'.subject.method?.getD t'.subject.className = _
    rw [hmore]
    rfl
  · show (if t'.subject.method?.isSome then t'.subject.className else t'.parent) = _
    rw [hmore, h.parent]
    rfl
  · rw [children_build, children_build, List.length_map, List.length_map, hsubtests,
      List.length_append]
    exact Nat.le_add_right _ _
  · -- the child is built from the sub-test at its place, which is still there
    rw [children_build, List.getElem?_map] at hc
    obtain ⟨s, hs, rfl⟩ := Option.map_eq_some_iff.1 hc
    have hs' : t'.subject.subtests[i]? = some s := by
      rw [hsubtests]
      exact List.getElem?_append_left (List.getElem?_eq_some_iff.1 hs).1 ▸ hs
    refine ⟨t'.buildSubtest s, ?_, rfl, h.name_subject, h.subtestFailures s.id,
      h.hasFailures_buildSubtest s⟩
    rw [children_build, List.getElem?_map, hs']
    rfl

end Extends

theorem numFailures_of_nil (h : t.failures = []) : t.numFailures = t.subtestFailures.size := by
  rw [numFailures, h]
  rfl

theorem numFailures_of_ne_nil (h : t.failures ≠ []) : t.numFailures = t.subject.units := by
  rw [numFailures, if_neg (mt List.isEmpty_iff.1 h)]

/-- Only a first failure of the whole test lowers the count, and only to the number of units. As long as
nothing of the kind happens, both counts are of the same thing, and that thing only grows. -/
theorem Extends.numFailures_lt_iff (h : t.Extends t') :
    t'.numFailures < t.numFailures
      ↔ t.failures = [] ∧ t'.failures ≠ [] ∧ t'.subject.units < t.numFailures := by
  by_cases hf : t.failures = []
  · by_cases hf' : t'.failures = []
    · -- both count failed ids
      have hle : t.numFailures ≤ t'.numFailures := by
        rw [numFailures_of_nil hf, numFailures_of_nil hf']
        exact h.size_le
      exact iff_of_false (Nat.not_lt.2 hle) fun hdrop => hdrop.2.1 hf'
    · rw [numFailures_of_ne_nil hf']
      exact ⟨fun hlt => ⟨hf, hf', hlt⟩, fun hdrop => hdrop.2.2⟩
  · -- both count units
    have hle : t.numFailures ≤ t'.numFailures := by
      rw [numFailures_of_ne_nil hf, numFailures_of_ne_nil (h.failures.ne_nil hf)]
      exact h.units_le
    exact iff_of_false (Nat.not_lt.2 hle) fun hdrop => hf hdrop.1

/-! ## Results in a run

A result is asked for by a step of its own, and it is that of the tracker after the steps before. Two such
steps of one run give two trackers of which the later extends the earlier. -/

theorem reply_build {steps : List Step} {i : Nat} (h : steps[i]? = some .build) :
    (t.run steps).2[i]? = some
      { answer := .result (t.run (steps.take i)).1.build
        events := [(t.run (steps.take i)).1.builtEvent]
        lifecycle := (t.run (steps.take i)).1.lifecycle } := by
  rw [getElem?_replies_run, h]
  rfl

section

variable (subject parent : Subject) (settings : Settings) (steps : List Step) {i j : Nat}

/-- A later result of a run has all that an earlier one has: the names, the failures and the children at
the front, with their failures at the front, the names of the properties, and the start of the
interval. If the test had come to its end, status and interval are those of the earlier result, in
the result itself and in all of its children. -/
theorem results_extend (hij : i ≤ j) (hi : steps[i]? = some .build)
    (hj : steps[j]? = some .build) :
    let run := (new subject parent settings).run steps
    ∃ (p q : Reply) (r r' : Result),
      run.2[i]? = some p ∧ p.answer = .result r ∧ run.2[j]? = some q ∧ q.answer = .result r'
        ∧ r.Extends r'
        ∧ (p.lifecycle.state.isTerminal = true →
          r'.status = r.status ∧ r'.interval? = r.interval?
            ∧ ∀ c ∈ r'.children, c.status = r.status ∧ c.interval? = r.interval?) := by
  intro run
  have hext := (new subject parent settings).extends_take steps hij
  refine ⟨_, _, _, _, reply_build hi, rfl, reply_build hj, rfl, hext.build, fun hend => ?_⟩
  have hl := hext.lifecycle.final hend
  refine ⟨congrArg (·.state.status) hl, congrArg (·.interval?) hl, fun c hc => ?_⟩
  -- a child has the status and the interval of the test, whenever it was discovered
  obtain ⟨s, -, rfl⟩ := List.mem_map.1 hc
  exact ⟨congrArg (·.state.status) hl, congrArg (·.interval?) hl⟩

/-- A test whose second sub-test fails and is listed only after the test has finished. Both sub-tests are
shown with the interval that the test had when it finished. -/
theorem results_extend_after_the_end :
    let steps : List Step := [.call .start 5, .call (.failSubtest ⟨"a"⟩ {}) 6, .call .finish 9, .build,
      .call (.failSubtest ⟨"b"⟩ {}) 20, .addSubtest (.ofName "b"), .notice .interrupted 30, .build]
    let run := (new ((Subject.ofMethod "C" "m").addSubtest (.ofName "a")) (.ofSuite "C") {}).run steps
    steps[3]? = some .build ∧ steps[7]? = some .build
      ∧ ∃ (p q : Reply) (r r' : Result),
        run.2[3]? = some p ∧ p.answer = .result r ∧ run.2[7]? = some q ∧ q.answer = .result r'
          ∧ p.lifecycle.state.isTerminal = true ∧ r.Extends r'
          ∧ r'.interval? = some ⟨5, 9, by decide⟩
          ∧ r'.children.length = 2 ∧ ∀ c ∈ r'.children, c.interval? = some ⟨5, 9, by decide⟩ := by
  intro steps run
  obtain ⟨p, q, r, r', hp, hr, hq, hr', hext, hfinal⟩ :=
    results_extend ((Subject.ofMethod "C" "m").addSubtest (.ofName "a")) (.ofSuite "C") {} steps
      (show 3 ≤ 7 by decide) rfl rfl
  obtain rfl := Option.some.inj hp
  obtain rfl := Answer.result.inj hr
  obtain rfl := Option.some.inj hq
  obtain rfl := Answer.result.inj hr'
  obtain ⟨-, hinterval, hchildren⟩ := hfinal rfl
  exact ⟨rfl, rfl, _, _, _, _, rfl, rfl, rfl, rfl, rfl, hext, hinterval, rfl,
    fun c hc => (hchildren c hc).2⟩

/-- A later result of a run counts fewer failed units than an earlier one if and only if the test as a
whole first failed in between and stands for fewer units than had failed; it then counts all its
units. So a result with failed units is followed by one without exactly if the test as a whole first
failed in between and stands for no unit, as a subject does that has no sub-tests and denies that it
is a single test. -/
theorem numFailures_drop_iff (hij : i ≤ j) (hi : steps[i]? = some .build)
    (hj : steps[j]? = some .build) :
    let run := (new subject parent settings).run steps
    ∃ (p q : Reply) (r r' : Result),
      run.2[i]? = some p ∧ p.answer = .result r ∧ run.2[j]? = some q ∧ q.answer = .result r'
        ∧ (r'.numFailures < r.numFailures
          ↔ r.failures = [] ∧ r'.failures ≠ [] ∧ r'.numTests < r.numFailures)
        ∧ (r'.numFailures < r.numFailures → r'.numFailures = r'.numTests)
        ∧ (r.hasFailures = true →
          (r'.hasFailures = false ↔ r.failures = [] ∧ r'.failures ≠ [] ∧ r'.numTests = 0))
        ∧ (r'.numTests = 0 ↔ subject.single? = some false ∧ r'.children = []) := by
  intro run
  -- the two trackers get names, so that the runs that lead to them stay out of the goals
  obtain ⟨u, hu⟩ : ∃ u, u = ((new subject parent settings).run (steps.take i)).1 := ⟨_, rfl⟩
  obtain ⟨v, hv⟩ : ∃ v, v = ((new subject parent settings).run (steps.take j)).1 := ⟨_, rfl⟩
  have hext : u.Extends v := by
    rw [hu, hv]
    exact extends_take _ _ hij
  have hlt := hext.numFailures_lt_iff
  have hall : v.numFailures < u.numFailures → v.numFailures = v.subject.units :=
    fun h => numFailures_of_ne_nil (hlt.1 h).2.1
  have hsubject : v.subject.single? = subject.single? := by
    rw [hv, subject_run]
    rfl
  refine ⟨_, _, u.build, v.build, reply_build hi, by rw [hu], reply_build hj, by rw [hv], hlt, hall,
    fun hfailed => ?_, ?_⟩
  · have hpos : 0 < u.numFailures := of_decide_eq_true hfailed
    have hnone : v.build.hasFailures = false ↔ v.numFailures = 0 := by
      rw [Result.hasFailures, decide_eq_false_iff_not, Nat.not_lt, Nat.le_zero]
      rfl
    rw [hnone]
    constructor
    · -- from some failed units to none is a drop
      intro hzero
      have hdrop : v.numFailures < u.numFailures := by omega
      exact ⟨(hlt.1 hdrop).1, (hlt.1 hdrop).2.1, (hall hdrop).symm.trans hzero⟩
    · rintro ⟨hf, hf', hunits⟩
      exact (numFailures_of_ne_nil hf').trans hunits
  · show v.subject.units = 0 ↔ _
    rw [Subject.units_eq_zero_iff, hsubject, children_build, List.map_eq_nil_iff]

/-- Two sub-tests fail, and then the test as a whole, which is one unit. -/
theorem numFailures_drop_iff_second_sub_test :
    let steps : List Step := [.call (.failSubtest ⟨"a"⟩ {}) 1, .call (.failSubtest ⟨"b"⟩ {}) 2, .build,
      .call (.fail {}) 3, .build]
    let run := (new (.ofMethod "C" "m") (.ofSuite "C") {}).run steps
    steps[2]? = some .build ∧ steps[4]? = some .build
      ∧ ∃ (p q : Reply) (r r' : Result),
        run.2[2]? = some p ∧ p.answer = .result r ∧ run.2[4]? = some q ∧ q.answer = .result r'
          ∧ r.numFailures = 2 ∧ r'.numFailures < 2 ∧ r'.numFailures = r'.numTests := by
  intro steps run
  obtain ⟨p, q, r, r', hp, hr, hq, hr', hlt, hall, -⟩ :=
    numFailures_drop_iff (.ofMethod "C" "m") (.ofSuite "C") {} steps (show 2 ≤ 4 by decide) rfl rfl
  obtain rfl := Option.some.inj hp
  obtain rfl := Answer.result.inj hr
  obtain rfl := Option.some.inj hq
  obtain rfl := Answer.result.inj hr'
  have hdrop := hlt.2 ⟨rfl, by decide, by decide⟩
  exact ⟨rfl, rfl, _, _, _, _, rfl, rfl, rfl, rfl, rfl, hdrop, hall hdrop⟩

end

/-- A later result may count fewer failed units, and may be without any after one that had some: a
failure of the whole test counts its units, of which there may be fewer than failed sub-tests. -/
theorem fewer_failures_later :
    (¬ ∀ (subject parent : Subject) (settings : Settings) (steps : List Step) (i j : Nat)
        (r r' : Result), i ≤ j →
      ((new subject parent settings).run steps).2[i]?.map Reply.answer = some (.result r) →
      ((new subject parent settings).run steps).2[j]?.map Reply.answer = some (.result r') →
      r.numFailures ≤ r'.numFailures)
    ∧ ¬ ∀ (subject parent : Subject) (settings : Settings) (steps : List Step) (i j : Nat)
        (r r' : Result), i ≤ j →
      ((new subject parent settings).run steps).2[i]?.map Reply.answer = some (.result r) →
      ((new subject parent settings).run steps).2[j]?.map Reply.answer = some (.result r') →
      r.hasFailures = true → r'.hasFailures = true := by
  constructor
  · intro h
    have hle := h (.ofMethod "C" "m") (.ofSuite "C") {}
      [.call (.failSubtest ⟨"a"⟩ {}) 1, .call (.failSubtest ⟨"b"⟩ {}) 2, .build, .call (.fail {}) 3,
        .build] 2 4 _ _ (by decide) rfl rfl
    exact absurd hle (by decide)
  · intro h
    -- no method, no sub-tests, and not a single test either: the subject stands for no unit
    have himp := h { id := ⟨"t"⟩, method? := none, className := "C", name := "t", single? := some false }
      (.ofSuite "C") {}
      [.call (.failSubtest ⟨"a"⟩ {}) 1, .build, .call (.fail {}) 2, .build] 1 3 _ _ (by decide) rfl rfl
    exact absurd (himp rfl) (by decide)

end Tracker

end Casebook
