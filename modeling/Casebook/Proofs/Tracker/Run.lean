import Casebook.Tracker.Step

/-!
# Runs of a tracker

What a run leaves behind, field by field, in terms of the steps that were taken. Every step is a call,
an export, a discovery or a question, and each of these touches its own fields only: the lemmas on
`Tracker.after` say what one step does to a field, and the lemmas on `Tracker.run` say it for a list
of steps, by induction on the list.

A step that gives a notice is counted as the call that the notice amounts to (`Step.call?`), so a
history of calls (`Step.calls`) does not tell the two apart.
-/

namespace Casebook

/-! ## Histories

A history is what the caller of a tracker knows of a run: which calls were made, which failures they
reported, and which sub-tests were discovered. Nothing here looks at what a tracker makes of a step, so a
theorem that is stated in terms of histories says something about the tracker. -/

/-- The failure of the whole test that a call reports. -/
def Call.failure? : Call → Option Failure
  | .fail f => some f
  | _ => none

/-- The failure of a sub-test that a call reports. -/
def Call.subtestFailure? (id : TestId) : Call → Option Failure
  | .failSubtest i f => if i = id then some f else none
  | _ => none

namespace Step

/-- The call that a step makes, itself or as a notice, and when it makes it. Every notice is listed with
the call that it stands for, so that a history says what happened to the test and not what a tracker
takes a notice for; that the two agree is `Step.call?_notice`. -/
def call? : Step → Option (Call × Millis)
  | .call c now => some (c, now)
  | .notice .interrupted now => some (.interrupt, now)
  | .notice .skipped now => some (.skip, now)
  | .notice .suppressed now => some (.suppress, now)
  | .notice (.failed f) now => some (.fail f, now)
  | .notice (.subtestFailed id f) now => some (.failSubtest id f, now)
  | _ => none

/-- The sub-test that a step discovers. -/
def discovered? : Step → Option Subtest
  | .addSubtest c => some c
  | _ => none

/-- The calls that are made in a list of steps, in their order. -/
def calls (steps : List Step) : List Call := steps.filterMap fun s => s.call?.map Prod.fst

/-- The sub-tests that are discovered in a list of steps, in their order. -/
def discovered (steps : List Step) : List Subtest := steps.filterMap discovered?

/-- A tracker takes a notice for the call that it stands for. -/
theorem call?_notice (n : Notice) (now : Millis) : call? (.notice n now) = some (n.call, now) := by
  cases n <;> rfl

/-- A step that makes a call is that call, or a notice that stands for it. -/
theorem eq_of_call? {s : Step} {c : Call} {now : Millis} (h : s.call? = some (c, now)) :
    s = .call c now ∨ ∃ n : Notice, s = .notice n now ∧ n.call = c := by
  cases s with
  | call c' now' =>
    obtain ⟨rfl, rfl⟩ := Prod.mk.inj (Option.some.inj h)
    exact .inl rfl
  | notice n now' =>
    rw [call?_notice] at h
    obtain ⟨rfl, rfl⟩ := Prod.mk.inj (Option.some.inj h)
    exact .inr ⟨n, rfl, rfl⟩
  | _ => exact nomatch h

theorem calls_cons (s : Step) (steps : List Step) :
    calls (s :: steps) = (s.call?.map Prod.fst).toList ++ calls steps := by
  rw [calls, List.filterMap_cons]
  cases s.call? with
  | none => rfl
  | some c => rfl

theorem discovered_cons (s : Step) (steps : List Step) :
    discovered (s :: steps) = s.discovered?.toList ++ discovered steps := by
  rw [discovered, List.filterMap_cons]
  cases s.discovered? with
  | none => rfl
  | some c => rfl

end Step

namespace Tracker

variable (t : Tracker) (s : Step) (steps : List Step)

/-! ## Runs

A run takes its steps one after the other. It can be taken apart at its front, which is what inductions
on the steps do, or at any other place; a reply depends on the steps before it and on its own step alone. -/

theorem run_nil : t.run [] = (t, []) := rfl

theorem run_cons :
    t.run (s :: steps) = (((t.after s).run steps).1, (t.step s).2 :: ((t.after s).run steps).2) := rfl

theorem run_append (more : List Step) :
    (t.run (steps ++ more)).1 = ((t.run steps).1.run more).1 := by
  induction steps generalizing t with
  | nil => rfl
  | cons s steps ih =>
    rw [List.cons_append, run_cons, run_cons]
    exact ih (t.after s)

/-- The reply to a step of a run is the reply of the tracker that the steps before it have made. So what
is true of any tracker and one step is true at every place of a run. -/
theorem getElem?_replies_run (i : Nat) :
    (t.run steps).2[i]? = steps[i]?.map fun s => ((t.run (steps.take i)).1.step s).2 := by
  induction steps generalizing t i with
  | nil => rfl
  | cons s steps ih =>
    -- the first reply is the one of this tracker, and the others are those of the rest of the run
    cases i with
    | zero => rfl
    | succ i => exact ih (t.after s) i

/-! ## What a step does

A step that makes a call is that call (`after_of_call?`), whether it was made directly or as a notice,
and a step that makes none leaves alone what calls change (`after_of_call?_eq_none`). So the lemmas on
the lifecycle and on the failures ask what a call does and nothing else. -/

theorem after_of_call? {t : Tracker} {s : Step} {c : Call} {now : Millis}
    (h : s.call? = some (c, now)) : t.after s = t.call c now := by
  rcases Step.eq_of_call? h with rfl | ⟨n, rfl, rfl⟩
  · rfl
  · rfl

theorem after_of_call?_eq_none {t : Tracker} {s : Step} (h : s.call? = none) :
    (t.after s).lifecycle = t.lifecycle ∧ (t.after s).failures = t.failures
      ∧ (t.after s).subtestFailures = t.subtestFailures := by
  cases s with
  | call c now => exact nomatch h
  | notice n now =>
    rw [Step.call?_notice] at h
    exact nomatch h
  | _ => exact ⟨rfl, rfl, rfl⟩

theorem lifecycle_call (c : Call) (now : Millis) :
    (t.call c now).lifecycle = (t.lifecycle.signal c.signal now).lifecycle := by
  cases c <;> rfl

/-- A step that makes no call leaves the lifecycle alone. -/
theorem lifecycle_after :
    (t.after s).lifecycle = match s.call? with
      | some (c, now) => (t.lifecycle.signal c.signal now).lifecycle
      | none => t.lifecycle := by
  cases hs : s.call? with
  | none => exact (after_of_call?_eq_none hs).1
  | some p => rw [after_of_call? hs, lifecycle_call]

theorem failures_call (c : Call) (now : Millis) :
    (t.call c now).failures = t.failures ++ c.failure?.toList := by
  cases c with
  | fail f => rfl
  | _ => exact (List.append_nil _).symm

theorem failures_after :
    (t.after s).failures = t.failures ++ ((s.call?.map Prod.fst).bind Call.failure?).toList := by
  cases hs : s.call? with
  | none => exact (after_of_call?_eq_none hs).2.1.trans (List.append_nil _).symm
  | some p =>
    rw [after_of_call? hs, failures_call]
    rfl

theorem get_subtestFailures_call (c : Call) (now : Millis) (id : TestId) :
    (t.call c now).subtestFailures.get id
      = t.subtestFailures.get id ++ (c.subtestFailure? id).toList := by
  cases c with
  | failSubtest i f =>
    -- the failure is recorded under its own id, and the lists of other ids stay
    show (t.subtestFailures.record i f).get id = _
    rw [FailureMap.get_record, Call.subtestFailure?]
    by_cases h : id = i
    · simp [h]
    · simp [h, Ne.symm h]
  | _ => exact (List.append_nil _).symm

theorem get_subtestFailures_after (id : TestId) :
    (t.after s).subtestFailures.get id = t.subtestFailures.get id
      ++ ((s.call?.map Prod.fst).bind (Call.subtestFailure? id)).toList := by
  cases hs : s.call? with
  | none =>
    rw [(after_of_call?_eq_none hs).2.2]
    exact (List.append_nil _).symm
  | some p =>
    rw [after_of_call? hs, get_subtestFailures_call]
    rfl

theorem subject_call (c : Call) (now : Millis) : (t.call c now).subject = t.subject := by
  cases c <;> rfl

/-- Only a discovery changes the subject, and it does so at the end of its sub-tests. This goes through
the steps one by one, since discoveries are no calls. -/
theorem subject_after :
    (t.after s).subject
      = { t.subject with subtests := t.subject.subtests ++ s.discovered?.toList } := by
  cases s with
  | call c now => simp [after, subject_call, Step.discovered?]
  | notice n now => simp [after, subject_call, Step.discovered?]
  | addSubtest c => rfl
  | _ => simp [after, exportProperty, exportRepeated, Step.discovered?]

/-! ## What a run does

What a run adds to a field is what its steps add, in their order. Each lemma is an induction on the steps,
from any tracker: the lemma on one step takes care of the first, and the rest is a run that starts where
the first step has led. -/

theorem failures_run :
    (t.run steps).1.failures = t.failures ++ (Step.calls steps).filterMap Call.failure? := by
  induction steps generalizing t with
  | nil => exact (List.append_nil _).symm
  | cons s steps ih =>
    rw [run_cons, ih (t.after s), failures_after, Step.calls_cons, List.filterMap_append,
      List.append_assoc]
    cases s.call? <;> rfl

theorem get_subtestFailures_run (id : TestId) :
    (t.run steps).1.subtestFailures.get id
      = t.subtestFailures.get id ++ (Step.calls steps).filterMap (Call.subtestFailure? id) := by
  induction steps generalizing t with
  | nil => exact (List.append_nil _).symm
  | cons s steps ih =>
    rw [run_cons, ih (t.after s), get_subtestFailures_after, Step.calls_cons,
      List.filterMap_append, List.append_assoc]
    cases s.call? <;> rfl

theorem subject_run :
    (t.run steps).1.subject
      = { t.subject with subtests := t.subject.subtests ++ Step.discovered steps } := by
  induction steps generalizing t with
  | nil => simp [run_nil, Step.discovered]
  | cons s steps ih =>
    rw [run_cons, ih (t.after s), subject_after, Step.discovered_cons, List.append_assoc]

end Tracker

end Casebook
