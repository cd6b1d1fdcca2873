import Casebook.Proofs.Tracker.Run

/-!
# The course of a run

However many calls are made to a tracker, in whatever order and at whatever times, at most two of them
count. The first call that leads a test out of its initial state opens the course of the run; if it
starts the test, the first later call that leads a running test anywhere closes it. `Course.ofSteps`
finds these two in a list of steps, and `lifecycle_run_eq_course` says that they fix the final
state, the final interval and every answer to a call.

* `Call.target?` is the diagram of states: where a call leads from a state, if it applies there.
* `Lifecycle.signal_eq` says once what a call does, in terms of the diagram; nothing below unfolds a
  signal again.
* `Tracker.run_of_undecided` and `Tracker.run_of_decided` follow a run from one state up to
  the first step that leaves it, by induction on the steps.
-/

namespace Casebook

/-! ## The diagram of states

Two tables, one for a test to which nothing has happened and one for a running test; every other state is
an end. They are written down here once more, call by call, and `Lifecycle.signal_eq` compares them with
what signals do. -/

namespace Call

/-- Where a call leads a test to which nothing has happened yet. -/
def opened? : Call → Option State
  | start => some .started
  | suppress => some .suppressed
  | interrupt => some .cancelled
  | fail _ | failSubtest _ _ => some .finished
  | finish | skip => none

/-- Where a call leads a running test. -/
def closed? : Call → Option State
  | finish => some .finished
  | skip => some .skipped
  | interrupt => some .interrupted
  | start | suppress | fail _ | failSubtest _ _ => none

/-- Where a call leads from a state, if it applies there. -/
def target? (c : Call) : State → Option State
  | .initial => c.opened?
  | .started => c.closed?
  | _ => none

theorem target?_of_isTerminal (c : Call) {v : State} (h : v.isTerminal = true) :
    c.target? v = none := by
  cases v with
  | initial | started => simp [State.isTerminal] at h
  | _ => rfl

/-- A call leads to a running test or to one that has come to its end. -/
theorem isTerminal_of_target? {c : Call} {u v : State} (h : c.target? u = some v)
    (hv : v ≠ .started) : v.isTerminal = true := by
  cases v with
  | initial => cases c <;> cases u <;> simp [target?, opened?, closed?] at h
  | started => exact absurd rfl hv
  | _ => rfl

theorem ne_started_of_closed? {c : Call} {v : State} (h : c.closed? = some v) : v ≠ .started := by
  rintro rfl
  cases c <;> simp [closed?] at h

end Call

/-- What a call does to a lifecycle: it applies exactly where the diagram has an edge for it, and
then leads to the end of that edge and extends the interval. -/
theorem Lifecycle.signal_eq (l : Lifecycle) (c : Call) (now : Millis) :
    (l.signal c.signal now).applied = (c.target? l.state).isSome
      ∧ (l.signal c.signal now).lifecycle = match c.target? l.state with
        | some v => { state := v, interval? := some (l.intervalAt now) }
        | none => l := by
  obtain ⟨v, i?⟩ := l
  -- one case for each call in each state: an interruption tries two transitions, the other calls one
  cases c <;> cases v <;> exact ⟨rfl, rfl⟩

/-! ## Decisions

In any one state, the calls of a run either do not apply, and are as if they had not been made, or lead
out of the state. The first that does so is what decides, whatever comes after it. -/

/-- A step that decides about the course of a run: where it stands, the state that its call leads to
and when the call is made. -/
structure Decision where
  position : Nat
  target : State
  now : Millis
deriving DecidableEq, Repr

namespace Decision

/-- The decision that a step is by itself, in a state. -/
def ofStep? (v : State) (s : Step) : Option Decision :=
  s.call?.bind fun (c, now) => (c.target? v).map fun target => ⟨0, target, now⟩

/-- The first step that makes a call which leads out of a state, with its place in the list. -/
def first? (v : State) : List Step → Option Decision
  | [] => none
  | s :: steps =>
    match ofStep? v s with
    | some d => some d
    | none => (first? v steps).map fun d => { d with position := d.position + 1 }

/-- Nothing leads out of a state in which a test has come to its end. -/
theorem first?_of_isTerminal {v : State} (h : v.isTerminal = true) (steps : List Step) :
    first? v steps = none := by
  induction steps with
  | nil => rfl
  | cons s steps ih =>
    have hs : ofStep? v s = none := by
      rw [ofStep?]
      cases s.call? with
      | none => rfl
      | some p => simp [Call.target?_of_isTerminal p.1 h]
    rw [first?, hs, ih]
    rfl

theorem exists_target?_of_first? {v : State} {steps : List Step} {d : Decision}
    (h : first? v steps = some d) : ∃ c : Call, c.target? v = some d.target := by
  induction steps generalizing d with
  | nil => simp [first?] at h
  | cons s steps ih =>
    rw [first?] at h
    split at h
    · next d' hs =>
      obtain ⟨⟨c, now⟩, -, hc⟩ := Option.bind_eq_some_iff.1 hs
      obtain ⟨target, hv, rfl⟩ := Option.map_eq_some_iff.1 hc
      obtain rfl := Option.some.inj h
      exact ⟨c, hv⟩
    · obtain ⟨d', hd', rfl⟩ := Option.map_eq_some_iff.1 h
      exact ih (d := d') hd'

end Decision

/-! ## Courses

Every run starts in the initial state, and whatever leads out of it leads to a running test or to the end.
So there are two decisions at most, and a lifecycle can be read off them. -/

/-- What decides about a run. -/
structure Course where
  /-- The first step that leads out of the initial state. -/
  opening? : Option Decision
  /-- The first step that ends the test, after one that has started it. -/
  closing? : Option Decision
deriving DecidableEq, Repr

namespace Course

/-- The course of a list of steps: its opening and, if that starts the test, the first decision in a
running test among the steps after it. -/
def ofSteps (steps : List Step) : Course where
  opening? := Decision.first? .initial steps
  closing? := (Decision.first? .initial steps).bind fun o =>
    if o.target = .started then
      (Decision.first? .started (steps.drop (o.position + 1))).map fun c =>
        { c with position := o.position + 1 + c.position }
    else none

/-- The interval between the opening and the closing of a course. If the clock has gone back, it ends
where it starts. -/
def span (opened closed : Millis) : Interval where
  start := opened
  stop := max opened closed
  start_le_stop := by
    show opened ≤ if opened ≤ closed then closed else opened
    split
    · assumption
    · exact UInt64.le_refl opened

/-- The lifecycle that a course leads to. Without an opening it is that of a new test; otherwise the last
decision gives the state, and the times of the decisions the interval. -/
def lifecycle (k : Course) : Lifecycle :=
  match k.opening?, k.closing? with
  | none, _ => {}
  | some o, none => { state := o.target, interval? := some (.instant o.now) }
  | some o, some c => { state := c.target, interval? := some (span o.now c.now) }

/-- Whether a position is that of a step that decides. -/
def decides (k : Course) (i : Nat) : Bool :=
  k.opening?.any (fun d => d.position == i) || k.closing?.any (fun d => d.position == i)

theorem ofSteps_of_none {steps : List Step} (h : Decision.first? .initial steps = none) :
    ofSteps steps = ⟨none, none⟩ := by
  rw [ofSteps, h, Option.bind_none]

theorem ofSteps_of_started {steps : List Step} {o : Decision}
    (h : Decision.first? .initial steps = some o) (ho : o.target = .started) :
    ofSteps steps = ⟨some o, (Decision.first? .started (steps.drop (o.position + 1))).map fun c =>
      { c with position := o.position + 1 + c.position }⟩ := by
  rw [ofSteps, h, Option.bind_some, if_pos ho]

theorem ofSteps_of_final {steps : List Step} {o : Decision}
    (h : Decision.first? .initial steps = some o) (ho : o.target ≠ .started) :
    ofSteps steps = ⟨some o, none⟩ := by
  rw [ofSteps, h, Option.bind_some, if_neg ho]

theorem extend_instant (opened closed : Millis) :
    (Interval.instant opened).extend closed = span opened closed := by
  have hmax : max opened closed = if opened ≤ closed then closed else opened := rfl
  show (if h : opened ≤ closed then _ else _) = _
  split
  · next h => simp only [span, hmax, if_pos h, Interval.instant]
  · next h => simp only [span, hmax, if_neg h, Interval.instant]

end Course

namespace Tracker

variable {t : Tracker} {s : Step} {steps : List Step} {d : Decision}

/-! ## Which steps apply

The answer to a call says whether it applied. A position of a run is put the same question here, for calls
and notices alike, and a step that makes no call never applies. -/

/-- Whether a step makes a call that applies. -/
def applies (t : Tracker) (s : Step) : Bool :=
  match s.call? with
  | some (c, now) => (t.lifecycle.signal c.signal now).applied
  | none => false

/-- Whether the step at a position of a run makes a call that applies. -/
def appliesAt (t : Tracker) (steps : List Step) (i : Nat) : Bool :=
  match steps[i]? with
  | some s => (t.run (steps.take i)).1.applies s
  | none => false

theorem appliesAt_cons_succ (i : Nat) :
    t.appliesAt (s :: steps) (i + 1) = (t.after s).appliesAt steps i := rfl

/-- A later part of a run applies where it applies on its own after the earlier part. -/
theorem appliesAt_add (m i : Nat) :
    t.appliesAt steps (m + i) = (t.run (steps.take m)).1.appliesAt (steps.drop m) i := by
  rw [appliesAt, appliesAt, List.getElem?_drop, List.take_add, run_append]

/-! ## One step

A step either decides in the state that the test is in, or leaves the lifecycle as it is. -/

theorem after_of_ofStep?_eq_none
    (h : Decision.ofStep? t.lifecycle.state s = none) :
    t.applies s = false ∧ (t.after s).lifecycle = t.lifecycle := by
  rw [applies, lifecycle_after]
  cases hs : s.call? with
  | none => exact ⟨rfl, rfl⟩
  | some p =>
    obtain ⟨c, now⟩ := p
    have hc : c.target? t.lifecycle.state = none := by
      simpa [Decision.ofStep?, hs] using h
    obtain ⟨happ, hl⟩ := t.lifecycle.signal_eq c now
    rw [hc] at happ hl
    exact ⟨happ, hl⟩

theorem after_of_ofStep?_eq_some
    (h : Decision.ofStep? t.lifecycle.state s = some d) :
    d.position = 0 ∧ t.applies s = true
      ∧ (t.after s).lifecycle
        = { state := d.target, interval? := some (t.lifecycle.intervalAt d.now) } := by
  obtain ⟨⟨c, now⟩, hs, hc⟩ := Option.bind_eq_some_iff.1 h
  obtain ⟨target, hv, rfl⟩ := Option.map_eq_some_iff.1 hc
  obtain ⟨happ, hl⟩ := t.lifecycle.signal_eq c now
  rw [hv] at happ hl
  rw [applies, lifecycle_after, hs]
  exact ⟨rfl, happ, hl⟩

/-! ## A run within one state

As long as nothing decides, the state stays, so that the search for the first decision and the run go
through the steps side by side. Both inductions are on the steps, from any tracker in the state. -/

/-- While no call leads out of the state, nothing happens: the lifecycle stays, and no step applies. -/
theorem run_of_undecided
    (h : Decision.first? t.lifecycle.state steps = none) :
    (t.run steps).1.lifecycle = t.lifecycle ∧ ∀ i, t.appliesAt steps i = false := by
  induction steps generalizing t with
  | nil => exact ⟨rfl, fun i => rfl⟩
  | cons s steps ih =>
    rw [Decision.first?] at h
    split at h
    · simp at h
    · next hs =>
      -- the step leaves the lifecycle as it is, so the hypothesis holds of the rest of the run
      obtain ⟨happ, hl⟩ := after_of_ofStep?_eq_none hs
      obtain ⟨hrun, hat⟩ := ih (t := t.after s) (by rw [hl]; exact Option.map_eq_none_iff.1 h)
      refine ⟨hrun.trans hl, fun i => ?_⟩
      cases i with
      | zero => exact happ
      | succ i => exact hat i

/-- The first call that leads out of the state applies, and no earlier one does. -/
theorem run_of_decided
    (h : Decision.first? t.lifecycle.state steps = some d) :
    (t.run (steps.take (d.position + 1))).1.lifecycle
        = { state := d.target, interval? := some (t.lifecycle.intervalAt d.now) }
      ∧ ∀ i ≤ d.position, t.appliesAt steps i = (d.position == i) := by
  induction steps generalizing t d with
  | nil => simp [Decision.first?] at h
  | cons s steps ih =>
    rw [Decision.first?] at h
    split at h
    · next d' hs =>
      -- the first step decides
      obtain rfl := Option.some.inj h
      obtain ⟨hpos, happ, hl⟩ := after_of_ofStep?_eq_some hs
      rw [hpos]
      refine ⟨hl, fun i hi => ?_⟩
      obtain rfl : i = 0 := by omega
      exact happ
    · next hs =>
      -- a later one decides, which stands one place earlier in the rest of the run
      obtain ⟨happ, hl⟩ := after_of_ofStep?_eq_none hs
      obtain ⟨d', hd', rfl⟩ := Option.map_eq_some_iff.1 h
      obtain ⟨hrun, hat⟩ := ih (t := t.after s) (d := d') (by rw [hl]; exact hd')
      refine ⟨by rw [← hl]; exact hrun, fun i hi => ?_⟩
      cases i with
      | zero => exact happ
      | succ i =>
        rw [appliesAt_cons_succ, hat i (by simpa using hi)]
        simp

/-- Once the test has come to its end, nothing happens any more. -/
theorem run_of_isTerminal (steps : List Step) (h : t.lifecycle.state.isTerminal = true) :
    (t.run steps).1.lifecycle = t.lifecycle ∧ ∀ i, t.appliesAt steps i = false :=
  run_of_undecided (Decision.first?_of_isTerminal h steps)

/-! ## A run across states

What comes after a decision is a run of its own, from the state that the decision has led to. So a course
is put together from the runs within its states: none or one in the initial state, and one more in a
running test. -/

/-- A run splits after the step that decides: up to it only that step applies, and the rest is a run
of its own. -/
theorem run_split (h : Decision.first? t.lifecycle.state steps = some d) {t' : Tracker}
    (ht' : t' = (t.run (steps.take (d.position + 1))).1) :
    (t.run steps).1 = (t'.run (steps.drop (d.position + 1))).1
      ∧ ∀ i, t.appliesAt steps i
        = (d.position == i || decide (d.position < i)
            && t'.appliesAt (steps.drop (d.position + 1)) (i - (d.position + 1))) := by
  refine ⟨by rw [ht', ← run_append, List.take_append_drop], fun i => ?_⟩
  -- a position behind the decision is one of the rest, counted from there
  rcases Nat.lt_or_ge d.position i with hi | hi
  · have hadd : t.appliesAt steps (d.position + 1 + (i - (d.position + 1)))
        = (t.run (steps.take (d.position + 1))).1.appliesAt (steps.drop (d.position + 1))
          (i - (d.position + 1)) := appliesAt_add _ _
    rw [Nat.add_sub_cancel' hi, ← ht'] at hadd
    simp [hadd, hi, Nat.ne_of_lt hi]
  · simp [(run_of_decided h).2 i hi, Nat.not_lt.2 hi]

/-- A decision that ends the test is the only one. -/
theorem run_of_final_decision (h : Decision.first? t.lifecycle.state steps = some d)
    (hend : d.target.isTerminal = true) :
    (t.run steps).1.lifecycle
        = { state := d.target, interval? := some (t.lifecycle.intervalAt d.now) }
      ∧ ∀ i, t.appliesAt steps i = (d.position == i) := by
  obtain ⟨hrun, hat⟩ := run_split h rfl
  have hl := (run_of_decided h).1
  obtain ⟨hrest, hnone⟩ := run_of_isTerminal (steps.drop (d.position + 1))
    (t := (t.run (steps.take (d.position + 1))).1) (by rw [hl]; exact hend)
  exact ⟨by rw [hrun, hrest, hl], fun i => by rw [hat i, hnone, Bool.and_false, Bool.or_false]⟩

/-- A running test runs on until a call ends it, and that is the only one that applies. -/
theorem run_of_started (steps : List Step) (h : t.lifecycle.state = .started) :
    (t.run steps).1.lifecycle
        = ((Decision.first? .started steps).elim t.lifecycle fun d =>
          { state := d.target, interval? := some (t.lifecycle.intervalAt d.now) })
      ∧ ∀ i, t.appliesAt steps i
        = (Decision.first? .started steps).any fun d => d.position == i := by
  cases hc : Decision.first? .started steps with
  | none => exact run_of_undecided (by rw [h]; exact hc)
  | some d =>
    obtain ⟨c, hleads⟩ := Decision.exists_target?_of_first? hc
    have hend : d.target.isTerminal = true :=
      Call.isTerminal_of_target? hleads (Call.ne_started_of_closed? hleads)
    exact run_of_final_decision (by rw [h]; exact hc) hend

/-- The course of a run fixes the final lifecycle and says which calls apply. -/
theorem run_of_initial (steps : List Step) (h : t.lifecycle = {}) :
    (t.run steps).1.lifecycle = (Course.ofSteps steps).lifecycle
      ∧ ∀ i, t.appliesAt steps i = (Course.ofSteps steps).decides i := by
  have hfirst : Decision.first? .initial steps = Decision.first? t.lifecycle.state steps := by
    rw [h]
  have hinterval : t.lifecycle.interval? = none := by rw [h]
  cases ho : Decision.first? .initial steps with
  | none =>
    obtain ⟨hl, hat⟩ := run_of_undecided (hfirst ▸ ho)
    rw [Course.ofSteps_of_none ho, hl, h]
    exact ⟨rfl, hat⟩
  | some o =>
    have ho' := hfirst ▸ ho
    obtain ⟨c, hleads⟩ := Decision.exists_target?_of_first? ho
    -- the opening starts the test or ends it
    by_cases hv : o.target = .started
    · -- the rest of the run is that of a running test
      obtain ⟨t', ht'⟩ : ∃ t', t' = (t.run (steps.take (o.position + 1))).1 := ⟨_, rfl⟩
      obtain ⟨hrun, hat⟩ := run_split ho' ht'
      have hl : t'.lifecycle = { state := .started, interval? := some (.instant o.now) } := by
        rw [ht', (run_of_decided ho').1, hv, Lifecycle.intervalAt, hinterval]
      obtain ⟨hrest, hone⟩ := run_of_started (t := t') (steps.drop (o.position + 1)) (by rw [hl])
      rw [Course.ofSteps_of_started ho hv, hrun, hrest, hl]
      cases hc : Decision.first? .started (steps.drop (o.position + 1)) with
      | none =>
        refine ⟨by simp [Course.lifecycle, hv], fun i => ?_⟩
        rw [hat i, hone, hc]
        simp [Course.decides]
      | some d =>
        have hspan := Course.extend_instant o.now d.now
        refine ⟨by simp [Course.lifecycle, Lifecycle.intervalAt, hspan], fun i => ?_⟩
        rw [hat i, hone, hc, Bool.eq_iff_iff]
        simp only [Course.decides, Option.any_some, Option.map_some, Bool.or_eq_true,
          Bool.and_eq_true, beq_iff_eq, decide_eq_true_eq]
        omega
    · -- the first call that applies ends the test
      have hend := Call.isTerminal_of_target? hleads hv
      obtain ⟨hl, hat⟩ := run_of_final_decision ho' hend
      rw [Course.ofSteps_of_final ho hv, hl, Lifecycle.intervalAt, hinterval]
      refine ⟨rfl, fun i => ?_⟩
      rw [hat i]
      simp [Course.decides]

/-! ## The answers

Only a call made directly is answered. A notice says nothing back, so what can be said of it is that it
does what its call would have done at that place of the run, and what that call would have been
answered. -/

theorem answer_call (c : Call) (now : Millis) :
    t.answer (.call c now) = .applied (t.applies (.call c now)) := rfl

theorem applies_of_call? {c : Call} {now : Millis} (h : s.call? = some (c, now)) :
    t.applies s = t.applies (.call c now) := by
  rw [applies, h]
  rfl

/-- The course of a run fixes the final state, the final interval and every answer to a call. A notice
is not answered, but it does what the call does that it stands for, and that call applies where the
course says so. -/
theorem lifecycle_run_eq_course (subject parent : Subject) (settings : Settings)
    (steps : List Step) :
    ((new subject parent settings).run steps).1.lifecycle = (Course.ofSteps steps).lifecycle
      ∧ (∀ i c now, steps[i]? = some (.call c now) →
        ((new subject parent settings).run steps).2[i]?.map Reply.answer
          = some (.applied ((Course.ofSteps steps).decides i)))
      ∧ ∀ i n now, steps[i]? = some (.notice n now) →
        let t := ((new subject parent settings).run (steps.take i)).1
        ((new subject parent settings).run steps).2[i]?.map Reply.answer = some .none
          ∧ ∃ c, (Step.notice n now).call? = some (c, now)
            ∧ t.after (.notice n now) = t.after (.call c now)
            ∧ t.answer (.call c now) = .applied ((Course.ofSteps steps).decides i) := by
  obtain ⟨hl, hat⟩ := run_of_initial (t := new subject parent settings) steps rfl
  refine ⟨hl, fun i c now hi => ?_, fun i n now hi => ⟨?_, n.call, Step.call?_notice n now, rfl, ?_⟩⟩
  · rw [getElem?_replies_run, hi, ← hat i, appliesAt, hi]
    rfl
  · rw [getElem?_replies_run, hi]
    rfl
  · rw [answer_call, ← applies_of_call? (Step.call?_notice n now), ← hat i, appliesAt, hi]

/-- A test that is started, and interrupted by a notice after the clock has gone back. -/
theorem lifecycle_run_eq_course_interrupted :
    let steps : List Step := [.call .finish 5, .build, .call .start 10, .call (.fail {}) 7,
      .notice .interrupted 3, .call .start 20]
    let run := (new (.ofMethod "C" "m") (.ofSuite "C") {}).run steps
    run.1.lifecycle = { state := .interrupted, interval? := some (.instant 10) }
      ∧ run.2[2]?.map Reply.answer = some (.applied true)
      ∧ run.2[3]?.map Reply.answer = some (.applied false)
      ∧ run.2[4]?.map Reply.answer = some .none := by
  intro steps run
  have h := lifecycle_run_eq_course (.ofMethod "C" "m") (.ofSuite "C") {} steps
  exact ⟨h.1, h.2.1 2 .start 10 rfl, h.2.1 3 (.fail {}) 7 rfl, (h.2.2 4 .interrupted 3 rfl).1⟩

end Tracker

end Casebook
