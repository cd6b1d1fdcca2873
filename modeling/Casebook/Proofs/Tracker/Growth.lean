import Mathlib.Data.List.Perm.Subperm
import Casebook.Proofs.Tracker.Course
import Casebook.Proofs.Tracker.Exports

/-!
# How a tracker grows

Nothing that a tracker has been told is ever lost. `Tracker.Extends` says what that means, field by
field: the failures, the failures of each sub-test and the sub-tests only grow at their ends, the names of
properties stay, an interval keeps its start while its end advances, and a test that has come to its
end keeps its lifecycle.

* `Tracker.Extends` is a preorder, and every step goes up in it (`Tracker.extends_after`).
* So does every run, by induction on the steps (`Tracker.extends_run`), and so do the trackers at two
  points of one run (`Tracker.extends_take`).

Counts are not among the fields: the number of failed ids and the number of test units grow
(`Extends.size_le`, `Extends.units_le`), but a tracker counts sometimes the one and sometimes the other.
-/

namespace Casebook

/-! ## Lifecycles

A lifecycle goes one way. Before the end the interval may grow, but it keeps its start; after the end
nothing changes any more. -/

namespace Lifecycle

/-- A lifecycle that another one leads to. -/
structure Extends (l l' : Lifecycle) : Prop where
  /-- A test that has come to its end stays as it is. -/
  final : l.state.isTerminal = true → l' = l
  /-- The interval keeps its start, and its end only advances. -/
  interval : ∀ i, l.interval? = some i →
    ∃ i', l'.interval? = some i' ∧ i'.start = i.start ∧ i.stop ≤ i'.stop

namespace Extends

theorem refl (l : Lifecycle) : l.Extends l :=
  ⟨fun _ => rfl, fun i hi => ⟨i, hi, rfl, UInt64.le_refl i.stop⟩⟩

theorem trans {l l' l'' : Lifecycle} (h : l.Extends l') (h' : l'.Extends l'') : l.Extends l'' := by
  refine ⟨fun hl => ?_, fun i hi => ?_⟩
  · -- what was fixed in the first place is fixed in the second
    obtain rfl := h.final hl
    exact h'.final hl
  · obtain ⟨i', hi', hstart', hstop'⟩ := h.interval i hi
    obtain ⟨i'', hi'', hstart'', hstop''⟩ := h'.interval i' hi'
    exact ⟨i'', hi'', hstart''.trans hstart', UInt64.le_trans hstop' hstop''⟩

end Extends

theorem extends_signal (l : Lifecycle) (c : Call) (now : Millis) :
    l.Extends (l.signal c.signal now).lifecycle := by
  -- either the call does not apply, or it extends the interval of a state that is no end
  obtain ⟨-, hl⟩ := l.signal_eq c now
  rw [hl]
  cases htarget : c.target? l.state with
  | none => exact .refl l
  | some v =>
    refine ⟨fun hend => ?_, fun i hi => ⟨l.intervalAt now, rfl, ?_⟩⟩
    · -- no call leads out of a state that is an end
      rw [c.target?_of_isTerminal hend] at htarget
      exact nomatch htarget
    · rw [intervalAt, hi]
      exact ⟨i.start_extend now, i.stop_le_stop_extend now⟩

end Lifecycle

/-! ## Trackers

The same for all that a tracker holds. Lists grow at their ends, so an earlier list is a prefix of a later
one. The properties are the exception: an export may replace the value under a name, so of these only the
names are kept. -/

namespace Tracker

/-- A tracker that another one leads to, when it is told more. -/
structure Extends (t t' : Tracker) : Prop where
  /-- Sub-tests are discovered at the end of the list, and nothing else of the subject changes. -/
  subject : ∃ more, t'.subject = { t.subject with subtests := t.subject.subtests ++ more }
  parent : t'.parent = t.parent
  failures : t.failures <+: t'.failures
  subtestFailures : ∀ id, t.subtestFailures.get id <+: t'.subtestFailures.get id
  /-- Names of properties stay, though their values may not. -/
  names : ∀ name ∈ t.properties.names, name ∈ t'.properties.names
  lifecycle : t.lifecycle.Extends t'.lifecycle

variable {t t' t'' : Tracker}

theorem Extends.refl (t : Tracker) : t.Extends t where
  subject := ⟨[], by rw [List.append_nil]⟩
  parent := rfl
  failures := List.prefix_refl _
  subtestFailures _ := List.prefix_refl _
  names _ h := h
  lifecycle := .refl t.lifecycle

theorem Extends.trans (h : t.Extends t') (h' : t'.Extends t'') : t.Extends t'' where
  subject := by
    obtain ⟨more, hmore⟩ := h.subject
    obtain ⟨more', hmore'⟩ := h'.subject
    exact ⟨more ++ more', by rw [hmore', hmore, List.append_assoc]⟩
  parent := h'.parent.trans h.parent
  failures := h.failures.trans h'.failures
  subtestFailures id := (h.subtestFailures id).trans (h'.subtestFailures id)
  names name hname := h'.names name (h.names name hname)
  lifecycle := h.lifecycle.trans h'.lifecycle

/-! ## Steps and runs

What one step does to each field is known from the lemmas on runs and on exports, so that a step extends
needs no new look at the steps but for the parent and the names of properties. -/

variable (t) (s : Step) (steps : List Step)

theorem parent_after : (t.after s).parent = t.parent := by
  cases s with
  | call c now => cases c <;> rfl
  | notice n now => cases n <;> rfl
  | _ => rfl

/-- A call does not touch the properties, and an export puts in a name and keeps the others. -/
theorem names_after (name : String) (h : name ∈ t.properties.names) :
    name ∈ (t.after s).properties.names := by
  cases s with
  | call c now =>
    have hcall : (t.call c now).properties = t.properties := (t.exports_call c now).2.2
    rwa [after, hcall]
  | notice n now =>
    have hcall : (t.call n.call now).properties = t.properties := (t.exports_call n.call now).2.2
    rwa [after, hcall]
  | exportProperty n v => exact Properties.mem_names_insert_of_mem n v h
  | exportRepeated base v => exact Properties.mem_names_insert_of_mem (t.nextName base) v h
  | _ => exact h

/-- Every step goes up. -/
theorem extends_after : t.Extends (t.after s) where
  subject := ⟨_, t.subject_after s⟩
  parent := t.parent_after s
  failures := by
    rw [failures_after]
    exact List.prefix_append _ _
  subtestFailures id := by
    rw [get_subtestFailures_after]
    exact List.prefix_append _ _
  names := t.names_after s
  lifecycle := by
    rw [lifecycle_after]
    cases s.call? with
    | none => exact .refl t.lifecycle
    | some p => exact t.lifecycle.extends_signal p.1 p.2

/-- Every run goes up, by induction on its steps: the first step does, and so does the rest of the run
from where that step has led. -/
theorem extends_run : t.Extends (t.run steps).1 := by
  induction steps generalizing t with
  | nil => exact .refl t
  | cons s steps ih => exact (t.extends_after s).trans (ih (t.after s))

/-- Of two points of a run, the later one extends the earlier one, because what lies between them is a
run of its own. -/
theorem extends_take {i j : Nat} (h : i ≤ j) :
    (t.run (steps.take i)).1.Extends (t.run (steps.take j)).1 := by
  have hsplit : steps.take j = steps.take i ++ (steps.drop i).take (j - i) := by
    rw [← List.take_add, Nat.add_sub_cancel' h]
  rw [hsplit, run_append]
  exact extends_run _ _

end Tracker

/-! ## Counts

Of two trackers, one of which extends the other, neither the failed sub-tests nor the units of the subject
are fewer in the later one. How a result counts its failures is a matter of its own, because a failure of
the whole test makes it count units in place of ids. -/

/-- Where all sub-tests with failures in one map have failures in another, the other has no fewer. A map
lists no id twice, so it is enough that each id of the first map is one of the second. -/
theorem FailureMap.size_le_of_get_ne_nil {m m' : FailureMap}
    (h : ∀ id, m.get id ≠ [] → m'.get id ≠ []) : m.size ≤ m'.size := by
  rw [← length_ids, ← length_ids]
  have hsub : m.ids ⊆ m'.ids := by
    intro id hid
    have hne : m.get id ≠ [] := fun hnil => get_eq_nil_iff.1 hnil hid
    exact Decidable.byContradiction fun hid' => h id hne (get_eq_nil_iff.2 hid')
  exact (m.nodup_ids.subperm hsub).length_le

namespace Tracker.Extends

variable {t t' : Tracker}

/-- A sub-test that has failed has failed for good, so no fewer sub-tests have failed later. -/
theorem size_le (h : t.Extends t') : t.subtestFailures.size ≤ t'.subtestFailures.size :=
  FailureMap.size_le_of_get_ne_nil fun id hid => (h.subtestFailures id).ne_nil hid

/-- Whatever the subject says of itself, it stands for no fewer units later. -/
theorem units_le (h : t.Extends t') : t.subject.units ≤ t'.subject.units := by
  obtain ⟨more, hmore⟩ := h.subject
  rw [hmore, Subject.units, Subject.units, Subject.isSingle, Subject.isSingle]
  cases t.subject.single? with
  | some single => cases single <;> simp
  | none =>
    -- one unit as long as there is no sub-test, and the sub-tests from then on
    cases t.subject.subtests with
    | nil => cases more <;> simp
    | cons c cs => simp

end Tracker.Extends

end Casebook
