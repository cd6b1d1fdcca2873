import Casebook.Proofs.Result.Intervals
import Casebook.Proofs.Tracker.Course

/-!
# No interval is inverted

There are four ways to come by an interval: to ask for one (`Interval.Request`), to read one from a text,
to read a result that has intervals in it, and to track a test. The bounds of an interval are in order
by its type; `Interval.in_order` says what that comes down to on each way. Bounds that are asked for or
read are refused exactly if they are in the wrong order, and where a tracker extends an interval there
is nothing to be refused.
-/

namespace Casebook

/-! ## Requests

`Interval.obey` goes by the operations of an interval, each with its own way to refuse. `Bounds.obey`
knows of bounds and of nothing else, and says what should come of a request. They agree on any requests in
any order. -/

namespace Interval

/-- A request for an interval, where there is one already. -/
inductive Request where
  | between (start stop : Millis)
  | instant (now : Millis)
  /-- The interval that there is, with another end. -/
  | withStop (stop : Millis)
deriving DecidableEq, Repr

namespace Request

/-- The bounds that are asked for, in order or not. -/
def bounds (current : Bounds) : Request → Bounds
  | between start stop => ⟨start, stop⟩
  | instant now => ⟨now, now⟩
  | withStop stop => ⟨current.start, stop⟩

/-- What is returned to the one who asks: the interval, or a refusal with the bounds it would have had. -/
def answer (current : Interval) : Request → Except Inverted Interval
  | between start stop => ofBounds start stop
  | instant now => .ok (.instant now)
  | withStop stop => current.withStop stop

end Request

/-- The interval after a request. One that is refused leaves the interval that there is. -/
def obey (current : Interval) (q : Request) : Interval :=
  match q.answer current with
  | .ok i => i
  | .error _ => current

/-- The bounds after a request, with no interval in sight: those that are asked for if they are in
order. -/
def Bounds.obey (current : Bounds) (q : Request) : Bounds :=
  if (q.bounds current).start ≤ (q.bounds current).stop then q.bounds current else current

variable {current : Interval} {q : Request}

/-- All requests are answered by the one rule on bounds, although only the first is put that way. -/
theorem answer_eq : q.answer current
    = ofBounds (q.bounds current.bounds).start (q.bounds current.bounds).stop := by
  cases q with
  | between start stop => rfl
  | withStop stop => rfl
  | instant now => exact (ofBounds_eq_ok_iff.2 rfl).symm

theorem answer_of_le (h : (q.bounds current.bounds).start ≤ (q.bounds current.bounds).stop) :
    ∃ i, q.answer current = .ok i ∧ i.bounds = q.bounds current.bounds ∧ current.obey q = i := by
  have hanswer : q.answer current = .ok ⟨_, _, h⟩ := answer_eq.trans (ofBounds_eq_ok_iff.2 rfl)
  exact ⟨_, hanswer, rfl, by rw [obey, hanswer]⟩

theorem answer_of_lt (h : (q.bounds current.bounds).stop < (q.bounds current.bounds).start) :
    q.answer current
        = .error ⟨(q.bounds current.bounds).start, (q.bounds current.bounds).stop⟩
      ∧ current.obey q = current := by
  have hanswer := answer_eq.trans (ofBounds_of_lt h)
  exact ⟨hanswer, by rw [obey, hanswer]⟩

theorem bounds_obey : (current.obey q).bounds = current.bounds.obey q := by
  rw [Bounds.obey]
  split
  · next h =>
    obtain ⟨i, -, hbounds, hobey⟩ := answer_of_le h
    rw [hobey, hbounds]
  · next h => rw [(answer_of_lt (UInt64.not_le.1 h)).2]

theorem bounds_foldl_obey (i : Interval) (qs : List Request) :
    (qs.foldl obey i).bounds = qs.foldl Bounds.obey i.bounds := by
  induction qs generalizing i with
  | nil => rfl
  | cons q qs ih => rw [List.foldl_cons, List.foldl_cons, ih, bounds_obey]

/-! ## Lengths

A length is a difference of two 64-bit numbers, which would wrap around if the end came first. -/

theorem start_add_length (i : Interval) : i.start.toNat + i.length.toNat = i.stop.toNat := by
  have hle : i.start.toNat ≤ i.stop.toNat := UInt64.le_iff_toNat_le.1 i.start_le_stop
  have hsub : i.length.toNat = i.stop.toNat - i.start.toNat :=
    UInt64.toNat_sub_of_le i.stop i.start i.start_le_stop
  omega

end Interval

/-! ## Trackers

A tracker makes its interval from the times that it is given, and these need not be in order: the clock
may have been set back. `Lifecycle.Timed` is the invariant of a run, that no bound is made up. -/

/-- The times of the calls that are made in a list of steps. -/
def Step.times (steps : List Step) : List Millis := steps.filterMap fun s => s.call?.map Prod.snd

theorem Step.mem_times {steps : List Step} {s : Step} {c : Call} {now : Millis} (hs : s ∈ steps)
    (hcall : s.call? = some (c, now)) : now ∈ times steps :=
  List.mem_filterMap.2 ⟨s, hs, by rw [hcall, Option.map_some]⟩

namespace Lifecycle

variable {P : Millis → Prop} {l : Lifecycle}

/-- The interval, if there is one, is bounded by times of a kind. -/
def Timed (P : Millis → Prop) (l : Lifecycle) : Prop :=
  ∀ i, l.interval? = some i → P i.start ∧ P i.stop

/-- One signal keeps the invariant. A transition starts an interval at its own time, or takes its own time
for the end of the one that there is, or keeps that one. -/
theorem timed_signal (h : l.Timed P) (c : Call) {now : Millis} (hnow : P now) :
    (l.signal c.signal now).lifecycle.Timed P := by
  rw [(l.signal_eq c now).2]
  split
  · intro i hi
    obtain rfl : l.intervalAt now = i := Option.some.inj hi
    rw [intervalAt]
    split
    · exact ⟨hnow, hnow⟩
    · next i hi =>
      obtain ⟨hstart, hstop⟩ := h i hi
      rw [Interval.start_extend, Interval.extend]
      split
      · exact ⟨hstart, hnow⟩
      · exact ⟨hstart, hstop⟩
  · exact h

/-- The interval after a transition is the one that there is, or it can be given the new end. -/
theorem intervalAt_eq {i : Interval} (h : l.interval? = some i) (now : Millis) :
    (now < i.stop → l.intervalAt now = i)
      ∧ (i.stop ≤ now → i.withStop now = .ok (l.intervalAt now)) := by
  have hat : l.intervalAt now = i.extend now := by rw [intervalAt, h]
  rw [hat, Interval.extend]
  split
  · next hle => exact ⟨fun hlt => absurd hle (UInt64.not_le.2 hlt), fun _ => dif_pos _⟩
  · next hnle => exact ⟨fun _ => rfl, fun hle => absurd hle hnle⟩

end Lifecycle

namespace Tracker

variable {P : Millis → Prop} {t : Tracker}

theorem timed_after (h : t.lifecycle.Timed P) (s : Step)
    (hs : ∀ c now, s.call? = some (c, now) → P now) : (t.after s).lifecycle.Timed P := by
  rw [lifecycle_after]
  split
  · next c now hcall => exact Lifecycle.timed_signal h c (hs c now hcall)
  · exact h

theorem timed_run (h : t.lifecycle.Timed P) (steps : List Step)
    (hsteps : ∀ s ∈ steps, ∀ c now, s.call? = some (c, now) → P now) :
    (t.run steps).1.lifecycle.Timed P := by
  induction steps generalizing t with
  | nil => exact h
  | cons s steps ih =>
    rw [run_cons]
    exact ih (timed_after h s (hsteps s List.mem_cons_self))
      fun s' hs' => hsteps s' (List.mem_cons_of_mem s hs')

/-- A result that was built from a tracker has one level of children, and all show the interval of the
tracker. -/
theorem interval?_of_hasInterval {i : Interval} (h : t.build.HasInterval i) :
    t.lifecycle.interval? = some i := by
  cases h with
  | own h => exact h
  | inner hc h =>
    obtain ⟨c, -, rfl⟩ := List.mem_map.1 hc
    cases h with
    | own h => exact h
    | inner hc _ => cases hc

end Tracker

/-! ## All ways to an interval

Each part of the theorem is one of the lemmas above or of those about results, at the generality of the
way that it is about: any requests, any text, any run. -/

/-- No interval is inverted, in eight parts.
1. After any requests the interval has the bounds that they leave when nothing but the order of bounds is
   looked at, and these are in order.
2. A request for bounds in order is answered with them, and one for bounds in the wrong order is refused
   with these bounds and leaves the interval that there is.
3. An interval is read from a text exactly if its bounds are.
4. Bounds in the wrong order are refused in words of their own.
5. Bounds are read in every form, in whatever order of time.
6. In a text that is read as a result, whatever stands in the place of an interval is `null` or bounds in
   order; every interval of the result is in order and has its bounds there.
7. The result of a tracker after any run shows its interval, which is in order and bounded by times of
   calls of the run; a transition keeps it, or gives it an end that is not refused.
8. The length of an interval does not wrap around. -/
theorem Interval.in_order :
    (∀ (i : Interval) (qs : List Request), let left := qs.foldl Bounds.obey i.bounds
      (qs.foldl obey i).bounds = left ∧ left.start ≤ left.stop)
    ∧ (∀ (current : Interval) (q : Request), let asked := q.bounds current.bounds
      (asked.start ≤ asked.stop →
        ∃ i, q.answer current = .ok i ∧ i.bounds = asked ∧ current.obey q = i)
      ∧ (asked.stop < asked.start →
        q.answer current = .error ⟨asked.start, asked.stop⟩ ∧ current.obey q = current))
    ∧ (∀ (text : String) (i : Interval), Json.decode (ofJson Json.maxOpen) text = .ok i
      ↔ Json.decode Bounds.ofJson text = .ok i.bounds)
    ∧ (∀ (text : String) (b : Bounds), Json.decode Bounds.ofJson text = .ok b → b.stop < b.start →
      Json.decode (ofJson Json.maxOpen) text
        = .error (.data (.rule (Inverted.message ⟨b.start, b.stop⟩))))
    ∧ (∀ (b : Bounds) (j : Json) (cs ws : List Char), b.Form j → Json.Spells cs (.value j) →
      Json.Blank ws → Json.decode Bounds.ofJson (String.ofList (cs ++ ws)) = .ok b)
    ∧ (∀ (text : String) (r : Result), Json.decode (Result.ofJson Json.maxOpen) text = .ok r →
      (∀ value, Result.IntervalIn value (Json.tree text) →
        value = .null ∨ ∃ b, Bounds.ofJson value = .ok b ∧ b.start ≤ b.stop)
      ∧ ∀ i, r.HasInterval i → i.start ≤ i.stop
        ∧ ∃ value, Result.IntervalIn value (Json.tree text) ∧ Bounds.ofJson value = .ok i.bounds)
    ∧ (∀ (subject parent : Subject) (settings : Settings) (steps : List Step),
      let t := ((Tracker.new subject parent settings).run steps).1
      (∀ i, t.build.HasInterval i → t.lifecycle.interval? = some i)
      ∧ ∀ i, t.lifecycle.interval? = some i → i.start ≤ i.stop
        ∧ (i.start ∈ Step.times steps ∧ i.stop ∈ Step.times steps)
        ∧ ∀ now, (now < i.stop → t.lifecycle.intervalAt now = i)
          ∧ (i.stop ≤ now → i.withStop now = .ok (t.lifecycle.intervalAt now)))
    ∧ ∀ i : Interval, i.start.toNat + i.length.toNat = i.stop.toNat := by
  refine ⟨?_, ?_, ?_, ?_, ?_, ?_, ?_, start_add_length⟩
  · intro i qs left
    have hleft : (qs.foldl obey i).bounds = left := bounds_foldl_obey i qs
    rw [← hleft]
    exact ⟨rfl, (qs.foldl obey i).start_le_stop⟩
  · intro current q
    exact ⟨answer_of_le, answer_of_lt⟩
  · intro text i
    rw [Json.decode_eq_ok_iff, Json.decode_eq_ok_iff]
    exact and_congr_left' ofJson_succ_eq_ok_iff
  · intro text b hb hlt
    exact Json.decode_of_eq_error (ofJson_succ_of_inverted (Json.decode_eq_ok_iff.1 hb).1 hlt)
  · intro b j cs ws hform hspells hws
    rw [Json.decode_of_spells _ hspells hws]
    exact Bounds.ofJson_of_form hform hspells.complete
  · intro text r h
    have hread := (Json.decode_eq_ok_iff.1 h).1
    refine ⟨fun value hplace => ?_, fun i hi => ?_⟩
    · rcases Result.ordered_of_intervalIn hplace hread with hnull | ⟨i, hi⟩
      · exact .inl hnull
      · exact .inr ⟨i.bounds, hi, i.start_le_stop⟩
    · exact ⟨i.start_le_stop, Result.intervalIn_of_hasInterval hi hread⟩
  · intro subject parent settings steps t
    have hnew : (Tracker.new subject parent settings).lifecycle.Timed (· ∈ Step.times steps) := by
      intro i hi
      cases hi
    have htimed : t.lifecycle.Timed (· ∈ Step.times steps) :=
      Tracker.timed_run hnew steps fun s hs c now hcall => Step.mem_times hs hcall
    refine ⟨fun i => Tracker.interval?_of_hasInterval, fun i hi => ?_⟩
    exact ⟨i.start_le_stop, htimed i hi, Lifecycle.intervalAt_eq hi⟩

/-- An end before the start is refused, and so are inverted bounds in an array; the interval of a
sub-test has its bounds in the text of the result; a running test is extended by the clock but not
against it. -/
theorem Interval.in_order_all_ways :
    let i : Interval := ⟨5, 7, by decide⟩
    let r : Result := { Result.blank with children := [{ Result.blank with interval? := some i }] }
    let inverted : Json := .array (.ofList [.ofNat 7, .ofNat 5])
    let started := ((Tracker.new (.ofMethod "C" "m") (.ofSuite "C") {}).run [.call .start 10]).1
    (Request.withStop 3).answer i = .error ⟨5, 3⟩
      ∧ Json.decode (ofJson Json.maxOpen) (String.ofList (inverted.chars ++ [' ']))
        = .error (.data (.rule (Inverted.message ⟨7, 5⟩)))
      ∧ (∃ value, Result.IntervalIn value (Json.tree r.render) ∧ Bounds.ofJson value = .ok ⟨5, 7⟩)
      ∧ (instant 10).withStop 12 = .ok (started.lifecycle.intervalAt 12)
      ∧ started.lifecycle.intervalAt 9 = instant 10 := by
  intro i r inverted started
  obtain ⟨-, hanswers, -, hinverted, hforms, hresults, htrackers, -⟩ := Interval.in_order
  have hform : Bounds.Form ⟨7, 5⟩ inverted := .array (.item rfl (.item rfl .close))
  have hprintable : inverted.Printable := ⟨Json.printable_ofNat 7, Json.printable_ofNat 5, trivial⟩
  have hblank : Json.Blank [' '] := Json.blank_iff_all.2 rfl
  have hbounds := hforms ⟨7, 5⟩ inverted _ _ hform (Json.spells_chars hprintable) hblank
  have hread : Json.decode (Result.ofJson Json.maxOpen) r.render = .ok r := by
    rw [Result.render, Json.decode_render _ r.printable_toJson]
    exact Result.ofJson_toJson 63 ⟨by decide, by decide, ⟨by decide, by decide, trivial⟩, trivial⟩
  have hinner : r.HasInterval i := .inner List.mem_cons_self (.own rfl)
  have hstarted : started.lifecycle.interval? = some (instant 10) := rfl
  obtain ⟨-, -, hextend⟩ := (htrackers _ _ _ _).2 (instant 10) hstarted
  refine ⟨((hanswers i (.withStop 3)).2 (by decide)).1, ?_, ?_, ?_, ?_⟩
  · exact hinverted _ ⟨7, 5⟩ hbounds (by decide)
  · exact ((hresults _ r hread).2 i hinner).2
  · exact (hextend 12).2 (by decide)
  · exact (hextend 9).1 (by decide)

end Casebook
