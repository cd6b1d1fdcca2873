import Mathlib.Data.List.Induction
import Casebook.Proofs.Tracker.Run
import Casebook.Session

/-!
# Trackers do not interfere

The trackers of a session are driven together, yet each of them behaves as if it were alone: it sees the
steps that concern it (`Session.stepsOf`) and nothing else.

* A step of a session is a number of deliveries, each to one tracker, made one after the other
  (`Session.after_eq_deliver`). A delivery to one tracker leaves the others as they are, so after
  any deliveries a tracker is what its own have made of it (`Session.getElem?_foldl_deliver`).
* The tracker at an index gives one reply to a step that concerns it, and none to another step
  (`Session.lookup_replies`).
* `Session.run_eq_alone` follows a whole run, by induction on its steps.
-/

namespace Casebook.Session

/-! ## Deliveries

A session hands a step to all the trackers that it concerns. Here this is taken apart into deliveries,
each of one step to one tracker, so that what happens to one tracker can be followed through all of them.
Which step a tracker is to see is said by `seenAt`, and that a session goes by the same table by
`stepOf_eq_seenAt`. -/

/-- What the tracker at an index sees of a step of a session. It sees what is meant for it, it is
interrupted whenever all are, and it is asked for its result whenever the suite is asked for. -/
def seenAt (i : Nat) : Step → Option Casebook.Step
  | .on j s => if j = i then some s else none
  | .interruptAll now => some (.notice .interrupted now)
  | .junitSuite _ => some .build

theorem stepOf_eq_seenAt (i : Nat) (s : Step) : stepOf i s = seenAt i s := by
  cases s <;> rfl

/-- The trackers after one of them was given a step. -/
def deliver (trackers : List Tracker) (d : Nat × Casebook.Step) : List Tracker :=
  trackers.modify d.1 fun t => t.after d.2

/-- What is delivered to the tracker at an index, in its order. -/
def deliveredTo (i : Nat) (ds : List (Nat × Casebook.Step)) : List Casebook.Step :=
  ds.filterMap fun d => if d.1 = i then some d.2 else none

/-- The deliveries that a step of a session amounts to, one tracker after the other. -/
def deliveries (count : Nat) (s : Step) : List (Nat × Casebook.Step) :=
  (List.range count).filterMap fun i => (seenAt i s).map fun step => (i, step)

theorem deliveredTo_cons_self (i : Nat) (s : Casebook.Step) (ds : List (Nat × Casebook.Step)) :
    deliveredTo i ((i, s) :: ds) = s :: deliveredTo i ds := by
  rw [deliveredTo, List.filterMap_cons, if_pos rfl]
  rfl

theorem deliveredTo_cons_ne {i j : Nat} (h : j ≠ i) (s : Casebook.Step)
    (ds : List (Nat × Casebook.Step)) : deliveredTo i ((j, s) :: ds) = deliveredTo i ds := by
  rw [deliveredTo, List.filterMap_cons, if_neg h]
  rfl

theorem deliveredTo_append (i : Nat) (ds es : List (Nat × Casebook.Step)) :
    deliveredTo i (ds ++ es) = deliveredTo i ds ++ deliveredTo i es :=
  List.filterMap_append

/-- Whatever is delivered to others, a tracker is what its own deliveries have made of it. -/
theorem getElem?_foldl_deliver (trackers : List Tracker) (ds : List (Nat × Casebook.Step)) (i : Nat) :
    (ds.foldl deliver trackers)[i]?
      = trackers[i]?.map fun t => (deliveredTo i ds).foldl Tracker.after t := by
  induction ds generalizing trackers with
  | nil => exact Option.map_id_apply.symm
  | cons d ds ih =>
    obtain ⟨j, s⟩ := d
    rw [List.foldl_cons, ih]
    by_cases h : j = i
    · subst h
      rw [deliver, List.getElem?_modify_eq, deliveredTo_cons_self]
      exact Option.map_map _ _ _
    · rw [deliver, List.getElem?_modify_ne _ _ h, deliveredTo_cons_ne h]

/-- A step of a session is delivered to each tracker that it concerns, and once. -/
theorem deliveredTo_deliveries (i count : Nat) (s : Step) :
    deliveredTo i (deliveries count s) = if i < count then (seenAt i s).toList else [] := by
  induction count with
  | zero => rfl
  | succ count ih =>
    have hlast : deliveries (count + 1) s
        = deliveries count s ++ ((seenAt count s).map fun step => (count, step)).toList := by
      rw [deliveries, List.range_succ, List.filterMap_append, List.filterMap_cons]
      cases seenAt count s <;> rfl
    rw [hlast, deliveredTo_append, ih]
    rcases Nat.lt_trichotomy i count with hlt | rfl | hgt
    · -- the last delivery is that of another tracker
      rw [if_pos hlt, if_pos (Nat.lt_succ_of_lt hlt)]
      cases seenAt count s with
      | none => exact List.append_nil _
      | some step =>
        rw [Option.map_some, Option.toList_some, deliveredTo_cons_ne (Nat.ne_of_gt hlt)]
        exact List.append_nil _
    · -- the last delivery is that of this tracker, and its only one
      rw [if_neg (Nat.lt_irrefl i), if_pos (Nat.lt_succ_self i), List.nil_append]
      cases seenAt i s with
      | none => rfl
      | some step => exact deliveredTo_cons_self i step []
    · -- there is no tracker at the index, before or after
      rw [if_neg (by omega), if_neg (by omega), List.nil_append]
      cases seenAt count s with
      | none => rfl
      | some step => exact deliveredTo_cons_ne (Nat.ne_of_lt hgt) step []

/-! ## Steps

A session works by index: a step changes the tracker at each index that it concerns, and is replied to by
index. Both are brought to the same table of what each tracker sees. -/

theorem getElem?_after (trackers : List Tracker) (s : Step) (i : Nat) :
    (after trackers s)[i]? = trackers[i]?.map fun t => (seenAt i s).toList.foldl Tracker.after t := by
  rw [after, List.getElem?_mapIdx, ← stepOf_eq_seenAt]
  cases stepOf i s <;> rfl

theorem after_eq_deliver (trackers : List Tracker) (s : Step) :
    after trackers s = (deliveries trackers.length s).foldl deliver trackers := by
  refine List.ext_getElem? fun i => ?_
  rw [getElem?_after, getElem?_foldl_deliver, deliveredTo_deliveries]
  by_cases h : i < trackers.length
  · rw [if_pos h]
  · rw [List.getElem?_eq_none (Nat.le_of_not_lt h)]
    rfl

/-- Of the replies that are made by index, one belongs to each index where there is something to
reply to. No index is used twice, so a lookup finds that reply and no other. -/
theorem lookup_mapIdx {α β : Type} (l : List α) (f : Nat → α → Option β) (i : Nat) :
    ((l.mapIdx fun j a => (f j a).map fun b => (j, b)).filterMap id).lookup i
      = l[i]?.bind (f i) := by
  induction l using List.reverseRecOn with
  | nil => rfl
  | append_singleton l a ih =>
    rw [List.mapIdx_concat, List.filterMap_append, List.lookup_append, ih]
    -- the last element is at another index, or at this one, or the list is too short for the index
    rcases Nat.lt_trichotomy i l.length with hlt | rfl | hgt
    · rw [List.getElem?_append_left hlt]
      cases hf : f l.length a with
      | none => exact Option.or_none
      | some b =>
        have hne : (i == l.length) = false := beq_eq_false_iff_ne.2 (Nat.ne_of_lt hlt)
        simp [List.lookup_cons, hne]
    · rw [List.getElem?_concat_length, List.getElem?_eq_none (Nat.le_refl _)]
      cases hf : f l.length a <;> simp [hf]
    · have hlength : (l ++ [a]).length ≤ i := by rwa [List.length_append]
      rw [List.getElem?_eq_none (Nat.le_of_lt hgt), List.getElem?_eq_none hlength]
      cases hf : f l.length a with
      | none => rfl
      | some b =>
        have hne : (i == l.length) = false := beq_eq_false_iff_ne.2 (Nat.ne_of_gt hgt)
        simp [List.lookup_cons, hne]

theorem lookup_replies (trackers : List Tracker) (s : Step) (i : Nat) :
    (replies trackers s).lookup i
      = trackers[i]?.bind fun t => (seenAt i s).map fun step => (t.step step).2 := by
  have h := lookup_mapIdx trackers (fun i t => (seenAt i s).map fun step => (t.step step).2) i
  simpa only [replies, stepOf_eq_seenAt, Option.map_map, Function.comp_def] using h

/-! ## Runs

`stepsOf` and `repliesOf` take a run of a session apart, into one run for each tracker. The induction is
on the steps, and goes through all trackers that the run can have reached. -/

/-- The steps of a session that concern the tracker at an index, as steps of that tracker. -/
def stepsOf (i : Nat) (steps : List Step) : List Casebook.Step := steps.filterMap (seenAt i)

/-- The replies of the tracker at an index, in their order. -/
def repliesOf (i : Nat) (replies : List Reply) : List Casebook.Reply :=
  replies.filterMap fun r => r.replies.lookup i

theorem stepsOf_cons (i : Nat) (s : Step) (steps : List Step) :
    stepsOf i (s :: steps) = (seenAt i s).toList ++ stepsOf i steps := by
  rw [stepsOf, List.filterMap_cons]
  cases seenAt i s <;> rfl

theorem repliesOf_cons (i : Nat) (r : Reply) (rs : List Reply) :
    repliesOf i (r :: rs) = (r.replies.lookup i).toList ++ repliesOf i rs := by
  rw [repliesOf, List.filterMap_cons]
  cases r.replies.lookup i <;> rfl

theorem run_cons (trackers : List Tracker) (s : Step) (steps : List Step) :
    run trackers (s :: steps)
      = ((run (after trackers s) steps).1,
        (step trackers s).2 :: (run (after trackers s) steps).2) := rfl

theorem getElem?_replies_run (trackers : List Tracker) (steps : List Step) (k : Nat) :
    (run trackers steps).2[k]?
      = steps[k]?.map fun s => (step (run trackers (steps.take k)).1 s).2 := by
  induction steps generalizing trackers k with
  | nil => rfl
  | cons s steps ih =>
    cases k with
    | zero => rfl
    | succ k => exact ih (after trackers s) k

/-- The trackers of a run are what their deliveries have made of them, one after the other. -/
theorem run_eq_deliver (trackers : List Tracker) (steps : List Step) :
    (run trackers steps).1
      = (steps.flatMap (deliveries trackers.length)).foldl deliver trackers := by
  induction steps generalizing trackers with
  | nil => rfl
  | cons s steps ih =>
    have hlength : (after trackers s).length = trackers.length := List.length_mapIdx
    rw [run_cons, ih (after trackers s), hlength, List.flatMap_cons, List.foldl_append,
      ← after_eq_deliver]

/-- A whole run of a session, seen from one of its trackers. -/
theorem run_of_getElem? {trackers : List Tracker} {i : Nat} {t : Tracker}
    (h : trackers[i]? = some t) (steps : List Step) :
    (run trackers steps).1[i]? = some (t.run (stepsOf i steps)).1
      ∧ repliesOf i (run trackers steps).2 = (t.run (stepsOf i steps)).2 := by
  induction steps generalizing trackers t with
  | nil => exact ⟨h, rfl⟩
  | cons s steps ih =>
    have hafter := getElem?_after trackers s i
    have hreply : (step trackers s).2.replies.lookup i = _ := lookup_replies trackers s i
    rw [h] at hafter hreply
    obtain ⟨htracker, hreplies⟩ := ih hafter
    rw [run_cons, stepsOf_cons, repliesOf_cons, hreply, htracker, hreplies]
    -- the step concerns the tracker, which takes it and replies, or it does neither
    cases seenAt i s with
    | none => exact ⟨rfl, rfl⟩
    | some step => exact ⟨rfl, rfl⟩

/-- The trackers of a session do not interfere. A run is a number of deliveries, each to one tracker and
one after the other, and an interruption of all is an interruption of each. Each tracker ends up as it
would after its own steps alone, and gives the same replies to them. The suite of all trackers is the
suite of the results that they would have alone, in their order. -/
theorem run_eq_alone (trackers : List Tracker) (steps : List Step) :
    (run trackers steps).1
        = (steps.flatMap (deliveries trackers.length)).foldl deliver trackers
      ∧ (∀ i t, trackers[i]? = some t →
        (run trackers steps).1[i]? = some (t.run (stepsOf i steps)).1
          ∧ repliesOf i (run trackers steps).2 = (t.run (stepsOf i steps)).2)
      ∧ ∀ k name, steps[k]? = some (.junitSuite name) →
        (run trackers steps).2[k]?.bind Reply.suite?
          = some (Junit.Suite.ofResults name
            (trackers.mapIdx fun i t => (t.run (stepsOf i (steps.take k))).1.build)) := by
  refine ⟨run_eq_deliver trackers steps, fun i t h => run_of_getElem? h steps, fun k name hk => ?_⟩
  have hbuilds : (run trackers (steps.take k)).1.map Tracker.build
      = trackers.mapIdx fun i t => (t.run (stepsOf i (steps.take k))).1.build := by
    refine List.ext_getElem? fun i => ?_
    rw [List.getElem?_map, List.getElem?_mapIdx]
    cases h : trackers[i]? with
    | some t => rw [(run_of_getElem? h _).1, Option.map_some, Option.map_some]
    | none =>
      rw [run_eq_deliver, getElem?_foldl_deliver, h]
      rfl
  rw [getElem?_replies_run, hk, ← hbuilds]
  rfl

/-- Two trackers, one of which is told of a failure after both were interrupted. -/
theorem run_eq_alone_interrupted :
    let first := Tracker.new (.ofMethod "C" "m") (.ofSuite "C") {}
    let second := Tracker.new (.ofMethod "C" "n") (.ofSuite "C") {}
    let steps : List Step := [.on 0 (.call .start 1), .on 1 (.exportRepeated "k" "v"),
      .interruptAll 5, .on 0 (.call (.fail (.ofMessage "boom")) 7), .junitSuite "s"]
    let out := run [first, second] steps
    [first, second][1]? = some second
      ∧ repliesOf 1 out.2 = (second.run [.exportRepeated "k" "v", .notice .interrupted 5, .build]).2
      ∧ steps[4]? = some (.junitSuite "s")
      ∧ out.2[4]?.bind Reply.suite? = some (Junit.Suite.ofResults "s"
        [(first.run [.call .start 1, .notice .interrupted 5,
            .call (.fail (.ofMessage "boom")) 7]).1.build,
          (second.run [.exportRepeated "k" "v", .notice .interrupted 5]).1.build]) := by
  intro first second steps out
  obtain ⟨-, halone, hsuite⟩ := run_eq_alone [first, second] steps
  exact ⟨rfl, (halone 1 second rfl).2, rfl, hsuite 4 "s" rfl⟩

end Casebook.Session
