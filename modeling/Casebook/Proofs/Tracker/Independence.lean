import Casebook.Proofs.Tracker.Growth

/-!
# What a result depends on

A list of steps carries five streams: the signals with their times, the failures of the whole test, the
failures of each sub-test, the exports, and the discoveries. A result depends on each of them, but not on
how they are interleaved, nor on the questions in between (`Tracker.build_eq_of_sameStreams`).

Each field of a tracker follows its own stream. The lifecycle is a fold over the signals
(`Tracker.lifecycle_run`), in which a failure of a sub-test is no different from a failure of the test; the
store of properties is that of a run of the exports alone (`Tracker.properties_run_exports`); the
failures and the sub-tests are the streams themselves. The order in which sub-tests first failed is
known to a tracker, but `Tracker.build_congr` finds only the failures of each sub-test in a result.
-/

namespace Casebook

/-! ## Streams

A stream is what is left of a list of steps when all else is taken out of it. Calls and notices are in the
same streams, as a notice is read for the call that it stands for. Failures appear twice: as signals,
which move the lifecycle, and by what was reported, which is stored. -/

namespace Step

/-- The signals that are given in a list of steps, with their times. -/
def signals (steps : List Step) : List (Signal × Millis) :=
  steps.filterMap fun s => s.call?.map fun p => (p.1.signal, p.2)

def isExport : Step → Bool
  | .exportProperty _ _ | .exportRepeated _ _ => true
  | _ => false

/-- The exports in a list of steps. -/
def exports (steps : List Step) : List Step := steps.filter isExport

/-- Two lists of steps with the same streams, however these are interleaved. For failures of sub-tests
there is a stream for each id; the order of failures of different sub-tests is free. -/
structure SameStreams (a b : List Step) : Prop where
  signals : signals a = signals b
  failures : (calls a).filterMap Call.failure? = (calls b).filterMap Call.failure?
  subtestFailures : ∀ id,
    (calls a).filterMap (Call.subtestFailure? id) = (calls b).filterMap (Call.subtestFailure? id)
  exports : exports a = exports b
  discovered : discovered a = discovered b

end Step

namespace Tracker

/-! ## The lifecycle follows the signals

What failed, and with what, makes no difference to the lifecycle; only that something did, and when. -/

theorem lifecycle_run (t : Tracker) (steps : List Step) :
    (t.run steps).1.lifecycle
      = (Step.signals steps).foldl (fun l p => (l.signal p.1 p.2).lifecycle) t.lifecycle := by
  induction steps generalizing t with
  | nil => rfl
  | cons s steps ih =>
    rw [run_cons, ih (t.after s), lifecycle_after, Step.signals, Step.signals, List.filterMap_cons]
    cases s.call? with
    | none => rfl
    | some p => rfl

/-! ## The properties follow the exports

Properties are not a fold over names and values only: the name of a repeated export depends on the
repeated exports before it. Hence the store is compared together with these and with the settings of the
tracker. -/

/-- Two trackers with the same exports: they store the same properties, and number the next ones
alike. -/
structure SameExports (t t' : Tracker) : Prop where
  settings : t.settings = t'.settings
  repeated : t.repeated = t'.repeated
  properties : t.properties = t'.properties

/-- Equal exports stay equal under one more export. -/
theorem SameExports.after {t t' : Tracker} (h : SameExports t t') {s : Step}
    (hs : s.isExport = true) : SameExports (t.after s) (t'.after s) := by
  obtain ⟨hsettings, hrepeated, hproperties⟩ := h
  cases s with
  | exportProperty name value =>
    refine ⟨hsettings, hrepeated, ?_⟩
    show t.properties.insert name value = t'.properties.insert name value
    rw [hproperties]
  | exportRepeated base value =>
    have hname : t.nextName base = t'.nextName base := by
      rw [nextName, nextName, hrepeated, hsettings]
    refine ⟨hsettings, ?_, ?_⟩
    · show t.repeated ++ [base] = t'.repeated ++ [base]
      rw [hrepeated]
    · show t.properties.insert (t.nextName base) value = t'.properties.insert (t'.nextName base) value
      rw [hproperties, hname]
  | _ => simp [Step.isExport] at hs

/-- A step that is no export leaves them alone. -/
theorem sameExports_after (t : Tracker) {s : Step} (hs : s.isExport = false) :
    SameExports (t.after s) t := by
  cases s with
  | call c now =>
    obtain ⟨hsettings, hrepeated, hproperties⟩ := t.exports_call c now
    exact ⟨hsettings, hrepeated, hproperties⟩
  | notice n now =>
    obtain ⟨hsettings, hrepeated, hproperties⟩ := t.exports_call n.call now
    exact ⟨hsettings, hrepeated, hproperties⟩
  | exportProperty name value => exact nomatch hs
  | exportRepeated base value => exact nomatch hs
  | _ => exact ⟨rfl, rfl, rfl⟩

theorem SameExports.trans {t t' t'' : Tracker} (h : SameExports t t') (h' : SameExports t' t'') :
    SameExports t t'' :=
  ⟨h.settings.trans h'.settings, h.repeated.trans h'.repeated, h.properties.trans h'.properties⟩

/-- Taking everything else out of a run leaves its exports as they are. By induction on the steps: what is
taken out changes nothing on the one side, and what is left changes both sides alike. -/
theorem sameExports_run {t t' : Tracker} (h : SameExports t t') (steps : List Step) :
    SameExports (t.run steps).1 (t'.run (Step.exports steps)).1 := by
  induction steps generalizing t t' with
  | nil => exact h
  | cons s steps ih =>
    rw [Step.exports]
    cases hs : s.isExport with
    | true =>
      -- both runs make the export
      rw [List.filter_cons_of_pos hs]
      exact ih (h.after hs)
    | false =>
      -- only the whole run takes the step
      rw [List.filter_cons_of_neg (by simp [hs])]
      exact ih ((t.sameExports_after hs).trans h)

theorem properties_run_exports (t : Tracker) (steps : List Step) :
    (t.run steps).1.properties = (t.run (Step.exports steps)).1.properties :=
  (sameExports_run ⟨rfl, rfl, rfl⟩ steps).properties

/-! ## The result

With all five streams equal, the trackers can still differ in one respect, the order in which sub-tests
first failed. No result shows it. -/

/-- A result shows the failures of each sub-test, and how many sub-tests have failed, but not which of
them failed first. -/
theorem build_congr {t t' : Tracker} (hsubject : t.subject = t'.subject)
    (hparent : t.parent = t'.parent) (hlifecycle : t.lifecycle = t'.lifecycle)
    (hproperties : t.properties = t'.properties) (hfailures : t.failures = t'.failures)
    (hget : ∀ id, t.subtestFailures.get id = t'.subtestFailures.get id) : t.build = t'.build := by
  -- the number of failed ids is fixed by the failures of each id, in whatever order they failed
  have hsize : t.subtestFailures.size = t'.subtestFailures.size :=
    Nat.le_antisymm (FailureMap.size_le_of_get_ne_nil fun id hid => hget id ▸ hid)
      (FailureMap.size_le_of_get_ne_nil fun id hid => (hget id).symm ▸ hid)
  have hcount : t.numFailures = t'.numFailures := by
    rw [numFailures, numFailures, hfailures, hsize, hsubject]
  have hchildren : t.buildSubtest = t'.buildSubtest := by
    funext c
    rw [buildSubtest, buildSubtest, hsubject, hget, hlifecycle, hfailures]
  rw [build, build, hsubject, hparent, hproperties, hfailures, hlifecycle, hcount, hchildren]

/-- The result of a run, and so its line of JSON, depends only on the streams of the run. -/
theorem build_eq_of_sameStreams (subject parent : Subject) (settings : Settings)
    {a b : List Step} (h : Step.SameStreams a b) :
    let r := ((new subject parent settings).run a).1.build
    let r' := ((new subject parent settings).run b).1.build
    r = r' ∧ r.render = r'.render := by
  intro r r'
  have hparent (steps : List Step) :
      ((new subject parent settings).run steps).1.parent = parent.name :=
    (extends_run _ steps).parent
  have hbuild : r = r' := by
    refine build_congr ?_ ?_ ?_ ?_ ?_ fun id => ?_
    · rw [subject_run, subject_run, h.discovered]
    · rw [hparent, hparent]
    · rw [lifecycle_run, lifecycle_run, h.signals]
    · rw [properties_run_exports, h.exports, ← properties_run_exports]
    · rw [failures_run, failures_run, h.failures]
    · rw [get_subtestFailures_run, get_subtestFailures_run, h.subtestFailures]
  exact ⟨hbuild, congrArg Result.render hbuild⟩

/-- Two runs in which different sub-tests fail first, and in which the test is asked for its result at
different points. -/
theorem build_eq_of_sameStreams_other_first :
    let a : List Step := [.call .start 1, .call (.failSubtest ⟨"x"⟩ {}) 2, .exportRepeated "m" "1",
      .call (.failSubtest ⟨"y"⟩ (.ofMessage "boom")) 3, .addSubtest (.ofName "x"), .call .finish 5]
    let b : List Step := [.build, .addSubtest (.ofName "x"), .exportRepeated "m" "1", .call .start 1,
      .notice (.subtestFailed ⟨"y"⟩ (.ofMessage "boom")) 2, .render, .call (.failSubtest ⟨"x"⟩ {}) 3,
      .call .finish 5]
    let r := ((new (.ofMethod "C" "m") (.ofSuite "C") {}).run a).1.build
    let r' := ((new (.ofMethod "C" "m") (.ofSuite "C") {}).run b).1.build
    Step.SameStreams a b ∧ r = r' ∧ r.render = r'.render := by
  intro a b r r'
  have h : Step.SameStreams a b := by
    refine ⟨rfl, rfl, fun id => ?_, rfl, rfl⟩
    -- an id is that of one sub-test or of the other, but not of both
    by_cases hx : (⟨"x"⟩ : TestId) = id
    · subst hx
      rfl
    · have hnone : Call.subtestFailure? id (.failSubtest ⟨"x"⟩ {}) = none := if_neg hx
      show List.filterMap (Call.subtestFailure? id)
          [.start, .failSubtest ⟨"x"⟩ {}, .failSubtest ⟨"y"⟩ (.ofMessage "boom"), .finish]
        = List.filterMap (Call.subtestFailure? id)
          [.start, .failSubtest ⟨"y"⟩ (.ofMessage "boom"), .failSubtest ⟨"x"⟩ {}, .finish]
      simp only [List.filterMap_cons, hnone]
  exact ⟨h, build_eq_of_sameStreams (.ofMethod "C" "m") (.ofSuite "C") {} h⟩

end Tracker

end Casebook
