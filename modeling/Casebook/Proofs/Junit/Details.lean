import Casebook.Proofs.Junit.Tally

/-!
# What a case says

A case that is no success comes with a message, a kind and a description. Skipped tests, errors and
failures get them in three different ways (`Verdict.details?_of_skipped`,
`Verdict.details?_of_interrupted`, `Verdict.details?_of_failed`), and `Case.details_ofResult` is the one
law that they follow: the status decides about the message and the kind, and never about the
description.

Fixed texts and the names of the statuses are plain as they are, so they stand in a case unchanged. The
texts of failures are made plain.
-/

namespace Casebook

/-! ## Texts between separators

The texts of a case are made plain only after they were joined. What is fixed in the program is not
changed by that, as it has no character that would be. -/

/-- Texts that are joined leave nothing only if there is none, or a single empty one. -/
theorem Text.intercalate_eq_empty_iff {sep : String} (hsep : sep ≠ "") (texts : List String) :
    sep.intercalate texts = "" ↔ texts = [] ∨ texts = [""] := by
  cases texts with
  | nil => simp
  | cons s rest =>
    cases rest with
    | nil => simp
    | cons t rest =>
      -- a separator stands between the first two texts
      have hjoin : sep.intercalate (s :: t :: rest) = s ++ sep ++ sep.intercalate (t :: rest) :=
        String.intercalate_cons_cons
      simp [hjoin, hsep]

theorem Status.plain_name (v : Status) : Text.plain v.name = v.name := by
  apply Text.plain_eq_self
  cases v <;> decide

namespace Junit

theorem plain_parentFailedMessage : Text.plain parentFailedMessage = parentFailedMessage := by
  apply Text.plain_eq_self
  decide

theorem plain_interruptedKind : Text.plain interruptedKind = interruptedKind := by
  apply Text.plain_eq_self
  decide

/-! ## Details of failures

The first failure gives the message and the kind. All failures together give the description, which the
three kinds of verdicts share. -/

theorem joinedTexts_eq (fs : List Failure) :
    joinedTexts fs
      = if "\n\n".intercalate (fs.filterMap Failure.text?) = "" then none
        else some ("\n\n".intercalate (fs.filterMap Failure.text?)) := by
  simp only [joinedTexts, String.isEmpty_iff]

namespace Details

variable (fs : List Failure)

theorem message_ofFailures : (ofFailures fs).message = fs.head?.bind Failure.message := by
  cases fs <;> rfl

theorem kind_ofFailures : (ofFailures fs).kind = fs.head?.bind Failure.kind := by
  cases fs <;> rfl

theorem description_ofFailures : (ofFailures fs).description = joinedTexts fs := by
  cases fs <;> rfl

end Details

/-! ## Details of a verdict

One lemma for each way to get details, by the status of the result. A status decides between them, so the
law below is these three put side by side. -/

namespace Verdict

/-- What a verdict says about a test that is no success. -/
def details? : Verdict → Option Details
  | success => none
  | failure d => some d
  | error d => some d
  | skipped d => some d

variable {r : Result}

theorem details?_of_skipped (h : r.status ∈ [.skipped, .suppressed, .cancelled]) :
    (ofResult r).details? = some
      { message := some r.status.name
        kind := none
        description := (joinedTexts r.failures).map Text.plain } := by
  have hverdict : ofResult r = .skipped
      { message := some r.status.name, description := joinedTexts r.failures : Details }.plain := by
    rw [ofResult]
    cases hstatus : r.status <;> simp [hstatus] at h ⊢
  rw [hverdict]
  simp [details?, Details.plain, Status.plain_name]

theorem details?_of_interrupted (h : r.status = .interrupted) :
    (ofResult r).details? = some
      { message := (r.failures.head?.bind Failure.message).map Text.plain
        kind := some interruptedKind
        description := (joinedTexts r.failures).map Text.plain } := by
  have hverdict : ofResult r
      = .error { Details.ofFailures r.failures with kind := some interruptedKind }.plain := by
    rw [ofResult, h]
  rw [hverdict]
  simp [details?, Details.plain, plain_interruptedKind, Details.message_ofFailures,
    Details.description_ofFailures]

/-- A test that failed without a failure of its own failed with the test that it belongs to. -/
theorem details?_of_failed (h : r.status = .completed) (hfailed : r.hasFailures = true) :
    (ofResult r).details? = some
      { message := if r.failures.isEmpty then some parentFailedMessage
          else (r.failures.head?.bind Failure.message).map Text.plain
        kind := (r.failures.head?.bind Failure.kind).map Text.plain
        description := (joinedTexts r.failures).map Text.plain } := by
  rw [ofResult, h]
  simp only [hfailed, if_true]
  cases hfs : r.failures with
  | nil =>
    have hnone : joinedTexts [] = none := rfl
    simp [details?, hnone, plain_parentFailedMessage]
  | cons f fs =>
    simp [details?, Details.plain, Details.message_ofFailures, Details.kind_ofFailures,
      Details.description_ofFailures]

end Verdict

/-- The case of a result. It is a success if and only if the test completed without failed units, and
says nothing more then. In every other case its description is made of the texts of all failures, each
its description or else its message, with a blank line between them, and is missing if that leaves
nothing; this does not depend on the status. Message and kind are those of the first failure, but for
the message of a skipped test, which is the name of its status, the message of a failed test without
failures, the kind of an error, and the kind of a skipped test, which is missing. -/
theorem Case.details_ofResult (r : Result) :
    let verdict := (Case.ofResult r).verdict
    let texts := r.failures.filterMap fun f => f.description.or f.message
    let text := "\n\n".intercalate texts
    (verdict = .success ↔ r.status = .completed ∧ r.numFailures = 0)
      ∧ (verdict.isFailure = true ↔ r.status = .completed ∧ r.numFailures ≠ 0)
      ∧ (verdict.isError = true ↔ r.status = .interrupted)
      ∧ (verdict.isSkipped = true ↔ r.status ∈ [.skipped, .suppressed, .cancelled])
      ∧ (verdict.details? =
        if verdict = .success then none
        else some
          { message :=
              if verdict.isSkipped then some r.status.name
              else if verdict.isFailure ∧ r.failures = [] then some "(the parent test failed)"
              else (r.failures.head?.bind Failure.message).map Text.plain
            kind :=
              if verdict.isError then some "interrupted"
              else if verdict.isSkipped then none
              else (r.failures.head?.bind Failure.kind).map Text.plain
            description := if text = "" then none else some (Text.plain text) })
      ∧ (text = "" ↔ texts = [] ∨ texts = [""]) := by
  intro verdict texts text
  have hverdict : verdict = .ofResult r := rfl
  obtain ⟨hfailure, herror, hskipped⟩ := Verdict.kinds_ofResult r
  have hcount : r.hasFailures = false ↔ r.numFailures = 0 := by
    rw [Result.hasFailures, decide_eq_false_iff_not]
    omega
  have hsuccess : verdict = .success ↔ r.status = .completed ∧ r.numFailures = 0 := by
    rw [hverdict, Verdict.ofResult_eq_success_iff, hcount]
  have hdescription : (joinedTexts r.failures).map Text.plain
      = if text = "" then none else some (Text.plain text) := by
    rw [joinedTexts_eq]
    show Option.map Text.plain (if text = "" then none else some text) = _
    split <;> rfl
  refine ⟨hsuccess, ?_, ?_, ?_, ?_, Text.intercalate_eq_empty_iff (by decide) texts⟩
  · rw [hverdict, hfailure, Bool.and_eq_true, decide_eq_true_iff, ← Bool.not_eq_false, hcount]
  · rw [hverdict, herror, decide_eq_true_iff]
  · rw [hverdict, hskipped, decide_eq_true_iff]
  · -- with the kinds told by the status, the law is a table by status, and each row is a lemma
    rw [hverdict, ← hdescription, hfailure, herror, hskipped]
    by_cases hnone : Verdict.ofResult r = .success
    · simp [hnone, Verdict.details?]
    · rw [if_neg hnone]
      cases hstatus : r.status with
      | completed =>
        have hfailed : r.hasFailures = true := by
          simpa [Verdict.ofResult_eq_success_iff, hstatus] using hnone
        rw [Verdict.details?_of_failed hstatus hfailed]
        simp [parentFailedMessage, hfailed]
      | interrupted =>
        rw [Verdict.details?_of_interrupted hstatus]
        simp [interruptedKind]
      | _ =>
        rw [Verdict.details?_of_skipped (by simp [hstatus])]
        simp [hstatus]

end Junit

end Casebook
