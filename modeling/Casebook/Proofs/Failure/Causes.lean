import Mathlib.Data.List.Induction
import Casebook.Failure

/-!
# What a failure tells of its cause

A chain of errors is what is met when sources are followed from an error (`Cause.chain`). The description
of a failure that came from an error is the text that grows along this chain, one error at a time
(`Cause.walk`); `Cause.walk_eq` is the invariant of the growing text, and `Cause.trail_eq` says what it
has grown to at the end.

What is set later replaces the kind and the description, and the last word on each of them counts
(`Failure.setAll_eq`). The message stays.
-/

namespace Casebook

namespace Cause

/-! ## Chains

Following sources one at a time and listing a chain are two ways to the same errors. The first is how a
chain is met, the second what the texts are taken from. -/

/-- The errors of a chain, outermost first. -/
def chain : Cause → List Cause
  | causedBy m s => causedBy m s :: s.chain
  | c => [c]

/-- The error that is reached when sources are followed a number of times. -/
def nthSource? (c : Cause) : Nat → Option Cause
  | 0 => some c
  | n + 1 => (c.nthSource? n).bind source?

theorem nthSource?_succ (c : Cause) (n : Nat) :
    c.nthSource? (n + 1) = c.source?.bind fun s => s.nthSource? n := by
  induction n with
  | zero =>
    show c.source? = _
    cases c.source? <;> rfl
  | succ n ih =>
    rw [nthSource?, ih]
    cases c.source? <;> rfl

/-- Every error that can be reached stands once in the chain, at the number of its steps. -/
theorem getElem?_chain (c : Cause) (n : Nat) : c.chain[n]? = c.nthSource? n := by
  induction c generalizing n with
  | causedBy m s ih =>
    cases n with
    | zero => rfl
    | succ n =>
      rw [nthSource?_succ, chain, List.getElem?_cons_succ, ih]
      rfl
  | _ =>
    cases n with
    | zero => rfl
    | succ n => rw [nthSource?_succ]; rfl

theorem messages_eq (c : Cause) : c.messages = c.chain.map message := by
  induction c with
  | causedBy m s ih =>
    rw [messages, chain, ih]
    rfl
  | _ => rfl

theorem messages_ne_nil (c : Cause) : c.messages ≠ [] := by
  cases c <;> exact nofun

/-! ## The text along a chain

The description grows as long as there is a source. `Cause.Walk` is the state of this loop, and
`Cause.walk_eq` its invariant, by induction on the number of steps. -/

/-- How far a chain has been told: the text so far, and the error that comes next. -/
structure Walk where
  told : String
  next? : Option Cause

namespace Walk

/-- The text with the next error told. At the end of the chain nothing changes. -/
def step (w : Walk) : Walk :=
  match w.next? with
  | some c => ⟨w.told ++ separator ++ c.message, c.source?⟩
  | none => w

end Walk

/-- The walk along the chain of an error, after a number of steps. -/
def walk (c : Cause) : Nat → Walk
  | 0 => ⟨c.message, c.source?⟩
  | n + 1 => (c.walk n).step

/-- After `n` steps the first `n + 1` errors have been told, in their order, and the one behind them
comes next. -/
theorem walk_eq (c : Cause) (n : Nat) :
    c.walk n = ⟨separator.intercalate (c.messages.take (n + 1)), c.chain[n + 1]?⟩ := by
  induction n with
  | zero =>
    rw [getElem?_chain, nthSource?_succ]
    cases c <;> simp [walk, messages, source?, message, nthSource?]
  | succ n ih =>
    -- the error behind the next one is its source
    have hnext : c.chain[n + 2]? = c.chain[n + 1]?.bind source? := by
      rw [getElem?_chain, getElem?_chain, nthSource?]
    rw [walk, ih, Walk.step, hnext]
    cases hd : c.chain[n + 1]? with
    | none =>
      -- the chain has ended, so there is nothing more to tell
      have hlength : c.messages.length ≤ n + 1 := by
        rw [messages_eq, List.length_map]
        exact List.getElem?_eq_none_iff.1 hd
      rw [List.take_of_length_le hlength, List.take_of_length_le (Nat.le_succ_of_le hlength)]
      rfl
    | some d =>
      have htexts : c.messages.take (n + 2) = c.messages.take (n + 1) ++ [d.message] := by
        rw [List.take_add_one, messages_eq, List.getElem?_map, hd]
        rfl
      have hne : c.messages.take (n + 1) ≠ [] := by
        simp [c.messages_ne_nil]
      rw [htexts, String.intercalate_append_of_ne_nil hne (List.cons_ne_nil _ _),
        String.intercalate_singleton]
      rfl

/-- The text that stands at the end of the walk. -/
theorem trail_eq (c : Cause) : c.trail = separator.intercalate c.messages := by
  induction c with
  | causedBy m s ih =>
    rw [trail, messages, String.intercalate_cons_of_ne_nil s.messages_ne_nil, ih]
  | _ => rw [trail, messages, String.intercalate_singleton] <;> exact nofun

/-- At the end of the chain all errors have been told and none comes next. -/
theorem walk_end (c : Cause) : c.walk (c.messages.length - 1) = ⟨c.trail, none⟩ := by
  have hlength : c.chain.length = c.messages.length := by
    rw [messages_eq, List.length_map]
  have hpos : 0 < c.messages.length := List.length_pos_iff.2 c.messages_ne_nil
  rw [walk_eq, Nat.sub_add_cancel hpos, List.take_length, trail_eq,
    List.getElem?_eq_none (Nat.le_of_eq hlength)]

end Cause

/-! ## Details

What is set later goes through the failure one detail at a time. The induction takes the last detail off,
as that is the one that counts. -/

namespace Failure

/-- The kind that a detail sets. -/
def Detail.kind? : Detail → Option String
  | kind s => some s
  | description _ => none

/-- The description that a detail sets. -/
def Detail.description? : Detail → Option String
  | kind _ => none
  | description s => some s

/-- The last kind and the last description that are set replace those of the failure; one that is never
set stays, and so does the message. -/
theorem setAll_eq (f : Failure) (details : List Detail) : f.setAll details =
    { message := f.message
      kind := (details.filterMap Detail.kind?).getLast?.or f.kind
      description := (details.filterMap Detail.description?).getLast?.or f.description } := by
  induction details using List.reverseRecOn with
  | nil => rfl
  | append_singleton details d ih =>
    have hset : f.setAll (details ++ [d]) = (f.setAll details).set d := by
      rw [setAll, List.foldl_append]
      rfl
    rw [hset, ih]
    cases d <;> simp [set, Detail.kind?, Detail.description?]

/-- The failure that comes from an error visits every error of its chain once and in order, from the
error itself along the sources: after `n` steps the texts of the first `n + 1` are told, and at the end
of the chain all of them are, which is its description. Its message is the text of the error itself, and
it has no kind. Whatever is set later, the message stays, and of each of kind and description the last
one counts, if there is any. -/
theorem ofCause_tells (c : Cause) (details : List Detail) :
    let texts := c.chain.map Cause.message
    let told := "\n  caused by: ".intercalate texts
    let f := ofCause c
    let g := f.setAll details
    (∀ n, c.chain[n]? = c.nthSource? n)
      ∧ (∀ n, c.walk n = ⟨"\n  caused by: ".intercalate (texts.take (n + 1)), c.chain[n + 1]?⟩)
      ∧ c.walk (texts.length - 1) = ⟨told, none⟩
      ∧ f = { message := some c.message, kind := none, description := some told }
      ∧ g.message = some c.message
      ∧ g.kind = (details.filterMap Detail.kind?).getLast?
      ∧ g.description = (details.filterMap Detail.description?).getLast?.or (some told) := by
  intro texts told f g
  have htexts : texts = c.messages := c.messages_eq.symm
  have htold : told = c.trail := by
    rw [Cause.trail_eq, ← htexts]
    rfl
  have hf : f = { message := some c.message, kind := none, description := some told } := by
    rw [htold]
    rfl
  have hg : g = _ := setAll_eq f details
  refine ⟨c.getElem?_chain, ?_, ?_, hf, ?_, ?_, ?_⟩
  · rw [htexts]
    exact c.walk_eq
  · rw [htexts, htold, Cause.walk_end]
  · rw [hg, hf]
  · rw [hg, hf, Option.or_none]
  · rw [hg, hf]

/-- A failure with an empty text in the middle of its chain, to which details are added. -/
example :
    let c : Cause := .causedBy "assertion failed" (.causedBy "" (.inverted ⟨5, 3⟩))
    (ofCause c).setAll [.kind "A", .kind "B"]
      = { message := some "assertion failed"
          kind := some "B"
          description := some ("assertion failed\n  caused by: \n  caused by: "
            ++ "interval start (5 ms) is after its end (3 ms)") } := by
  decide

end Failure

end Casebook
