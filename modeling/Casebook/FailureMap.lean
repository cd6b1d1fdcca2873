import Casebook.Failure
import Casebook.Subject

/-!
# Failures of sub-tests

A `FailureMap` holds the failures of sub-tests, each under the id of the sub-test that they are
failures of. The first failure of an id opens an entry for it, and later ones are put at its end. No
id stands twice and none stands without a failure: both are fields of the type, so the number of
entries is the number of sub-tests that have failed.
-/

namespace Casebook

/-- The failures of sub-tests. -/
structure FailureMap where
  /-- Ids with their failures, in the order of the first failures. -/
  entries : List (TestId × List Failure)
  /-- No id stands twice. -/
  nodup_ids : (entries.map Prod.fst).Nodup
  /-- No id stands without a failure. -/
  ne_nil : ∀ e ∈ entries, e.2 ≠ []
deriving DecidableEq, Repr

namespace FailureMap

/-! ## Entries

Recording goes through the entries up to that of the id, or to the end. Each lemma here is by induction
along the entries, with the id of the head compared in every step. -/

/-- Puts a failure at the end of the entry of its id, or into a new entry at the end. -/
def recordEntry (id : TestId) (f : Failure) :
    List (TestId × List Failure) → List (TestId × List Failure)
  | [] => [(id, [f])]
  | (i, fs) :: rest => if i = id then (i, fs ++ [f]) :: rest else (i, fs) :: recordEntry id f rest

theorem mem_ids_recordEntry {id i : TestId} {f : Failure} {l : List (TestId × List Failure)} :
    i ∈ (recordEntry id f l).map Prod.fst ↔ i = id ∨ i ∈ l.map Prod.fst := by
  induction l with
  | nil => simp [recordEntry]
  | cons head rest ih =>
    obtain ⟨j, fs⟩ := head
    rw [recordEntry]
    split
    · next h => simp [h]
    · rw [List.map_cons, List.mem_cons, ih, List.map_cons, List.mem_cons]
      exact or_left_comm

theorem nodup_ids_recordEntry (id : TestId) (f : Failure) {l : List (TestId × List Failure)}
    (h : (l.map Prod.fst).Nodup) : ((recordEntry id f l).map Prod.fst).Nodup := by
  induction l with
  | nil => simp [recordEntry]
  | cons head rest ih =>
    obtain ⟨j, fs⟩ := head
    obtain ⟨hj, hrest⟩ := List.nodup_cons.1 h
    rw [recordEntry]
    split
    · exact h
    · next hne =>
      refine List.nodup_cons.2 ⟨fun hmem => ?_, ih hrest⟩
      rcases mem_ids_recordEntry.1 hmem with heq | hin
      · exact hne heq
      · exact hj hin

theorem ne_nil_recordEntry (id : TestId) (f : Failure) {l : List (TestId × List Failure)}
    (h : ∀ e ∈ l, e.2 ≠ []) : ∀ e ∈ recordEntry id f l, e.2 ≠ [] := by
  induction l with
  | nil => simp [recordEntry]
  | cons head rest ih =>
    obtain ⟨j, fs⟩ := head
    have hrest : ∀ e ∈ rest, e.2 ≠ [] := fun e he => h e (List.mem_cons_of_mem _ he)
    rw [recordEntry]
    split
    · exact List.forall_mem_cons.2 ⟨by simp, hrest⟩
    · exact List.forall_mem_cons.2 ⟨h (j, fs) List.mem_cons_self, ih hrest⟩

theorem lookup_recordEntry (id i : TestId) (f : Failure) (l : List (TestId × List Failure)) :
    ((recordEntry id f l).lookup i).getD []
      = if i = id then (l.lookup i).getD [] ++ [f] else (l.lookup i).getD [] := by
  induction l with
  | nil =>
    by_cases h : i = id
    · simp [recordEntry, h]
    · simp [recordEntry, List.lookup_cons, beq_false_of_ne h, if_neg h]
  | cons head rest ih =>
    obtain ⟨j, fs⟩ := head
    rw [recordEntry]
    by_cases hj : j = id
    · by_cases h : i = id
      · simp [hj, h]
      · simp [hj, List.lookup_cons, beq_false_of_ne h, if_neg h]
    · by_cases h : i = j
      · simp [h, hj]
      · simp only [if_neg hj, List.lookup_cons, beq_false_of_ne h, ih]

theorem lookup_eq_none_iff {i : TestId} {l : List (TestId × List Failure)} :
    l.lookup i = none ↔ i ∉ l.map Prod.fst := by
  induction l with
  | nil => simp
  | cons head rest ih =>
    obtain ⟨j, fs⟩ := head
    by_cases h : i = j
    · simp [h]
    · rw [List.lookup_cons, beq_false_of_ne h, List.map_cons, List.mem_cons, not_or]
      exact ih.trans (and_iff_right h).symm

theorem mem_of_lookup {i : TestId} {fs : List Failure} {l : List (TestId × List Failure)}
    (h : l.lookup i = some fs) : (i, fs) ∈ l := by
  induction l with
  | nil => simp at h
  | cons head rest ih =>
    obtain ⟨j, gs⟩ := head
    by_cases hij : i = j
    · subst hij
      simp only [List.lookup_cons_self, Option.some.injEq] at h
      exact h ▸ List.mem_cons_self
    · rw [List.lookup_cons, beq_false_of_ne hij] at h
      exact List.mem_cons_of_mem _ (ih h)

/-! ## The map

The order of the entries is that in which sub-tests first failed. It is kept for the sake of a defined
order and shows nowhere. -/

/-- No failures. -/
def empty : FailureMap := ⟨[], .nil, by simp⟩

instance : EmptyCollection FailureMap := ⟨empty⟩

instance : Inhabited FailureMap := ⟨empty⟩

/-- Records a failure of a sub-test, after those that it has. -/
def record (m : FailureMap) (id : TestId) (f : Failure) : FailureMap :=
  ⟨recordEntry id f m.entries, nodup_ids_recordEntry id f m.nodup_ids,
    ne_nil_recordEntry id f m.ne_nil⟩

/-- The failures of a sub-test, in the order in which they were recorded. -/
def get (m : FailureMap) (id : TestId) : List Failure := (m.entries.lookup id).getD []

/-- The sub-tests that have failed, each once. -/
def ids (m : FailureMap) : List TestId := m.entries.map Prod.fst

/-- The number of sub-tests that have failed. -/
def size (m : FailureMap) : Nat := m.entries.length

/-! ## What a map holds

All that is needed later is what can be looked up. The entries are not opened outside of this module. -/

theorem length_ids (m : FailureMap) : m.ids.length = m.size := List.length_map _

theorem get_empty (id : TestId) : (∅ : FailureMap).get id = [] := rfl

/-- Recording a failure adds it to the failures of its sub-test and leaves all others alone. -/
theorem get_record (m : FailureMap) (id i : TestId) (f : Failure) :
    (m.record id f).get i = if i = id then m.get i ++ [f] else m.get i :=
  lookup_recordEntry id i f m.entries

/-- The sub-tests that have failed are those with failures. -/
theorem get_eq_nil_iff {m : FailureMap} {id : TestId} : m.get id = [] ↔ id ∉ m.ids := by
  rw [ids, ← lookup_eq_none_iff, get]
  cases h : m.entries.lookup id with
  | none => simp
  | some fs => simpa using m.ne_nil _ (mem_of_lookup h)

end FailureMap

end Casebook
