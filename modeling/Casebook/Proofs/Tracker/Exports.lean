import Mathlib.Data.List.Induction
import Casebook.Proofs.Text.ByteOrder
import Casebook.Proofs.Tracker.Run

/-!
# Exported properties of a run

A plain export stores a value under its own name. A repeated export stores one under its base name and a
number, which counts the exports of that base name; so the name depends on the history, and
`Step.storedAt?` says what the step at a position of a list of steps stores. The store at the end holds
the last entry of every name, and nothing else:

* `Tracker.properties_run_concat` follows one step at the end of a run: it stores its entry, if it has
  one.
* `Tracker.mem_entries_run` and `Tracker.mem_names_run` follow the whole run, by induction from its
  end, and `Tracker.properties_build_run` is the store of the result.

Numbers keep the exports of one base name apart, not those of two base names, nor do they avoid the
names of plain exports. `Tracker.exportRepeated_new_iff` says exactly when a repeated export gets a new
name, and what it leaves of the store otherwise.
-/

namespace Casebook

/-- A number is told by its decimal digits. -/
theorem Text.eq_of_toString_eq {m n : Nat} (h : toString m = toString n) : m = n := by
  have hdigits : Nat.toDigits 10 m = Nat.toDigits 10 n := by
    rw [← Nat.toList_repr, ← Nat.toList_repr]
    exact congrArg String.toList h
  rw [← Nat.ofDigitChars_ten_toDigits (n := m), hdigits, Nat.ofDigitChars_ten_toDigits]

/-! ## Histories of exports

What an export stores depends on the steps before it, so these definitions speak of a step at a position
of a list of steps. -/

namespace Step

/-- The base name of a repeated export. -/
def base? : Step → Option String
  | .exportRepeated base _ => some base
  | _ => none

/-- The base names of the repeated exports in a list of steps, in their order. -/
def bases (steps : List Step) : List String := steps.filterMap base?

/-- The name that a repeated export gets after a list of steps: the base name, and the number of its
earlier exports, counted from `first`. -/
def numbered (first : Nat) (before : List Step) (base : String) : String :=
  base ++ toString (first + (bases before).count base)

/-- The entry that a step stores after a list of steps. -/
def stored? (first : Nat) (before : List Step) : Step → Option (String × String)
  | .exportProperty name value => some (name, value)
  | .exportRepeated base value => some (numbered first before base, value)
  | _ => none

/-- The entry that the step at a position of a list of steps stores. -/
def storedAt? (first : Nat) (steps : List Step) (i : Nat) : Option (String × String) :=
  steps[i]?.bind (stored? first (steps.take i))

/-- An entry is stored at some position, and none of its name later on. -/
def LastEntry (first : Nat) (steps : List Step) (name value : String) : Prop :=
  ∃ i, storedAt? first steps i = some (name, value)
    ∧ ∀ j w, i < j → storedAt? first steps j ≠ some (name, w)

variable {first : Nat} {steps : List Step} {s : Step} {i : Nat}

/-! ### One step more

Histories of exports are followed from their ends: a name depends on what came before, so a step more at
the end changes no name that was given already. What it changes is which entry of its name is the last. -/

theorem bases_append (steps more : List Step) : bases (steps ++ more) = bases steps ++ bases more :=
  List.filterMap_append

theorem storedAt?_concat_of_lt (h : i < steps.length) :
    storedAt? first (steps ++ [s]) i = storedAt? first steps i := by
  rw [storedAt?, List.getElem?_append_left h, List.take_append_of_le_length (Nat.le_of_lt h)]
  rfl

theorem storedAt?_concat_length :
    storedAt? first (steps ++ [s]) steps.length = stored? first steps s := by
  rw [storedAt?, List.getElem?_concat_length, List.take_left]
  rfl

theorem lt_length_of_storedAt? {e : String × String} (h : storedAt? first steps i = some e) :
    i < steps.length := by
  obtain ⟨s, hs, -⟩ := Option.bind_eq_some_iff.1 h
  exact (List.getElem?_eq_some_iff.1 hs).1

/-- The positions that store an entry, after one step more. -/
theorem storedAt?_concat_iff {e : String × String} :
    storedAt? first (steps ++ [s]) i = some e
      ↔ storedAt? first steps i = some e ∨ i = steps.length ∧ stored? first steps s = some e := by
  constructor
  · intro h
    -- the position is one of the old ones, where nothing has changed, or the new one
    have hlt := lt_length_of_storedAt? h
    rw [List.length_append, List.length_singleton] at hlt
    rcases Nat.lt_succ_iff_lt_or_eq.1 hlt with hi | rfl
    · exact .inl (storedAt?_concat_of_lt hi ▸ h)
    · exact .inr ⟨rfl, storedAt?_concat_length ▸ h⟩
  · rintro (h | ⟨rfl, h⟩)
    · rw [storedAt?_concat_of_lt (lt_length_of_storedAt? h)]
      exact h
    · rw [storedAt?_concat_length]
      exact h

/-- After one step more the last entry of a name is the one that this step stores, or else the one that was
the last before, if this step stores none of that name. -/
theorem lastEntry_concat_iff {name value : String} :
    LastEntry first (steps ++ [s]) name value
      ↔ stored? first steps s = some (name, value)
        ∨ LastEntry first steps name value ∧ ∀ w, stored? first steps s ≠ some (name, w) := by
  constructor
  · rintro ⟨i, hi, hlast⟩
    rcases storedAt?_concat_iff.1 hi with hi | ⟨-, hs⟩
    · -- neither a later position nor the step at the end stores an entry of the name
      refine .inr ⟨⟨i, hi, fun j w hij hj => ?_⟩, fun w hw => ?_⟩
      · exact hlast j w hij (storedAt?_concat_iff.2 (.inl hj))
      · exact hlast _ w (lt_length_of_storedAt? hi) (storedAt?_concat_iff.2 (.inr ⟨rfl, hw⟩))
    · exact .inl hs
  · rintro (hs | ⟨⟨i, hi, hlast⟩, hs⟩)
    · -- nothing comes after the step at the end
      refine ⟨steps.length, storedAt?_concat_iff.2 (.inr ⟨rfl, hs⟩), fun j w hj h => ?_⟩
      have hlt := lt_length_of_storedAt? h
      rw [List.length_append, List.length_singleton] at hlt
      omega
    · refine ⟨i, storedAt?_concat_iff.2 (.inl hi), fun j w hij hj => ?_⟩
      rcases storedAt?_concat_iff.1 hj with hj | ⟨-, hw⟩
      · exact hlast j w hij hj
      · exact hs w hw

/-- Where an entry of a name is stored, there is a last one. -/
theorem exists_lastEntry {name value : String} (h : storedAt? first steps i = some (name, value)) :
    ∃ w, LastEntry first steps name w := by
  induction steps using List.reverseRecOn generalizing i value with
  | nil => simp [storedAt?] at h
  | append_singleton steps s ih =>
    rcases storedAt?_concat_iff.1 h with hi | ⟨-, hs⟩
    · obtain ⟨w, hw⟩ := ih hi
      rcases Classical.em (∃ v, stored? first steps s = some (name, v)) with ⟨v, hv⟩ | hnone
      · exact ⟨v, lastEntry_concat_iff.2 (.inl hv)⟩
      · exact ⟨w, lastEntry_concat_iff.2 (.inr ⟨hw, not_exists.1 hnone⟩)⟩
    · exact ⟨value, lastEntry_concat_iff.2 (.inl hs)⟩

/-! ### Names of repeated exports

The number in a name counts the exports of its base name. So one base name never meets itself, and all
that can stand in the way of a repeated export are plain exports and other base names. -/

/-- A base name never gets the same number twice: the export at the position is counted after it. -/
theorem numbered_take_ne {base value : String} (h : steps[i]? = some (.exportRepeated base value)) :
    numbered first (steps.take i) base ≠ numbered first steps base := by
  obtain ⟨hi, hs⟩ := List.getElem?_eq_some_iff.1 h
  have hcount : (bases steps).count base
      = (bases (steps.take i)).count base + (bases (steps.drop i)).count base := by
    rw [← List.count_append, ← bases_append, List.take_append_drop]
  have hpos : 0 < (bases (steps.drop i)).count base := by
    rw [List.drop_eq_getElem_cons hi, hs]
    show 0 < (base :: bases (steps.drop (i + 1))).count base
    rw [List.count_cons_self]
    exact Nat.succ_pos _
  intro heq
  have hnum := Text.eq_of_toString_eq ((String.append_right_inj base).1 heq)
  omega

/-- A name is stored under by a plain export of that very name, or by a repeated export that gets it. -/
theorem exists_storedAt?_iff {name : String} :
    (∃ i value, storedAt? first steps i = some (name, value))
      ↔ (∃ value, .exportProperty name value ∈ steps)
        ∨ ∃ i base value, steps[i]? = some (.exportRepeated base value)
          ∧ numbered first (steps.take i) base = name := by
  constructor
  · rintro ⟨i, value, h⟩
    obtain ⟨s, hs, he⟩ := Option.bind_eq_some_iff.1 h
    cases s with
    | exportProperty n v =>
      obtain ⟨rfl, rfl⟩ := Prod.mk.inj (Option.some.inj he)
      exact .inl ⟨_, List.mem_of_getElem? hs⟩
    | exportRepeated base v =>
      obtain ⟨hname, rfl⟩ := Prod.mk.inj (Option.some.inj he)
      exact .inr ⟨i, base, _, hs, hname⟩
    | _ => simp [stored?] at he
  · rintro (⟨value, h⟩ | ⟨i, base, value, hs, hname⟩)
    · obtain ⟨i, hi⟩ := List.mem_iff_getElem?.1 h
      exact ⟨i, value, Option.bind_eq_some_iff.2 ⟨_, hi, rfl⟩⟩
    · exact ⟨i, value, Option.bind_eq_some_iff.2 ⟨_, hs, by rw [stored?, hname]⟩⟩

/-- A name that a repeated export would get has been used before by a plain export of that very name, or
by a repeated export of another base name. -/
theorem exists_storedAt?_numbered_iff {base : String} :
    (∃ i value, storedAt? first steps i = some (numbered first steps base, value))
      ↔ (∃ value, .exportProperty (numbered first steps base) value ∈ steps)
        ∨ ∃ i other value, steps[i]? = some (.exportRepeated other value) ∧ other ≠ base
          ∧ numbered first (steps.take i) other = numbered first steps base := by
  rw [exists_storedAt?_iff]
  refine or_congr_right ⟨?_, ?_⟩
  · rintro ⟨i, other, value, hs, hname⟩
    refine ⟨i, other, value, hs, ?_, hname⟩
    rintro rfl
    exact numbered_take_ne hs hname
  · rintro ⟨i, other, value, hs, -, hname⟩
    exact ⟨i, other, value, hs, hname⟩

end Step

namespace Tracker

variable (t : Tracker) (s : Step) (steps : List Step)

/-! ## What a step does

Exports depend on the settings, which never change, and on the base names that were counted. Calls touch
neither, nor the properties, so exports can be followed without a look at the lifecycle. -/

/-- A call leaves all that exports depend on alone. -/
theorem exports_call (c : Call) (now : Millis) :
    (t.call c now).settings = t.settings ∧ (t.call c now).repeated = t.repeated
      ∧ (t.call c now).properties = t.properties := by
  cases c <;> exact ⟨rfl, rfl, rfl⟩

theorem settings_after : (t.after s).settings = t.settings := by
  cases s with
  | call c now => exact (t.exports_call c now).1
  | notice n now => exact (t.exports_call n.call now).1
  | _ => rfl

theorem repeated_after : (t.after s).repeated = t.repeated ++ s.base?.toList := by
  cases s with
  | call c now => exact (t.exports_call c now).2.1.trans (List.append_nil _).symm
  | notice n now => exact (t.exports_call n.call now).2.1.trans (List.append_nil _).symm
  | exportRepeated base value => rfl
  | _ => exact (List.append_nil _).symm

/-! ## What a run does

The settings stay and the base names add up, by induction on the steps. With that the next name is known
after any run, and the store can be followed from the end of the run: one step more inserts one entry or
none, and that is how `Step.LastEntry` changes as well. -/

theorem settings_run : (t.run steps).1.settings = t.settings := by
  induction steps generalizing t with
  | nil => rfl
  | cons s steps ih => exact (ih (t.after s)).trans (t.settings_after s)

theorem repeated_run : (t.run steps).1.repeated = t.repeated ++ Step.bases steps := by
  induction steps generalizing t with
  | nil => exact (List.append_nil _).symm
  | cons s steps ih =>
    rw [run_cons, ih (t.after s), repeated_after, List.append_assoc, Step.bases, Step.bases,
      List.filterMap_cons]
    cases s.base? <;> rfl

section

variable (subject parent : Subject) (settings : Settings)

theorem nextName_run (base : String) :
    ((new subject parent settings).run steps).1.nextName base
      = Step.numbered settings.firstIndex steps base := by
  rw [nextName, repeated_run, settings_run, Step.numbered, Nat.add_comm]
  rfl

/-- A step at the end of a run stores its entry, if it has one, and leaves the store alone otherwise. -/
theorem properties_run_concat :
    ((new subject parent settings).run (steps ++ [s])).1.properties
      = (Step.stored? settings.firstIndex steps s).elim
        ((new subject parent settings).run steps).1.properties
        fun e => ((new subject parent settings).run steps).1.properties.insert e.1 e.2 := by
  rw [run_append]
  show (((new subject parent settings).run steps).1.after s).properties = _
  cases s with
  | call c now => exact (exports_call _ c now).2.2
  | notice n now => exact (exports_call _ n.call now).2.2
  | exportRepeated base value =>
    show Properties.insert _ (nextName _ base) value = _
    rw [nextName_run]
    rfl
  | _ => rfl

/-- The store after a run holds the last entry of every name. The induction takes the last step off the
run, since an entry may only be replaced by a later one. -/
theorem mem_entries_run (name value : String) :
    (name, value) ∈ ((new subject parent settings).run steps).1.properties.entries
      ↔ Step.LastEntry settings.firstIndex steps name value := by
  induction steps using List.reverseRecOn with
  | nil => exact iff_of_false List.not_mem_nil fun ⟨i, hi, _⟩ => by simp [Step.storedAt?] at hi
  | append_singleton steps s ih =>
    rw [properties_run_concat, Step.lastEntry_concat_iff, ← ih]
    cases hs : Step.stored? settings.firstIndex steps s with
    | none => simp
    | some e =>
      rw [Option.elim_some, Properties.mem_entries_insert]
      simp [Prod.ext_iff, eq_comm]

/-- The names in the store after a run are those that something was stored under. -/
theorem mem_names_run (name : String) :
    name ∈ ((new subject parent settings).run steps).1.properties.names
      ↔ ∃ i value, Step.storedAt? settings.firstIndex steps i = some (name, value) := by
  simp only [Properties.mem_names_iff, mem_entries_run]
  constructor
  · rintro ⟨value, i, hi, -⟩
    exact ⟨i, value, hi⟩
  · rintro ⟨i, value, hi⟩
    exact Step.exists_lastEntry hi

end

/-! ## The store of a result

A result has the store of its tracker, and its children have empty ones. What is stored can be said from
the steps alone: the last export of each name counts. -/

/-- Repeated exports of a base name are numbered from the first index on, whatever happens between
them. The result holds the last entry of every name that anything was exported under, in the order of
the bytes of the names, and the results of sub-tests hold none. -/
theorem properties_build_run (subject parent : Subject) (settings : Settings) (steps : List Step) :
    let run := (new subject parent settings).run steps
    let first := settings.firstIndex
    (∀ i base value, steps[i]? = some (.exportRepeated base value) →
      run.2[i]?.map Reply.answer
        = some (.name (base ++ toString (first + (Step.bases (steps.take i)).count base))))
      ∧ (∀ name value, (name, value) ∈ run.1.build.properties.entries
        ↔ ∃ i, Step.storedAt? first steps i = some (name, value)
          ∧ ∀ j w, i < j → Step.storedAt? first steps j ≠ some (name, w))
      ∧ run.1.build.properties.entries.Pairwise (fun a b => Text.bytes a.1 < Text.bytes b.1)
      ∧ ∀ r ∈ run.1.build.children, r.properties = ∅ := by
  intro run first
  refine ⟨fun i base value hi => ?_, mem_entries_run steps subject parent settings, ?_, ?_⟩
  · show ((new subject parent settings).run steps).2[i]?.map Reply.answer = _
    rw [getElem?_replies_run, hi]
    show some (Answer.name (nextName _ base)) = _
    rw [nextName_run]
    rfl
  · exact run.1.build.properties.ascending.imp Text.bytes_lt_bytes_iff.2
  · intro r hr
    obtain ⟨c, -, rfl⟩ := List.mem_map.1 hr
    rfl

/-- Two exports of one base name, counted from seven, with a plain export between them that takes the
place of the first. -/
theorem properties_build_run_interleaved :
    let steps : List Step := [.exportRepeated "m" "1", .exportProperty "m7" "x",
      .exportRepeated "m" "3"]
    let run := (new (.ofMethod "C" "m") (.ofSuite "C") { firstIndex := 7 }).run steps
    steps[2]? = some (.exportRepeated "m" "3")
      ∧ run.2[2]?.map Reply.answer = some (.name "m8")
      ∧ ("m7", "x") ∈ run.1.build.properties.entries := by
  intro steps run
  have h := properties_build_run (.ofMethod "C" "m") (.ofSuite "C") { firstIndex := 7 } steps
  have hname : "m8" = "m" ++ toString (7 + 1) := by decide +kernel
  refine ⟨rfl, ?_, (h.2.1 "m7" "x").2 ⟨1, rfl, fun j w hj hw => ?_⟩⟩
  · rw [hname]
    exact h.1 2 "m" "3" rfl
  · -- the only later step is the second export, which stores another name
    obtain _ | _ | _ | j := j
    · omega
    · omega
    · have hstored : "m" ++ toString (7 + 1) = "m7" := congrArg Prod.fst (Option.some.inj hw)
      exact absurd hstored (by decide +kernel)
    · exact absurd hw (by simp [Step.storedAt?, steps])

/-- A repeated export gets a new name if and only if no plain export of that very name came before it,
and no repeated export of another base name that got the same name. It adds one entry then. In any
case it keeps exactly the entries of other names and an entry of the same name and value. -/
theorem exportRepeated_new_iff (subject parent : Subject) (settings : Settings) (steps : List Step)
    (base value : String) :
    let t := ((new subject parent settings).run steps).1
    let stored := (t.after (.exportRepeated base value)).properties.entries
    let name := base ++ toString (settings.firstIndex + (Step.bases steps).count base)
    t.answer (.exportRepeated base value) = .name name
      ∧ (name ∉ t.properties.names
        ↔ (∀ v, .exportProperty name v ∉ steps)
          ∧ ∀ i other v, steps[i]? = some (.exportRepeated other v) → other ≠ base →
            other ++ toString (settings.firstIndex + (Step.bases (steps.take i)).count other) ≠ name)
      ∧ (name ∉ t.properties.names → stored.Perm ((name, value) :: t.properties.entries))
      ∧ ∀ e ∈ t.properties.entries, e ∈ stored ↔ (e.1 = name → e.2 = value) := by
  intro t stored name
  have hname : t.nextName base = name := nextName_run steps subject parent settings base
  have hstored : stored = (t.properties.insert name value).entries := by
    show (t.properties.insert (t.nextName base) value).entries = _
    rw [hname]
  refine ⟨congrArg Answer.name hname, ?_, fun hnew => ?_, fun e he => ?_⟩
  · have hused : (∃ i v, Step.storedAt? settings.firstIndex steps i = some (name, v)) ↔ _ :=
      Step.exists_storedAt?_numbered_iff
    rw [mem_names_run, hused]
    simp only [not_or, not_exists, not_and]
    rfl
  · rw [hstored]
    exact Properties.insertEntry_perm value hnew
  · rw [hstored, Properties.mem_entries_insert]
    constructor
    · rintro (rfl | ⟨-, hne⟩) hn
      · rfl
      · exact absurd hn hne
    · intro h
      by_cases hn : e.1 = name
      · exact .inl (Prod.ext hn (h hn))
      · exact .inr ⟨he, hn⟩

/-- A repeated export may get a name that is taken, even by a repeated export of another base name, and
what was stored under it is lost then: the eleventh export of one base name and the first of another
get the same name. No index is anywhere near its limit there. -/
theorem exportRepeated_name_taken :
    (¬ ∀ (subject parent : Subject) (settings : Settings) (steps : List Step)
        (base value name : String), settings.firstIndex + steps.length < UInt64.size →
      ((new subject parent settings).run steps).1.answer (.exportRepeated base value) = .name name →
      name ∉ ((new subject parent settings).run steps).1.properties.names)
    ∧ (¬ ∀ (subject parent : Subject) (settings : Settings) (steps : List Step) (i j : Nat)
        (base other value value' name : String), settings.firstIndex + steps.length < UInt64.size →
      i < j → steps[i]? = some (.exportRepeated base value) →
      steps[j]? = some (.exportRepeated other value') →
      ((new subject parent settings).run steps).2[i]?.map Reply.answer = some (.name name) →
      ((new subject parent settings).run steps).2[j]?.map Reply.answer ≠ some (.name name))
    ∧ ¬ ∀ (subject parent : Subject) (settings : Settings) (steps : List Step)
        (base value : String), settings.firstIndex + steps.length < UInt64.size →
      ∀ e ∈ ((new subject parent settings).run steps).1.properties.entries,
        e ∈ (((new subject parent settings).run steps).1.after
          (.exportRepeated base value)).properties.entries := by
  let before : List Step :=
    List.replicate 10 (.exportRepeated "a" "kept") ++ [.exportRepeated "a" "lost"]
  let t : Tracker := ((new (.ofMethod "C" "m") (.ofSuite "C") {}).run before).1
  have hname : t.nextName "a1" = "a11" := by decide +kernel
  have hstored : ("a11", "lost") ∈ t.properties.entries := by decide +kernel
  have hlost : ("a11", "lost") ∉ (t.after (.exportRepeated "a1" "new")).properties.entries := by
    decide +kernel
  refine ⟨fun h => ?taken, fun h => ?twice, fun h => ?lost⟩
  case taken =>
    refine h (.ofMethod "C" "m") (.ofSuite "C") {} before "a1" "new" "a11" (by decide)
      (congrArg Answer.name hname) ?_
    exact Properties.mem_names_iff.2 ⟨_, hstored⟩
  case twice =>
    have hfirst : ((new (.ofMethod "C" "m") (.ofSuite "C") {}).run
        (before.take 10)).1.nextName "a" = "a11" := by decide +kernel
    refine h (.ofMethod "C" "m") (.ofSuite "C") {} (before ++ [.exportRepeated "a1" "new"]) 10 11
      "a" "a1" "lost" "new" "a11" (by decide) (by decide) rfl rfl ?_ ?_
    · rw [getElem?_replies_run]
      exact congrArg (fun n => some (Answer.name n)) hfirst
    · rw [getElem?_replies_run]
      exact congrArg (fun n => some (Answer.name n)) hname
  case lost =>
    exact hlost (h (.ofMethod "C" "m") (.ofSuite "C") {} before "a1" "new" (by decide) _ hstored)

end Tracker

end Casebook
