import Mathlib.Data.Finset.Card
import Casebook.Proofs.Tracker.Exports

/-!
# Names that collide

A repeated export is stored under its base name and a number. Two of them get one name only if the
number of the one begins inside the base name of the other, so that the longer base name is the shorter
one followed by digits (`Text.DigitsAfter`). This is a fact about texts
(`Text.eq_or_digitsAfter_of_append_toString`), and `Step.numbered_take_ne` adds that the exports of one
base name never get the same number.

Where no name that is exported is a base name followed by digits (`Step.Apart`), nothing is ever stored
in place of a repeated export:

* `Step.Apart.lastEntry`: it stays the last one of its name.
* `Tracker.card_names_run`: the store has a name for each of them and for each name of a plain export.
-/

namespace Casebook

/-! ## Texts followed by digits

This is about texts alone. Where two texts with numbers behind them are one text, the shorter of the two
ends inside the longer one, and what the longer one has left over is the beginning of a number. -/

namespace Text

/-- A text that is another one followed by decimal digits, at least one. -/
def DigitsAfter (base name : String) : Prop :=
  ∃ digits : List Char, digits ≠ [] ∧ (∀ c ∈ digits, c.isDigit = true)
    ∧ name.toList = base.toList ++ digits

theorem digitsAfter_iff (base name : String) :
    DigitsAfter base name
      ↔ base.toList <+: name.toList ∧ name.toList.drop base.toList.length ≠ []
        ∧ (name.toList.drop base.toList.length).all Char.isDigit = true := by
  constructor
  · rintro ⟨digits, hne, hdigits, hname⟩
    have hdrop : name.toList.drop base.toList.length = digits := by
      rw [hname, List.drop_left]
    rw [hdrop, List.all_eq_true]
    exact ⟨⟨digits, hname.symm⟩, hne, hdigits⟩
  · rintro ⟨⟨digits, hname⟩, hne, hdigits⟩
    have hdrop : name.toList.drop base.toList.length = digits := by
      rw [← hname, List.drop_left]
    rw [hdrop] at hne hdigits
    exact ⟨digits, hne, List.all_eq_true.1 hdigits, hname.symm⟩

instance (base name : String) : Decidable (DigitsAfter base name) :=
  decidable_of_iff _ (digitsAfter_iff base name).symm

theorem isDigit_of_mem_toString {n : Nat} {c : Char} (h : c ∈ (toString n).toList) :
    c.isDigit = true := by
  rw [Nat.toString_eq_repr, Nat.toList_repr] at h
  exact Nat.isDigit_of_mem_toDigits (by decide) (by decide) h

theorem toList_toString_ne_nil (n : Nat) : (toString n).toList ≠ [] := by
  rw [Nat.toString_eq_repr, Nat.toList_repr]
  exact Nat.toDigits_ne_nil

theorem digitsAfter_append_toString (base : String) (n : Nat) :
    DigitsAfter base (base ++ toString n) :=
  ⟨(toString n).toList, toList_toString_ne_nil n, fun _ => isDigit_of_mem_toString,
    String.toList_append⟩

/-- A text in front of another one, where only a number is left over, is the same or the other one is it
with digits after. -/
theorem eq_or_digitsAfter_of_toList_eq {base other : String} {digits : List Char} {m n : Nat}
    (hother : other.toList = base.toList ++ digits)
    (hm : (toString m).toList = digits ++ (toString n).toList) :
    base = other ∧ m = n ∨ DigitsAfter base other := by
  cases digits with
  | nil =>
    -- nothing is left over, so the numbers are the same text
    have heq : base = other := String.toList_inj.1 (by simpa using hother.symm)
    have hnum : toString m = toString n := String.toList_inj.1 (by simpa using hm)
    exact .inl ⟨heq, eq_of_toString_eq hnum⟩
  | cons d ds =>
    -- what is left over stands at the front of a number
    have hdigits : ∀ c ∈ d :: ds, c.isDigit = true := by
      intro c hc
      have hmem : c ∈ (toString m).toList := by
        rw [hm]
        exact List.mem_append_left _ hc
      exact isDigit_of_mem_toString hmem
    exact .inr ⟨d :: ds, by simp, hdigits, hother⟩

/-- Two texts become the same by numbers at their ends only if they are the same and so are the numbers,
or one of them is the other followed by digits. -/
theorem eq_or_digitsAfter_of_append_toString {base other : String} {m n : Nat}
    (h : base ++ toString m = other ++ toString n) :
    base = other ∧ m = n ∨ DigitsAfter base other ∨ DigitsAfter other base := by
  have hlists : base.toList ++ (toString m).toList = other.toList ++ (toString n).toList := by
    rw [← String.toList_append, h, String.toList_append]
  -- the shorter text ends inside the longer one, and its number begins there
  rcases List.append_eq_append_iff.1 hlists with ⟨digits, hother, hm⟩ | ⟨digits, hbase, hn⟩
  · rcases eq_or_digitsAfter_of_toList_eq hother hm with heq | hdigits
    · exact .inl heq
    · exact .inr (.inl hdigits)
  · rcases eq_or_digitsAfter_of_toList_eq hbase hn with ⟨heq, hnum⟩ | hdigits
    · exact .inl ⟨heq.symm, hnum.symm⟩
    · exact .inr (.inr hdigits)

end Text

open Text (DigitsAfter)

namespace Step

variable {first : Nat} {steps : List Step} {i j : Nat} {base other value w : String}

/-! ## Collisions of repeated exports

A repeated export takes its base and the next number for its name, without a look at the names that are
taken. Two bases get in each other's way if one is the other with digits behind it. -/

/-- A base name gets different numbers at different positions. -/
theorem numbered_take_ne_of_lt (hij : i < j) (h : steps[i]? = some (.exportRepeated base value)) :
    numbered first (steps.take i) base ≠ numbered first (steps.take j) base := by
  have htake : (steps.take j).take i = steps.take i := by
    rw [List.take_take, Nat.min_eq_left (Nat.le_of_lt hij)]
  have hi : (steps.take j)[i]? = some (.exportRepeated base value) := by
    rw [List.getElem?_take_of_lt hij, h]
  have hne : numbered first ((steps.take j).take i) base ≠ numbered first (steps.take j) base :=
    numbered_take_ne hi
  rwa [htake] at hne

/-- Two repeated exports get one name only if their base names differ, and then one base name is the
other followed by digits. -/
theorem digitsAfter_of_numbered_eq (hij : i ≠ j) (hi : steps[i]? = some (.exportRepeated base value))
    (hj : steps[j]? = some (.exportRepeated other w))
    (h : numbered first (steps.take i) base = numbered first (steps.take j) other) :
    base ≠ other ∧ (DigitsAfter base other ∨ DigitsAfter other base) := by
  have hne : base ≠ other := by
    rintro rfl
    rcases Nat.lt_or_gt_of_ne hij with hlt | hgt
    · exact numbered_take_ne_of_lt hlt hi h
    · exact numbered_take_ne_of_lt hgt hj h.symm
  rcases Text.eq_or_digitsAfter_of_append_toString h with ⟨heq, -⟩ | hdigits
  · exact absurd heq hne
  · exact ⟨hne, hdigits⟩

/-! ## Names that are kept apart

A caller can see from the names that it exports whether anything may collide: `Step.Apart` is decidable
and asks for neither values nor the order of the exports. -/

/-- The name of a plain export. -/
def plain? : Step → Option String
  | .exportProperty name _ => some name
  | _ => none

/-- The names of the plain exports in a list of steps, in their order. -/
def plainNames (steps : List Step) : List String := steps.filterMap plain?

/-- No name that is exported, plainly or as a base name, is a base name followed by digits. -/
def Apart (steps : List Step) : Prop :=
  ∀ base ∈ bases steps, ∀ name ∈ bases steps ++ plainNames steps, ¬ DigitsAfter base name

instance (steps : List Step) : Decidable (Apart steps) :=
  inferInstanceAs (Decidable (∀ base ∈ _, ∀ name ∈ _, ¬ DigitsAfter base name))

theorem bases_concat (steps : List Step) (s : Step) :
    bases (steps ++ [s]) = bases steps ++ s.base?.toList := by
  rw [bases, List.filterMap_append, List.filterMap_cons]
  cases s.base? <;> rfl

theorem plainNames_concat (steps : List Step) (s : Step) :
    plainNames (steps ++ [s]) = plainNames steps ++ s.plain?.toList := by
  rw [plainNames, List.filterMap_append, List.filterMap_cons]
  cases s.plain? <;> rfl

theorem mem_bases (h : steps[i]? = some (.exportRepeated base value)) : base ∈ bases steps :=
  List.mem_filterMap.2 ⟨_, List.mem_of_getElem? h, rfl⟩

theorem mem_plainNames_iff {name : String} :
    name ∈ plainNames steps ↔ ∃ value, .exportProperty name value ∈ steps := by
  rw [plainNames, List.mem_filterMap]
  constructor
  · rintro ⟨s, hs, hname⟩
    cases s with
    | exportProperty n v =>
      obtain rfl := Option.some.inj hname
      exact ⟨v, hs⟩
    | _ => simp [plain?] at hname
  · rintro ⟨value, hs⟩
    exact ⟨_, hs, rfl⟩

namespace Apart

theorem of_append {more : List Step} (h : Apart (steps ++ more)) : Apart steps := by
  intro base hbase name hname
  have hbase' : base ∈ bases (steps ++ more) := by
    rw [bases_append]
    exact List.mem_append_left _ hbase
  refine h base hbase' name ?_
  rw [bases_append, plainNames, List.filterMap_append]
  rcases List.mem_append.1 hname with hb | hp
  · exact List.mem_append_left _ (List.mem_append_left _ hb)
  · exact List.mem_append_right _ (List.mem_append_left _ hp)

theorem take (h : Apart steps) (k : Nat) : Apart (steps.take k) := by
  rw [← List.take_append_drop k steps] at h
  exact h.of_append

variable (h : Apart steps)
include h

/-- No two repeated exports get one name. -/
theorem numbered_ne (hij : i ≠ j) (hi : steps[i]? = some (.exportRepeated base value))
    (hj : steps[j]? = some (.exportRepeated other w)) :
    numbered first (steps.take i) base ≠ numbered first (steps.take j) other := by
  intro heq
  have hbase := mem_bases hi
  have hother := mem_bases hj
  rcases (digitsAfter_of_numbered_eq hij hi hj heq).2 with hd | hd
  · exact h base hbase other (List.mem_append_left _ hother) hd
  · exact h other hother base (List.mem_append_left _ hbase) hd

/-- No repeated export gets the name of a plain one, since its name is its base name with digits after. -/
theorem numbered_notMem (hbase : base ∈ bases steps) (before : List Step) :
    numbered first before base ∉ plainNames steps := fun hmem =>
  h base hbase _ (List.mem_append_right _ hmem) (Text.digitsAfter_append_toString base _)

/-- The entry of a repeated export stays the last one of its name. -/
theorem lastEntry (hi : steps[i]? = some (.exportRepeated base value)) :
    LastEntry first steps (numbered first (steps.take i) base) value := by
  have hstored : storedAt? first steps i = some (numbered first (steps.take i) base, value) := by
    rw [storedAt?, hi]
    rfl
  refine ⟨i, hstored, fun j w hij hj => ?_⟩
  obtain ⟨s, hs, he⟩ := Option.bind_eq_some_iff.1 hj
  -- a later step that stores under the name would be a plain export or a repeated one
  cases s with
  | exportProperty name v =>
    obtain ⟨rfl, rfl⟩ := Prod.mk.inj (Option.some.inj he)
    exact h.numbered_notMem (mem_bases hi) _ (mem_plainNames_iff.2 ⟨_, List.mem_of_getElem? hs⟩)
  | exportRepeated other v =>
    have hname := (Prod.mk.inj (Option.some.inj he)).1
    exact h.numbered_ne (Nat.ne_of_lt hij) hi hs hname.symm
  | _ => simp [stored?] at he

end Apart

end Step

namespace Tracker

variable (subject parent : Subject) (settings : Settings) (steps : List Step)

theorem mem_names_run_iff (name : String) :
    name ∈ ((new subject parent settings).run steps).1.properties.names
      ↔ name ∈ Step.plainNames steps
        ∨ ∃ i base value, steps[i]? = some (.exportRepeated base value)
          ∧ Step.numbered settings.firstIndex (steps.take i) base = name := by
  rw [mem_names_run, Step.exists_storedAt?_iff, Step.mem_plainNames_iff]

theorem toFinset_names_insert (p : Properties) (name value : String) :
    (p.insert name value).names.toFinset = insert name p.names.toFinset := by
  ext n
  rw [List.mem_toFinset, Finset.mem_insert, List.mem_toFinset, Properties.mem_names_insert]

/-- A plain export meets its name only where a plain export has stored under it. -/
theorem mem_names_run_of_apart {name value : String}
    (h : Step.Apart (steps ++ [.exportProperty name value])) :
    name ∈ ((new subject parent settings).run steps).1.properties.names
      ↔ name ∈ Step.plainNames steps := by
  rw [mem_names_run_iff]
  refine or_iff_left ?_
  rintro ⟨i, base, w, hi, hname⟩
  have hbase : base ∈ Step.bases (steps ++ [.exportProperty name value]) := by
    rw [Step.bases_concat]
    exact List.mem_append_left _ (Step.mem_bases hi)
  have hplain : name ∈ Step.plainNames (steps ++ [.exportProperty name value]) := by
    rw [Step.plainNames_concat]
    exact List.mem_append_right _ (List.mem_singleton.2 rfl)
  have hno : Step.numbered settings.firstIndex (steps.take i) base
      ∉ Step.plainNames (steps ++ [.exportProperty name value]) := h.numbered_notMem hbase _
  rw [hname] at hno
  exact hno hplain

/-- A repeated export gets a new name. -/
theorem numbered_notMem_names_run {base value : String}
    (h : Step.Apart (steps ++ [.exportRepeated base value])) :
    Step.numbered settings.firstIndex steps base
      ∉ ((new subject parent settings).run steps).1.properties.names := by
  have hlast : (steps ++ [.exportRepeated base value])[steps.length]?
      = some (.exportRepeated base value) := List.getElem?_concat_length
  rw [mem_names_run_iff]
  rintro (hplain | ⟨i, other, w, hi, hname⟩)
  · have hno : Step.numbered settings.firstIndex steps base
        ∉ Step.plainNames (steps ++ [.exportRepeated base value]) :=
      h.numbered_notMem (Step.mem_bases hlast) _
    rw [Step.plainNames_concat] at hno
    exact hno (List.mem_append_left _ hplain)
  · have hlt : i < steps.length := (List.getElem?_eq_some_iff.1 hi).1
    have hi' : (steps ++ [.exportRepeated base value])[i]? = some (.exportRepeated other w) := by
      rw [List.getElem?_append_left hlt, hi]
    have hne : Step.numbered settings.firstIndex
          ((steps ++ [Step.exportRepeated base value]).take i) other
        ≠ Step.numbered settings.firstIndex
          ((steps ++ [Step.exportRepeated base value]).take steps.length) base :=
      h.numbered_ne (Nat.ne_of_lt hlt) hi' hlast
    rw [List.take_append_of_le_length (Nat.le_of_lt hlt), List.take_left] at hne
    exact hne hname

/-- The store has a name for each repeated export and one for each name of a plain export. One step more
adds a name to both sides of the equation or to neither, by induction from the end of the run. -/
theorem card_names_run (h : Step.Apart steps) :
    ((new subject parent settings).run steps).1.properties.names.toFinset.card
      = (Step.bases steps).length + (Step.plainNames steps).toFinset.card := by
  induction steps using List.reverseRecOn with
  | nil => rfl
  | append_singleton steps s ih =>
    have hcard := ih h.of_append
    rw [properties_run_concat, Step.bases_concat, Step.plainNames_concat]
    cases s with
    | exportProperty name value =>
      have hnames := mem_names_run_of_apart subject parent settings steps h
      simp only [Step.stored?, Step.base?, Step.plain?, Option.elim_some, toFinset_names_insert,
        Option.toList_none, Option.toList_some, List.append_nil, List.toFinset_append,
        List.toFinset_cons, List.toFinset_nil, insert_empty_eq, Finset.union_singleton]
      -- a plain name is new to the store exactly if no plain export has had it
      by_cases hmem : name ∈ Step.plainNames steps
      · rw [Finset.insert_eq_of_mem (List.mem_toFinset.2 (hnames.2 hmem)),
          Finset.insert_eq_of_mem (List.mem_toFinset.2 hmem), hcard]
      · rw [Finset.card_insert_of_notMem (by rwa [List.mem_toFinset, hnames]),
          Finset.card_insert_of_notMem (by rwa [List.mem_toFinset]), hcard]
        omega
    | exportRepeated base value =>
      have hnew := numbered_notMem_names_run subject parent settings steps h
      simp only [Step.stored?, Step.base?, Step.plain?, Option.elim_some, toFinset_names_insert,
        Option.toList_none, Option.toList_some, List.append_nil, List.length_append,
        List.length_singleton]
      rw [Finset.card_insert_of_notMem (by rwa [List.mem_toFinset]), hcard]
      omega
    | _ => simpa [Step.stored?, Step.base?, Step.plain?] using hcard

/-! ## How far collisions reach

Both directions in terms of a run and its replies: what has to be the case if two exports got one name,
and what a result holds if no names can collide. -/

theorem answer_exportRepeated {i : Nat} {base value : String}
    (hi : steps[i]? = some (.exportRepeated base value)) :
    ((new subject parent settings).run steps).2[i]?.map Reply.answer
      = some (.name (Step.numbered settings.firstIndex (steps.take i) base)) := by
  rw [getElem?_replies_run, hi, ← nextName_run (steps.take i) subject parent settings base]
  rfl

/-- Two repeated exports of a run get one name only if their base names differ and one base name is the
other followed by digits. So where no name that is exported is a base name followed by digits, the
value of every repeated export is found under the name that it got in every result that is built later,
and a result holds one entry for each repeated export and one for each name of a plain export. -/
theorem repeated_exports_apart (subject parent : Subject) (settings : Settings)
    (steps : List Step) :
    let run := (new subject parent settings).run steps
    let resultAfter := fun k => ((new subject parent settings).run (steps.take k)).1.build
    (∀ (i j : Nat) (base other v w : String), i ≠ j → steps[i]? = some (.exportRepeated base v) →
      steps[j]? = some (.exportRepeated other w) →
      run.2[i]?.map Reply.answer = run.2[j]?.map Reply.answer →
      base ≠ other ∧ (DigitsAfter base other ∨ DigitsAfter other base))
      ∧ (Step.Apart steps →
        (∀ (i : Nat) (base v : String), steps[i]? = some (.exportRepeated base v) →
          ∃ name, run.2[i]?.map Reply.answer = some (.name name)
            ∧ ∀ k, i < k → (resultAfter k).properties.get? name = some v)
          ∧ ∀ k, (resultAfter k).properties.entries.length
            = (Step.bases (steps.take k)).length
              + (Step.plainNames (steps.take k)).toFinset.card) := by
  intro run resultAfter
  refine ⟨fun i j base other v w hij hi hj hanswer => ?_, fun hapart => ⟨fun i base v hi => ?_, ?_⟩⟩
  · rw [answer_exportRepeated subject parent settings steps hi,
      answer_exportRepeated subject parent settings steps hj] at hanswer
    have hname := Answer.name.inj (Option.some.inj hanswer)
    exact Step.digitsAfter_of_numbered_eq hij hi hj hname
  · refine ⟨_, answer_exportRepeated subject parent settings steps hi, fun k hik => ?_⟩
    -- the export is one of the first `k` steps, which are kept apart as well
    have hi' : (steps.take k)[i]? = some (.exportRepeated base v) := by
      rw [List.getElem?_take_of_lt hik, hi]
    have hlast : Step.LastEntry settings.firstIndex (steps.take k) _ v :=
      (hapart.take k).lastEntry hi'
    rw [List.take_take, Nat.min_eq_left (Nat.le_of_lt hik)] at hlast
    rw [Properties.get?_eq_some_iff]
    exact (mem_entries_run (steps.take k) subject parent settings _ _).2 hlast
  · intro k
    have hcard := card_names_run subject parent settings (steps.take k) (hapart.take k)
    rw [List.toFinset_card_of_nodup (Properties.nodup_names _), Properties.names,
      List.length_map] at hcard
    exact hcard

/-- Counted from one, the eleventh export of `a` meets the first of `a1`. In another run `m` is a base
name twice and a plain name twice, and nothing meets. -/
theorem repeated_exports_apart_both_ways :
    let meeting : List Step :=
      List.replicate 11 (.exportRepeated "a" "x") ++ [.exportRepeated "a1" "y"]
    let apart : List Step := [.exportRepeated "m" "1", .exportProperty "m" "x",
      .exportRepeated "k" "2", .exportRepeated "m" "3", .exportProperty "m" "y"]
    let replies := ((new (.ofMethod "C" "m") (.ofSuite "C") {}).run meeting).2
    let result := ((new (.ofMethod "C" "m") (.ofSuite "C") {}).run apart).1.build
    (replies[10]?.map Reply.answer = replies[11]?.map Reply.answer ∧ DigitsAfter "a" "a1")
      ∧ Step.Apart apart ∧ result.properties.get? "m1" = some "1"
      ∧ result.properties.entries.length = 4 := by
  intro meeting apart replies result
  have hmeet := repeated_exports_apart (.ofMethod "C" "m") (.ofSuite "C") {} meeting
  have hkept := repeated_exports_apart (.ofMethod "C" "m") (.ofSuite "C") {} apart
  have hanswers : replies[10]?.map Reply.answer = replies[11]?.map Reply.answer := by
    have hname : "a" ++ toString (10 + 1) = "a1" ++ toString (0 + 1) := by decide +kernel
    exact congrArg (fun s => some (Answer.name s)) hname
  have hdigits : DigitsAfter "a" "a1" ∨ DigitsAfter "a1" "a" :=
    (hmeet.1 10 11 "a" "a1" "x" "y" (by decide) rfl rfl hanswers).2
  have hapart : Step.Apart apart := by decide +kernel
  obtain ⟨hvalues, hlength⟩ := hkept.2 hapart
  obtain ⟨name, hname, hvalue⟩ := hvalues 0 "m" "1" rfl
  have hm1 : name = "m1" := by
    have hanswer : some (Answer.name ("m" ++ toString (0 + 1))) = some (.name name) := hname
    rw [← Answer.name.inj (Option.some.inj hanswer)]
    decide +kernel
  refine ⟨⟨hanswers, hdigits.resolve_right (by decide +kernel)⟩, hapart, ?_, hlength 5⟩
  rw [← hm1]
  exact hvalue 5 (by decide)

end Tracker

end Casebook
