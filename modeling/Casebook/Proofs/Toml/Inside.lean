import Casebook.Toml.Document

/-!
# Values inside a document

`Inside w v` says that `w` stands in `v`, at any depth, or is `v` itself. A condition holds throughout a
value if and only if it holds for everything inside it (`Value.all_iff`), and the same goes for documents
(`Document.all_iff`).
-/

namespace Casebook.Toml

/-- A value that stands in another one, at any depth, or is it. -/
inductive Inside (w : Value) : Value → Prop where
  | refl : Inside w w
  | item {v : Value} {items : List Value} (hv : v ∈ items) (h : Inside w v) :
      Inside w (.array items)
  | element {key : String} {v : Value} {entries : Entries} {elements : List Entries}
      (he : entries ∈ elements) (hv : (key, v) ∈ entries) (h : Inside w v) :
      Inside w (.tables elements)
  | entry {key : String} {v : Value} {kind : TableKind} {entries : Entries}
      (hv : (key, v) ∈ entries) (h : Inside w v) : Inside w (.table kind entries)

/-! ## Conditions throughout a value

A condition is checked by recursion over values, their items, entries and elements. Both directions follow
that recursion, one as an induction on where a value stands and the other as a recursion on the value. -/

variable {p : Value → Bool}

theorem allItems_iff {items : List Value} :
    allItems p items = true ↔ ∀ v ∈ items, v.all p = true := by
  induction items with
  | nil => simp [allItems]
  | cons v rest ih => rw [allItems, Bool.and_eq_true, ih, List.forall_mem_cons]

theorem allEntries_iff {entries : Entries} :
    allEntries p entries = true ↔ ∀ e ∈ entries, e.2.all p = true := by
  induction entries with
  | nil => simp [allEntries]
  | cons e rest ih =>
    obtain ⟨key, v⟩ := e
    rw [allEntries, Bool.and_eq_true, ih, List.forall_mem_cons]

theorem allElements_iff {elements : List Entries} :
    allElements p elements = true ↔ ∀ entries ∈ elements, ∀ e ∈ entries, e.2.all p = true := by
  induction elements with
  | nil => simp [allElements]
  | cons entries rest ih =>
    rw [allElements, Bool.and_eq_true, ih, allEntries_iff, List.forall_mem_cons]

theorem Value.apply_of_all {v : Value} (h : v.all p = true) : p v = true := by
  cases v with
  | array items | tables elements | table kind entries =>
    rw [Value.all, Bool.and_eq_true] at h
    exact h.1
  | _ => simpa [Value.all] using h

theorem Inside.apply_of_all {w v : Value} (h : Inside w v) (hall : v.all p = true) : p w = true := by
  induction h with
  | refl => exact Value.apply_of_all hall
  | item hv _ ih =>
    rw [Value.all, Bool.and_eq_true, allItems_iff] at hall
    exact ih (hall.2 _ hv)
  | element he hv _ ih =>
    rw [Value.all, Bool.and_eq_true, allElements_iff] at hall
    exact ih (hall.2 _ he _ hv)
  | entry hv _ ih =>
    rw [Value.all, Bool.and_eq_true, allEntries_iff] at hall
    exact ih (hall.2 _ hv)

mutual

theorem Value.all_of_inside : ∀ v : Value, (∀ w, Inside w v → p w = true) → v.all p = true
  | .array items, h => by
    have hitems := allItems_of_inside items fun v hv w hw => h w (.item hv hw)
    rw [Value.all, h _ .refl, hitems]
    rfl
  | .tables elements, h => by
    have helements := allElements_of_inside elements fun entries he e hv w hw =>
      h w (.element he hv hw)
    rw [Value.all, h _ .refl, helements]
    rfl
  | .table kind entries, h => by
    have hentries := allEntries_of_inside entries fun e hv w hw => h w (.entry hv hw)
    rw [Value.all, h _ .refl, hentries]
    rfl
  | .text _, h | .integer _, h | .float _, h | .tooLarge, h | .boolean _, h | .date, h => by
    simpa [Value.all] using h _ .refl

theorem allItems_of_inside :
    ∀ items : List Value, (∀ v ∈ items, ∀ w, Inside w v → p w = true) → allItems p items = true
  | [], _ => rfl
  | v :: rest, h => by
    have hv := Value.all_of_inside v (h v List.mem_cons_self)
    have hrest := allItems_of_inside rest fun u hu => h u (List.mem_cons_of_mem v hu)
    rw [allItems, hv, hrest]
    rfl

theorem allEntries_of_inside :
    ∀ entries : List (String × Value), (∀ e ∈ entries, ∀ w, Inside w e.2 → p w = true) →
      allEntries p entries = true
  | [], _ => rfl
  | (key, v) :: rest, h => by
    have hv := Value.all_of_inside v (h (key, v) List.mem_cons_self)
    have hrest := allEntries_of_inside rest fun e he => h e (List.mem_cons_of_mem (key, v) he)
    rw [allEntries, hv, hrest]
    rfl

theorem allElements_of_inside :
    ∀ elements : List (List (String × Value)),
      (∀ entries ∈ elements, ∀ e ∈ entries, ∀ w, Inside w e.2 → p w = true) →
      allElements p elements = true
  | [], _ => rfl
  | entries :: rest, h => by
    have hentries := allEntries_of_inside entries (h entries List.mem_cons_self)
    have hrest := allElements_of_inside rest fun es hes => h es (List.mem_cons_of_mem entries hes)
    rw [allElements, hentries, hrest]
    rfl

end

/-- A condition holds throughout a value if and only if it holds for everything inside it. -/
theorem Value.all_iff {v : Value} : v.all p = true ↔ ∀ w, Inside w v → p w = true :=
  ⟨fun h _ hw => hw.apply_of_all h, Value.all_of_inside v⟩

/-! ## Conditions throughout a document

A document is a list of entries, and nothing is checked of the document itself. -/

/-- A value that stands in a document, at any depth. -/
def Document.Holds (d : Document) (w : Value) : Prop := ∃ e ∈ d.entries, Inside w e.2

theorem Document.all_iff {d : Document} : d.all p = true ↔ ∀ w, d.Holds w → p w = true := by
  rw [Document.all, allEntries_iff]
  constructor
  · rintro h w ⟨e, he, hw⟩
    exact hw.apply_of_all (h e he)
  · intro h e he
    exact Value.all_of_inside e.2 fun w hw => h w ⟨e, he, hw⟩

end Casebook.Toml
