/-!
# Exported properties

`Properties` holds the properties of a test: texts under names, one value a name. The entries are
kept in ascending order of their names, by code points, which is also the order of their UTF-8 bytes.
The order is a field of the type, so two stores with the same entries are equal.
-/

namespace Casebook

/-- The order of entries: by name, each name once. -/
abbrev Ascending (l : List (String × String)) : Prop := l.Pairwise (fun a b => a.1 < b.1)

/-- The properties of a test. -/
structure Properties where
  /-- Names and values, in ascending order of the names. -/
  entries : List (String × String)
  /-- Every name stands before the next one. -/
  ascending : Ascending entries
deriving DecidableEq, Repr

namespace Properties

/-! ## Order of names

Names are compared character by character, by code points. -/

theorem name_lt_trans {a b c : String} (h₁ : a < b) (h₂ : b < c) : a < c :=
  List.lt_trans (α := Char) h₁ h₂

theorem name_lt_of_not_lt {a b : String} (h : ¬ a < b) (h' : a ≠ b) : b < a := by
  rcases Decidable.em (b < a) with hlt | hlt
  · exact hlt
  · exact absurd (String.toList_inj.1 (List.le_antisymm (α := Char) hlt h)) h'

/-! ## Entries in order

An entry is put in front of the first one with a greater name. That this keeps the order is what makes a
store out of entries, and what is lost by it is no more than an entry of the same name. -/

/-- Puts an entry in its place; an entry of the same name is replaced. -/
def insertEntry (name value : String) : List (String × String) → List (String × String)
  | [] => [(name, value)]
  | (n, v) :: rest =>
    if name < n then (name, value) :: (n, v) :: rest
    else if name = n then (name, value) :: rest
    else (n, v) :: insertEntry name value rest

theorem mem_of_mem_insertEntry {name value : String} {e : String × String}
    {l : List (String × String)} (h : e ∈ insertEntry name value l) : e = (name, value) ∨ e ∈ l := by
  induction l with
  | nil => simpa [insertEntry] using h
  | cons head rest ih =>
    obtain ⟨n, v⟩ := head
    rw [insertEntry] at h
    split at h
    · simpa using h
    · split at h
      · rcases List.mem_cons.1 h with rfl | h
        · exact .inl rfl
        · exact .inr (List.mem_cons_of_mem _ h)
      · rcases List.mem_cons.1 h with rfl | h
        · exact .inr List.mem_cons_self
        · exact (ih h).imp_right (List.mem_cons_of_mem _)

theorem ascending_insertEntry (name value : String) {l : List (String × String)}
    (h : Ascending l) : Ascending (insertEntry name value l) := by
  induction l with
  | nil => simp [insertEntry, Ascending]
  | cons head rest ih =>
    obtain ⟨n, v⟩ := head
    obtain ⟨hhead, hrest⟩ := List.pairwise_cons.1 h
    rw [insertEntry]
    split
    · next hlt =>
      refine List.pairwise_cons.2 ⟨fun e he => ?_, h⟩
      rcases List.mem_cons.1 he with rfl | he
      · exact hlt
      · exact name_lt_trans hlt (hhead e he)
    · next hnlt =>
      split
      · next heq =>
        subst heq
        exact List.pairwise_cons.2 ⟨hhead, hrest⟩
      · next hne =>
        refine List.pairwise_cons.2 ⟨fun e he => ?_, ih hrest⟩
        rcases mem_of_mem_insertEntry he with rfl | he
        · exact name_lt_of_not_lt hnlt hne
        · exact hhead e he

/-- An entry replaces the one of its name and leaves all others. -/
theorem mem_insertEntry {name value : String} {e : String × String} {l : List (String × String)}
    (h : Ascending l) : e ∈ insertEntry name value l ↔ e = (name, value) ∨ e ∈ l ∧ e.1 ≠ name := by
  induction l with
  | nil => simp [insertEntry]
  | cons head rest ih =>
    obtain ⟨n, v⟩ := head
    obtain ⟨hhead, hrest⟩ := List.pairwise_cons.1 h
    -- no entry after the head has its name
    have hne : ∀ d ∈ rest, d.1 ≠ n := fun d hd heq => String.lt_irrefl n (heq ▸ hhead d hd)
    rw [insertEntry]
    split
    · next hlt =>
      -- no entry has the name, which stands before all of them
      have hall : ∀ d ∈ (n, v) :: rest, d.1 ≠ name := by
        intro d hd heq
        rcases List.mem_cons.1 hd with rfl | hd
        · exact String.lt_irrefl _ (heq ▸ hlt)
        · exact String.lt_irrefl _ (name_lt_trans hlt (heq ▸ hhead d hd))
      rw [List.mem_cons]
      exact or_congr_right (and_iff_left_of_imp (hall e)).symm
    · split
      · next heq =>
        subst heq
        rw [List.mem_cons, List.mem_cons]
        refine or_congr_right ⟨fun he => ⟨.inr he, hne e he⟩, ?_⟩
        rintro ⟨rfl | he, hn⟩
        · exact absurd rfl hn
        · exact he
      · next hnlt hneq =>
        rw [List.mem_cons, ih hrest, List.mem_cons]
        constructor
        · rintro (rfl | rfl | ⟨he, hn⟩)
          · exact .inr ⟨.inl rfl, Ne.symm hneq⟩
          · exact .inl rfl
          · exact .inr ⟨.inr he, hn⟩
        · rintro (rfl | ⟨rfl | he, hn⟩)
          · exact .inr (.inl rfl)
          · exact .inl rfl
          · exact .inr (.inr ⟨he, hn⟩)

/-- An entry of a new name is one entry more. -/
theorem insertEntry_perm {name : String} (value : String) {l : List (String × String)}
    (h : name ∉ l.map Prod.fst) : (insertEntry name value l).Perm ((name, value) :: l) := by
  induction l with
  | nil => exact .refl _
  | cons head rest ih =>
    obtain ⟨n, v⟩ := head
    rw [List.map_cons, List.mem_cons, not_or] at h
    rw [insertEntry, if_neg h.1]
    split
    · exact .refl _
    · exact ((ih h.2).cons _).trans (.swap _ _ _)

/-! ## The store

With the order in the type, looking up a name may stop at the first entry, and listing the entries needs
no sorting. -/

/-- No properties. -/
def empty : Properties := ⟨[], .nil⟩

instance : EmptyCollection Properties := ⟨empty⟩

instance : Inhabited Properties := ⟨empty⟩

/-- Stores a value under a name, in place of any earlier value of that name. -/
def insert (p : Properties) (name value : String) : Properties :=
  ⟨insertEntry name value p.entries, ascending_insertEntry name value p.ascending⟩

/-- The value under a name. -/
def get? (p : Properties) (name : String) : Option String := p.entries.lookup name

/-- The names, in ascending order. -/
def names (p : Properties) : List String := p.entries.map Prod.fst

/-- Stores a list of entries, the last one of a name staying. -/
def ofList (l : List (String × String)) : Properties :=
  l.foldl (fun p e => p.insert e.1 e.2) ∅

/-! ## What a store holds

These lemmas are the interface of a store: which entries there are after an insertion, and what is found
under a name. -/

theorem mem_entries_insert {p : Properties} {name value : String} {e : String × String} :
    e ∈ (p.insert name value).entries ↔ e = (name, value) ∨ e ∈ p.entries ∧ e.1 ≠ name :=
  mem_insertEntry p.ascending

theorem mem_names_iff {p : Properties} {name : String} :
    name ∈ p.names ↔ ∃ value, (name, value) ∈ p.entries := by
  rw [names, List.mem_map]
  constructor
  · rintro ⟨⟨n, v⟩, he, rfl⟩
    exact ⟨v, he⟩
  · rintro ⟨v, he⟩
    exact ⟨_, he, rfl⟩

/-- Storing a value adds its name and loses none. -/
theorem mem_names_insert {p : Properties} {n name value : String} :
    n ∈ (p.insert name value).names ↔ n = name ∨ n ∈ p.names := by
  simp only [mem_names_iff, mem_entries_insert, Prod.mk.injEq]
  constructor
  · rintro ⟨v, ⟨rfl, -⟩ | ⟨hv, -⟩⟩
    · exact .inl rfl
    · exact .inr ⟨v, hv⟩
  · rintro (rfl | ⟨v, hv⟩)
    · exact ⟨value, .inl ⟨rfl, rfl⟩⟩
    · by_cases hn : n = name
      · exact ⟨value, .inl ⟨hn, rfl⟩⟩
      · exact ⟨v, .inr ⟨hv, hn⟩⟩

theorem mem_names_insert_of_mem {p : Properties} {n : String} (name value : String)
    (h : n ∈ p.names) : n ∈ (p.insert name value).names :=
  mem_names_insert.2 (.inr h)

/-- No name stands twice. -/
theorem nodup_names (p : Properties) : p.names.Nodup := by
  have h : (p.entries.map Prod.fst).Pairwise (· < ·) := List.pairwise_map.2 p.ascending
  refine List.Pairwise.imp (fun hlt => ?_) h
  rintro rfl
  exact String.lt_irrefl _ hlt

/-- The entries are found under their names. -/
theorem get?_eq_some_iff {p : Properties} {name value : String} :
    p.get? name = some value ↔ (name, value) ∈ p.entries := by
  have hnodup : (p.entries.map Prod.fst).Nodup := p.nodup_names
  rw [get?]
  generalize p.entries = l at hnodup ⊢
  induction l with
  | nil => simp
  | cons head rest ih =>
    obtain ⟨n, v⟩ := head
    obtain ⟨hn, hrest⟩ := List.nodup_cons.1 hnodup
    by_cases h : name = n
    · -- the head is the only entry of its name
      subst h
      have hmem : (name, value) ∉ rest := fun hin => hn (List.mem_map.2 ⟨_, hin, rfl⟩)
      simp [hmem, eq_comm]
    · have hlookup : ((n, v) :: rest).lookup name = rest.lookup name := by
        rw [List.lookup_cons, beq_false_of_ne h]
      rw [hlookup]
      simpa [h] using ih hrest

end Properties

end Casebook
