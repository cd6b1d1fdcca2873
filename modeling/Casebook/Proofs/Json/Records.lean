import Casebook.Proofs.Json.Decoding

/-!
# Decoding records

A record that is written with its fields in their order is read field by field: each field puts its
value into the draft, and the record is what all of them have made of it (`decodeRecord_of_fills`). If a
field refuses its value, so does the record (`decodeRecord_of_refused`). The reader itself is opened twice,
for what makes a record readable (`decodeRecord_of_decodeFields`) and for where a record that was read
has come from (`decodeRecord_eq_ok`).

A value stands in a record under a name as a member of an object or as an item of an array
(`HasField`). In every record that is decoded, each value under the name of a field was accepted by
that field (`exists_of_hasField`), what every field preserves holds of the record
(`decodeRecord_induct_of_hasField`), and every field that has to be there has accepted some value
(`exists_of_decodeRecord`).
-/

namespace Casebook.Json

section Records

variable {δ : Type} {shape : RecordShape δ} {fields : List (Field δ)} {f : Field δ}

/-! ## Fields and their names

The reader looks a field up by its name, and takes the first that has it. As names do not repeat, that is
the field. -/

theorem find?_name_of_mem (hnames : (fields.map Field.name).Nodup) (hf : f ∈ fields) :
    fields.find? (fun g => g.name == f.name) = some f := by
  induction fields with
  | nil => cases hf
  | cons g fields ih =>
    obtain ⟨hg, hrest⟩ := List.nodup_cons.1 hnames
    rcases List.mem_cons.1 hf with rfl | hf
    · exact List.find?_cons_of_pos (beq_self_eq_true f.name)
    · have hne : g.name ≠ f.name := fun heq => hg (heq ▸ List.mem_map_of_mem hf)
      rw [List.find?_cons_of_neg (by rw [beq_iff_eq]; exact hne), ih hrest hf]

theorem eq_of_name_eq {g : Field δ} (hnames : (fields.map Field.name).Nodup) (hf : f ∈ fields)
    (hg : g ∈ fields) (h : g.name = f.name) : g = f := by
  have hfind := find?_name_of_mem hnames hg
  rw [h, find?_name_of_mem hnames hf] at hfind
  exact (Option.some.inj hfind).symm

/-- A field that comes after those that have been met has not been met. -/
theorem name_notMem_seen {done more : List (Field δ)} (hnames : (fields.map Field.name).Nodup)
    (hfields : fields = done ++ f :: more) : f.name ∉ (done.map Field.name).reverse := by
  rw [hfields, List.map_append, List.nodup_append] at hnames
  rw [List.mem_reverse]
  exact fun hmem => hnames.2.2 _ hmem _ List.mem_cons_self rfl

/-- Fields accept values, one each, and put them into a draft one after the other. -/
inductive Fills : List (Field δ) → List Json → δ → δ → Prop
  | nil {d : δ} : Fills [] [] d d
  | cons {f : Field δ} {fs : List (Field δ)} {j : Json} {js : List Json} {put : δ → δ} {d d' : δ} :
    f.decode j = .ok put → Fills fs js (put d) d' → Fills (f :: fs) (j :: js) d d'

theorem Fills.append {fs gs : List (Field δ)} {js is : List Json} {d d' d'' : δ}
    (h : Fills fs js d d') (h' : Fills gs is d' d'') : Fills (fs ++ gs) (js ++ is) d d'' := by
  induction h with
  | nil => exact h'
  | cons hput _ ih => exact .cons hput (ih h')

/-! ## Members in the order of the fields

What the program writes has its fields in the order in which they are declared. The induction goes along
the fields, and what it keeps is that the names met so far are those of the fields before. -/

/-- A member with the name of a new field is decoded by that field. -/
theorem Members.decodeFields_ofList_cons {done more : List (Field δ)}
    (hnames : (fields.map Field.name).Nodup) (hfields : fields = done ++ f :: more) (j : Json)
    (es : List (String × Json)) (draft : δ) :
    (ofList ((f.name, j) :: es)).decodeFields fields (done.map Field.name).reverse draft
      = f.decode j >>= fun put =>
        (ofList es).decodeFields fields (f.name :: (done.map Field.name).reverse) (put draft) := by
  have hmem : f ∈ fields := by
    rw [hfields]
    exact List.mem_append_right done List.mem_cons_self
  rw [ofList, decodeFields, bind_of_eq_ok (keyText_ofString f.name)]
  simp only [find?_name_of_mem hnames hmem, if_neg (name_notMem_seen hnames hfields)]

/-- The fields that have been met are those before `todo`; after `js` they are those before `more`. -/
theorem Members.decodeFields_of_fills {todo : List (Field δ)} {js : List Json} {draft d : δ}
    (h : Fills todo js draft d) {more : List (Field δ)} (hnames : (fields.map Field.name).Nodup)
    (es : List (String × Json)) (done : List (Field δ)) (hfields : fields = done ++ (todo ++ more)) :
    (ofList ((todo.map Field.name).zip js ++ es)).decodeFields fields
        (done.map Field.name).reverse draft
      = (ofList es).decodeFields fields ((done ++ todo).map Field.name).reverse d := by
  induction h generalizing done with
  | nil =>
    rw [List.append_nil]
    rfl
  | @cons f todo j js put draft d hput _ ih =>
    -- the field that has just been met goes from `todo` to `done`
    have hdone : ((done ++ [f]).map Field.name).reverse
        = f.name :: (done.map Field.name).reverse := by
      rw [List.map_append, List.reverse_append]
      rfl
    have hnext := ih (done ++ [f]) (by rw [hfields, List.append_assoc]; rfl)
    rw [hdone, List.append_assoc] at hnext
    rw [List.map_cons, List.zip_cons_cons, List.cons_append,
      decodeFields_ofList_cons hnames hfields, hput]
    exact hnext

/-- A record is read from the members of an object, if no field is missing then. -/
theorem decodeRecord_object (m : Members) (draft : δ) (room : Nat) :
    (object m).decodeRecord shape draft (room + 1) = m.decodeFields shape.fields [] draft >>= fun out =>
      match shape.fields.find? (fun f => f.required && !out.2.contains f.name) with
      | some f => .error (.data (.missing f.name))
      | none => .ok out.1 := rfl

/-- A record is read from an object in which every field that has to be there has been met. -/
theorem decodeRecord_of_decodeFields {m : Members} {draft d : δ} {seen : List String}
    (hread : m.decodeFields shape.fields [] draft = .ok (d, seen))
    (hmet : ∀ f ∈ shape.fields, f.required = true → f.name ∈ seen) (room : Nat) :
    (object m).decodeRecord shape draft (room + 1) = .ok d := by
  have hnone : shape.fields.find? (fun f => f.required && !seen.contains f.name) = none := by
    rw [List.find?_eq_none]
    intro f hf
    cases hrequired : f.required with
    | false => exact Bool.false_ne_true
    | true =>
      rw [List.contains_iff_mem.2 (hmet f hf hrequired)]
      exact Bool.false_ne_true
  rw [decodeRecord_object, bind_of_eq_ok hread]
  simp only [hnone]

/-- A record is read from an object that has all its fields in their order. -/
theorem decodeRecord_of_fills (hnames : (shape.fields.map Field.name).Nodup) {js : List Json}
    {draft d : δ} (h : Fills shape.fields js draft d) (room : Nat) :
    decodeRecord shape draft (room + 1) (.object (.ofList ((shape.fields.map Field.name).zip js)))
      = .ok d := by
  have hread : (Members.ofList ((shape.fields.map Field.name).zip js)).decodeFields shape.fields []
      draft = .ok (d, (shape.fields.map Field.name).reverse) := by
    have hfills := Members.decodeFields_of_fills h hnames [] [] (List.append_nil _).symm
    rw [List.append_nil] at hfills
    exact hfills
  refine decodeRecord_of_decodeFields hread (fun f hf _ => ?_) room
  exact List.mem_reverse.2 (List.mem_map_of_mem hf)

/-- A record is refused for the first field that refuses its value. -/
theorem decodeRecord_of_refused {fs more : List (Field δ)} {e : Fault} {j : Json}
    (hfields : shape.fields = fs ++ f :: more) (hnames : (shape.fields.map Field.name).Nodup)
    {js : List Json} {draft d : δ} (h : Fills fs js draft d) (hf : f.decode j = .error e)
    (es : List (String × Json)) (room : Nat) :
    decodeRecord shape draft (room + 1)
      (.object (.ofList ((fs.map Field.name).zip js ++ (f.name, j) :: es))) = .error e := by
  have hread : (Members.ofList ((fs.map Field.name).zip js ++ (f.name, j) :: es)).decodeFields
      shape.fields [] draft = .error e := by
    have hfills := Members.decodeFields_of_fills h hnames ((f.name, j) :: es) [] hfields
    rw [List.nil_append, Members.decodeFields_ofList_cons hnames hfields, hf] at hfills
    exact hfills
  rw [decodeRecord_object, hread]
  rfl

/-! ## Records that are read

A record is read from an object or from an array, and in an object nothing that has to be there is missing
then. Whoever has a record that was read gets all of that from `decodeRecord_eq_ok`, and
`decodeRecord` is not opened again. -/

/-- A record that was read comes from an object in which every field that has to be there has been met, or
from an array. -/
theorem decodeRecord_eq_ok {j : Json} {draft d : δ} {room : Nat}
    (h : j.decodeRecord shape draft room = .ok d) :
    (∃ m seen, j = .object m ∧ m.decodeFields shape.fields [] draft = .ok (d, seen)
      ∧ ∀ f ∈ shape.fields, f.required = true → f.name ∈ seen)
    ∨ ∃ l, j = .array l ∧ l.decodeFields shape shape.fields 0 draft = .ok d := by
  unfold decodeRecord at h
  split at h
  · next m =>
    split at h
    · cases h
    · obtain ⟨⟨record, seen⟩, hread, h⟩ := bind_eq_ok h
      simp only at h
      split at h
      · cases h
      · next hnone =>
        cases h
        refine .inl ⟨m, seen, rfl, hread, fun f hf hrequired => ?_⟩
        have hmet := List.find?_eq_none.1 hnone f hf
        rw [hrequired, Bool.true_and, Bool.not_eq_true', Bool.not_eq_false] at hmet
        exact List.contains_iff_mem.1 hmet
  · next l =>
    split at h
    · cases h
    · exact .inr ⟨l, rfl, h⟩
  · exact absurd h (refuse_ne_ok _ _ d)

/-- No record is opened where there is no room. -/
theorem decodeRecord_zero_ne_ok (draft : δ) (j : Json) (d : δ) :
    j.decodeRecord shape draft 0 ≠ .ok d := by
  intro h
  unfold decodeRecord at h
  split at h
  · cases h
  · cases h
  · exact refuse_ne_ok _ _ d h

/-! ## Values that stand in a record

Here the other direction begins, from a record that was decoded back to the tree. The order of members is
that of the tree, whatever it is. -/

/-- A member of a name with a value. -/
inductive Members.Has (name : String) (value : Json) : Members → Prop
  | head {key : Json} {rest : Members} : key.keyText = .ok name →
    Has name value (.member key value rest)
  | tail {key other : Json} {rest : Members} : Has name value rest →
    Has name value (.member key other rest)

/-- A value that stands under a name in a record with fields of these names: as a member of an object, or
as the item of an array in the place of that name. -/
inductive HasField (names : List String) (name : String) (value : Json) : Json → Prop
  | member {m : Members} : m.Has name value → HasField names name value (.object m)
  | item {n : Nat} {l : Items} : names[n]? = some name → l.Has value n →
    HasField names name value (.array l)

/-- A member of a record that is decoded is passed over, or it is decoded by the field of its name, which
has not been met. -/
theorem Members.decodeFields_member_eq_ok {seen : List String} {draft : δ} {out : δ × List String}
    {key value : Json} {rest : Members}
    (h : (member key value rest).decodeFields fields seen draft = .ok out) :
    rest.decodeFields fields seen draft = .ok out
      ∨ ∃ f put, f ∈ fields ∧ key.keyText = .ok f.name ∧ f.decode value = .ok put
        ∧ rest.decodeFields fields (f.name :: seen) (put draft) = .ok out := by
  rw [decodeFields] at h
  obtain ⟨name, hkey, h⟩ := bind_eq_ok h
  split at h
  · split at h
    · exact .inl h
    · cases h
  · next f hfind =>
    split at h
    · cases h
    · obtain ⟨put, hput, h⟩ := bind_eq_ok h
      have hname := List.find?_some hfind
      rw [beq_iff_eq] at hname
      subst hname
      exact .inr ⟨f, put, List.mem_of_find?_eq_some hfind, hkey, hput, h⟩

/-- A field that is met accepts its value; if it were met again, the object would be refused. -/
theorem Members.exists_of_has (hnames : (fields.map Field.name).Nodup) (hf : f ∈ fields)
    {value : Json} {m : Members} (h : m.Has f.name value) {seen : List String} {draft : δ}
    {out : δ × List String} (hread : m.decodeFields fields seen draft = .ok out) :
    ∃ put, f.decode value = .ok put := by
  induction h generalizing seen draft with
  | head hkey =>
    rw [decodeFields, bind_of_eq_ok hkey] at hread
    simp only [find?_name_of_mem hnames hf] at hread
    split at hread
    · cases hread
    · obtain ⟨put, hput, -⟩ := bind_eq_ok hread
      exact ⟨put, hput⟩
  | tail _ ih =>
    rcases decodeFields_member_eq_ok hread with hread | ⟨_, _, -, -, -, hread⟩
    · exact ih hread
    · exact ih hread

theorem Items.exists_of_hasField {value : Json} {n : Nat} {l : Items} (h : l.Has value n)
    (hf : fields[n]? = some f) {count : Nat} {draft d : δ}
    (hread : l.decodeFields shape fields count draft = .ok d) : ∃ put, f.decode value = .ok put := by
  induction h generalizing fields count draft with
  | head =>
    cases fields with
    | nil => cases hf
    | cons g fields =>
      obtain rfl : g = f := Option.some.inj hf
      obtain ⟨put, hput, -⟩ := bind_eq_ok hread
      exact ⟨put, hput⟩
  | tail _ ih =>
    cases fields with
    | nil => cases hf
    | cons g fields =>
      obtain ⟨_, -, hread⟩ := bind_eq_ok hread
      exact ih hf hread

/-- In a record that is decoded, the field of a name accepts every value that stands under it. -/
theorem exists_of_hasField (hnames : (shape.fields.map Field.name).Nodup) (hf : f ∈ shape.fields)
    {value j : Json} (h : HasField (shape.fields.map Field.name) f.name value j) {draft d : δ}
    {room : Nat} (hread : j.decodeRecord shape draft room = .ok d) :
    ∃ put, f.decode value = .ok put := by
  rcases decodeRecord_eq_ok hread with ⟨m, seen, rfl, hmembers, -⟩ | ⟨l, rfl, hitems⟩
  · cases h with
    | member h => exact Members.exists_of_has hnames hf h hmembers
  · cases h with
    | @item n _ hn h =>
      -- the field in the place of the item is the one of the name
      rw [List.getElem?_map, Option.map_eq_some_iff] at hn
      obtain ⟨g, hg, hname⟩ := hn
      obtain rfl := eq_of_name_eq hnames hf (List.mem_of_getElem? hg) hname
      exact Items.exists_of_hasField h hg hitems

/-! ## What every record of a shape is like

A record is what its fields have made of the draft, one after the other. So a property of records needs
two things to be shown: that the draft has it, and that no field destroys it with a value that stands
under its name. -/

section Invariant

variable {P : δ → Prop}

/-- The induction along the members of an object, whatever has been met before. -/
theorem Members.decodeFields_induct :
    ∀ {m : Members} {seen : List String} {draft : δ} {out : δ × List String},
      (∀ f ∈ fields, ∀ j put, m.Has f.name j → f.decode j = .ok put → ∀ d, P d → P (put d)) →
      m.decodeFields fields seen draft = .ok out → P draft → P out.1
  | .close, _, _, _, _, h, hdraft => by
    cases h
    exact hdraft
  | .cut, _, _, _, _, h, _ => by cases h
  | .member _ _ rest, _, _, _, hput, h, hdraft => by
    have hrest : ∀ f ∈ fields, ∀ j put, rest.Has f.name j → f.decode j = .ok put →
        ∀ d, P d → P (put d) := fun f hf j put hj => hput f hf j put (.tail hj)
    rcases decodeFields_member_eq_ok h with h | ⟨f, put, hf, hkey, hdecode, h⟩
    · exact decodeFields_induct hrest h hdraft
    · exact decodeFields_induct hrest h (hput f hf _ put (.head hkey) hdecode _ hdraft)

/-- The induction along the items of an array, each of which belongs to the field in its place. -/
theorem Items.decodeFields_induct {l : Items}
    (hput : ∀ (n : Nat) (f : Field δ), fields[n]? = some f → ∀ j put, l.Has j n →
      f.decode j = .ok put → ∀ d, P d → P (put d))
    {count : Nat} {draft d : δ} (h : l.decodeFields shape fields count draft = .ok d)
    (hdraft : P draft) : P d := by
  induction fields generalizing l count draft with
  | nil =>
    cases l with
    | close =>
      cases h
      exact hdraft
    | cut => cases h
    | item j l => cases h
  | cons f fields ih =>
    cases l with
    | close => cases h
    | cut => cases h
    | item j l =>
      obtain ⟨put, hdecode, h⟩ := bind_eq_ok h
      exact ih (fun n g hg i put hi => hput (n + 1) g hg i put (.tail hi)) h
        (hput 0 f rfl j put .head hdecode draft hdraft)

/-- What the draft is like and every field preserves holds of a record that is decoded. A field only
puts values into the record that stand under its name. -/
theorem decodeRecord_induct_of_hasField {j : Json}
    (hput : ∀ f ∈ shape.fields, ∀ i put, HasField (shape.fields.map Field.name) f.name i j →
      f.decode i = .ok put → ∀ d, P d → P (put d))
    {draft d : δ} {room : Nat} (h : j.decodeRecord shape draft room = .ok d)
    (hdraft : P draft) : P d := by
  rcases decodeRecord_eq_ok h with ⟨m, seen, rfl, hread, -⟩ | ⟨l, rfl, hread⟩
  · refine Members.decodeFields_induct (fun f hf i put hi => ?_) hread hdraft
    exact hput f hf i put (.member hi)
  · refine Items.decodeFields_induct (fun n f hn i put hi => ?_) hread hdraft
    have hname : (shape.fields.map Field.name)[n]? = some f.name := by
      rw [List.getElem?_map, hn]
      rfl
    exact hput f (List.mem_of_getElem? hn) i put (.item hname hi)

theorem decodeRecord_induct
    (hput : ∀ f ∈ shape.fields, ∀ j put, f.decode j = .ok put → ∀ d, P d → P (put d))
    {draft d : δ} {room : Nat} {j : Json} (h : j.decodeRecord shape draft room = .ok d)
    (hdraft : P draft) : P d :=
  decodeRecord_induct_of_hasField (fun f hf i put _ => hput f hf i put) h hdraft

end Invariant

/-- A field that has been met has accepted a value. -/
theorem Members.exists_of_mem_seen (hnames : (fields.map Field.name).Nodup) (hf : f ∈ fields) :
    ∀ {m : Members} {seen : List String} {draft : δ} {out : δ × List String},
      m.decodeFields fields seen draft = .ok out → f.name ∈ out.2 →
        f.name ∈ seen ∨ ∃ j put, f.decode j = .ok put
  | .close, _, _, _, h, hmem => by
    cases h
    exact .inl hmem
  | .cut, _, _, _, h, _ => by cases h
  | .member _ value rest, _, _, _, h, hmem => by
    rcases decodeFields_member_eq_ok h with h | ⟨g, put, hg, -, hdecode, h⟩
    · exact exists_of_mem_seen hnames hf h hmem
    · rcases exists_of_mem_seen hnames hf h hmem with hseen | haccepted
      · rcases List.mem_cons.1 hseen with hname | hseen
        · rw [← eq_of_name_eq hnames hf hg hname.symm]
          exact .inr ⟨value, put, hdecode⟩
        · exact .inl hseen
      · exact .inr haccepted

theorem Items.exists_of_decodeFields {l : Items} {count : Nat} {draft d : δ}
    (h : l.decodeFields shape fields count draft = .ok d) (hf : f ∈ fields) :
    ∃ j put, f.decode j = .ok put := by
  induction fields generalizing l count draft with
  | nil => cases hf
  | cons g fields ih =>
    cases l with
    | close => cases h
    | cut => cases h
    | item j l =>
      obtain ⟨put, hdecode, h⟩ := bind_eq_ok h
      rcases List.mem_cons.1 hf with rfl | hf
      · exact ⟨j, put, hdecode⟩
      · exact ih h hf

/-- In a record that is decoded, a field that has to be there has accepted a value. -/
theorem exists_of_decodeRecord (hnames : (shape.fields.map Field.name).Nodup)
    (hf : f ∈ shape.fields) (hrequired : f.required = true) {draft d : δ} {room : Nat} {j : Json}
    (h : j.decodeRecord shape draft room = .ok d) : ∃ i put, f.decode i = .ok put := by
  rcases decodeRecord_eq_ok h with ⟨m, seen, rfl, hread, hmet⟩ | ⟨l, rfl, hread⟩
  · rcases Members.exists_of_mem_seen hnames hf hread (hmet f hf hrequired) with hnil | haccepted
    · cases hnil
    · exact haccepted
  · exact Items.exists_of_decodeFields hread hf

end Records

end Casebook.Json
