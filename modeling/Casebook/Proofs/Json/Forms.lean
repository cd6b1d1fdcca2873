import Casebook.Proofs.Json.Records

/-!
# The forms of a record

The same record can be written in many forms: as an object, with its entries in any order and other
members in between, or as an array of its values. `HoldsRecord` says what all of these hold, given by a
list of entries (`Entry`): under which name a value stands, which trees are forms of the value, and
whether it may be left out.

`decodeRecord_of_holds` is the reader's side: every form of a record is read as that record. A field that
accepts all forms of an entry (`Link.Sound`) sets the same part of the record for each of them; the
record is the same in whatever order its parts are set, and an entry may be left out where its part is
like that of the draft.
-/

namespace Casebook.Json

/-! ## Texts and lists

Forms are properties of trees. Those of texts and lists are the ones that the forms of records are built
from. -/

/-- A string that spells a text, with whatever escapes. -/
def IsText (s : String) (j : Json) : Prop := ∃ ps, j = .string ps ∧ textOf ps = .ok s

/-- A string that spells a text, or `null` for none. -/
def IsText? : Option String → Json → Prop
  | some s, j => IsText s j
  | none, j => j = .null

theorem isText_ofString (s : String) : IsText s (ofString s) := ⟨_, rfl, textOf_ofString s⟩

theorem isText?_ofString? (s : Option String) : IsText? s (ofString? s) := by
  cases s with
  | none => rfl
  | some s => exact isText_ofString s

theorem IsText.decodeText {s : String} {j : Json} (h : IsText s j) (expected : Expected) :
    j.decodeText expected = .ok s := by
  obtain ⟨ps, rfl, hps⟩ := h
  exact hps

theorem IsText.keyText {s : String} {j : Json} (h : IsText s j) : j.keyText = .ok s := by
  obtain ⟨ps, rfl, hps⟩ := h
  exact hps

theorem IsText?.decodeOption {s : Option String} {j : Json} (h : IsText? s j) :
    j.decodeOption (decodeText .text) = .ok s := by
  cases s with
  | none =>
    obtain rfl : j = .null := h
    rfl
  | some s =>
    obtain ⟨ps, rfl, hps⟩ : IsText s j := h
    exact map_of_eq_ok hps

/-- Items that are forms of the members of a list, in their order. -/
inductive Items.Each {α : Type} (form : α → Json → Prop) : List α → Items → Prop
  | close : Each form [] .close
  | item {a : α} {as : List α} {value : Json} {rest : Items} :
    form a value → Each form as rest → Each form (a :: as) (.item value rest)

/-- An array of forms of the members of a list. -/
def IsList {α : Type} (form : α → Json → Prop) (as : List α) (j : Json) : Prop :=
  ∃ l, j = .array l ∧ l.Each form as

section Lists

variable {α : Type} {form : α → Json → Prop} {as : List α}

theorem isList_ofList {toJson : α → Json} (h : ∀ a ∈ as, form a (toJson a)) :
    IsList form as (.array (.ofList (as.map toJson))) := by
  refine ⟨_, rfl, ?_⟩
  induction as with
  | nil => exact .close
  | cons a as ih =>
    exact .item (h a List.mem_cons_self) (ih fun b hb => h b (List.mem_cons_of_mem a hb))

theorem Items.Each.decodeAll {decode : Json → Decoded α} {l : Items} (h : l.Each form as)
    (hc : l.complete = true)
    (hdecode : ∀ a ∈ as, ∀ j, j.complete = true → form a j → decode j = .ok a) :
    l.decodeAll decode = .ok as := by
  induction h with
  | close => rfl
  | @item a as value rest ha _ ih =>
    rw [complete, Bool.and_eq_true] at hc
    rw [Items.decodeAll, hdecode a List.mem_cons_self value hc.1 ha,
      ih hc.2 fun b hb => hdecode b (List.mem_cons_of_mem a hb)]
    rfl

theorem IsList.decodeList {decode : Json → Decoded α} {j : Json} (h : IsList form as j)
    (hc : j.complete = true) (room : Nat)
    (hdecode : ∀ a ∈ as, ∀ i, i.complete = true → form a i → decode i = .ok a) :
    j.decodeList (room + 1) decode = .ok as := by
  obtain ⟨l, rfl, hl⟩ := h
  exact hl.decodeAll hc hdecode

end Lists

/-- Members whose keys and values are texts. -/
inductive Members.Texts : List (String × String) → Members → Prop
  | close : Texts [] .close
  | member {name text : String} {es : List (String × String)} {key value : Json}
    {rest : Members} : IsText name key → IsText text value → Texts es rest →
    Texts ((name, text) :: es) (.member key value rest)

theorem Members.Texts.decodeTexts {es : List (String × String)} {m : Members}
    (h : m.Texts es) : m.decodeTexts = .ok es := by
  induction h with
  | close => rfl
  | @member name text es key value rest hkey hvalue _ ih =>
    rw [Members.decodeTexts, hkey.keyText, hvalue.decodeText .text, ih]
    rfl

theorem Members.texts_ofList (es : List (String × String)) :
    (Members.ofList (es.map fun e => (e.1, .ofString e.2))).Texts es := by
  induction es with
  | nil => exact .close
  | cons e es ih => exact .member (Json.isText_ofString e.1) (Json.isText_ofString e.2) ih

/-! ## Records

An object holds its entries in any order, which is why `Members.Holds` takes an entry out of the middle of
those that are left. An array holds them in the order of the fields, and leaves none out. -/

/-- What is written of a part of a record. -/
structure Entry where
  name : String
  /-- Whether it may be left out. -/
  optional : Prop
  /-- The forms of its value. -/
  form : Json → Prop

/-- Members that hold entries: each entry once, in any order, unless it is left out. Members of other
names may stand anywhere among them, with any values. -/
inductive Members.Holds (names : List String) : List Entry → Members → Prop
  | close {es : List Entry} : (∀ e ∈ es, e.optional) → Holds names es .close
  | entry {before after : List Entry} {e : Entry} {key value : Json} {rest : Members} :
    IsText e.name key → e.form value → Holds names (before ++ after) rest →
    Holds names (before ++ e :: after) (.member key value rest)
  | other {es : List Entry} {name : String} {key value : Json} {rest : Members} :
    name ∉ names → IsText name key → Holds names es rest → Holds names es (.member key value rest)

theorem Members.Holds.head {names : List String} {e : Entry} {es : List Entry} {key value : Json}
    {rest : Members} (hkey : IsText e.name key) (hvalue : e.form value) (hrest : Holds names es rest) :
    Holds names (e :: es) (.member key value rest) :=
  @Holds.entry names [] es e key value rest hkey hvalue hrest

/-- Items that hold entries: all of them, in their order. -/
inductive Items.Holds : List Entry → Items → Prop
  | close : Holds [] .close
  | item {e : Entry} {es : List Entry} {value : Json} {rest : Items} :
    e.form value → Holds es rest → Holds (e :: es) (.item value rest)

/-- The forms of a record: an object or an array that holds its entries. -/
inductive HoldsRecord (es : List Entry) : Json → Prop
  | object {m : Members} : m.Holds (es.map Entry.name) es → HoldsRecord es (.object m)
  | array {l : Items} : l.Holds es → HoldsRecord es (.array l)

/-- What is held by items in order is held by an object with the names of the entries for keys. -/
theorem holdsRecord_ofList {es : List Entry} {js : List Json} (h : (Items.ofList js).Holds es) :
    HoldsRecord es (.object (.ofList ((es.map Entry.name).zip js))) := by
  have hholds (names : List String) :
      (Members.ofList ((es.map Entry.name).zip js)).Holds names es := by
    induction es generalizing js with
    | nil => exact .close nofun
    | cons e es ih =>
      cases js with
      | nil => cases h
      | cons j js =>
        cases h with
        | item he hrest => exact .head (isText_ofString e.name) he (ih hrest)
  exact .object (hholds _)

/-! ## Reading a form

The reader meets the entries of an object in the order of the text, while the record is described in the
order of its fields. What makes up for the difference is that setting one part of a record does not
disturb another (`Commute`). `Pending` is the state in between: what is left to be met, what has been met,
and that whatever is left and optional may stay as the draft has it. -/

/-- A field with the entry that it reads and the part of a record that it sets. -/
structure Link (δ : Type) where
  field : Field δ
  entry : Entry
  set : δ → δ

section Links

variable {δ : Type} {shape : RecordShape δ} {links todo : List (Link δ)} {draft : δ}

/-- A field that reads every form of its entry, which may be left out if the field is not required and
sets nothing new. -/
structure Link.Sound (draft : δ) (k : Link δ) : Prop where
  name : k.entry.name = k.field.name
  decode : ∀ j, j.complete = true → k.entry.form j → k.field.decode j = .ok k.set
  required : k.entry.optional → k.field.required = false
  idle : k.entry.optional → k.set draft = draft

def Link.zip : List (Field δ) → List Entry → List (δ → δ) → List (Link δ)
  | f :: fs, e :: es, put :: puts => ⟨f, e, put⟩ :: zip fs es puts
  | _, _, _ => []

section Values

variable {α : Type} {name : String} {decode : Json → Decoded α} {form : Json → Prop}

theorem Link.Sound.of_value {put : α → δ → δ} {a : α}
    (h : ∀ j, j.complete = true → form j → decode j = .ok a) :
    Link.Sound draft ⟨⟨name, true, fun j => (decode j).map put⟩, ⟨name, False, form⟩, put a⟩ :=
  ⟨rfl, fun j hc hj => map_of_eq_ok (h j hc hj), False.elim, False.elim⟩

/-- A value that may be missing may be left out if the draft is like a record where it is missing. -/
theorem Link.Sound.of_option {decode : Json → Decoded (Option α)} {put : Option α → δ → δ}
    {a? : Option α} (h : ∀ j, j.complete = true → form j → decode j = .ok a?)
    (hdraft : put none draft = draft) :
    Link.Sound draft
      ⟨⟨name, false, fun j => (decode j).map put⟩, ⟨name, a? = none, form⟩, put a?⟩ where
  name := rfl
  decode := fun j hc hj => map_of_eq_ok (h j hc hj)
  required := fun _ => rfl
  idle := by
    rintro rfl
    exact hdraft

end Values

/-- The record in which all parts are set. -/
def setAll (links : List (Link δ)) (d : δ) : δ := links.foldl (fun d k => k.set d) d

/-- Parts that are set in any order. -/
def Commute (links : List (Link δ)) : Prop :=
  ∀ k ∈ links, ∀ k' ∈ links, ∀ d, k.set (k'.set d) = k'.set (k.set d)

theorem setAll_middle {before after : List (Link δ)} {k : Link δ}
    (hcomm : ∀ k' ∈ before, ∀ d, k'.set (k.set d) = k.set (k'.set d)) (d : δ) :
    setAll (before ++ k :: after) d = setAll (before ++ after) (k.set d) := by
  induction before generalizing d with
  | nil => rfl
  | cons k' before ih =>
    show setAll (before ++ k :: after) (k'.set d) = setAll (before ++ after) (k'.set (k.set d))
    rw [ih (fun l hl => hcomm l (List.mem_cons_of_mem k' hl)), hcomm k' List.mem_cons_self]

theorem setAll_of_idle (d : δ) (h : ∀ k ∈ links, k.set d = d) : setAll links d = d := by
  induction links with
  | nil => rfl
  | cons k links ih =>
    show setAll links (k.set d) = d
    rw [h k List.mem_cons_self]
    exact ih fun l hl => h l (List.mem_cons_of_mem k hl)

theorem Members.decodeFields_of_entry (hnames : ((links.map Link.field).map Field.name).Nodup)
    {k : Link δ} (hk : k ∈ links) (hsound : k.Sound draft) {key value : Json} {rest : Members}
    (hkey : IsText k.entry.name key) (hvalue : k.entry.form value) (hc : value.complete = true)
    {seen : List String} (hfresh : k.field.name ∉ seen) (d : δ) :
    (member key value rest).decodeFields (links.map Link.field) seen d
      = rest.decodeFields (links.map Link.field) (k.field.name :: seen) (k.set d) := by
  have hfind := find?_name_of_mem hnames (List.mem_map_of_mem hk)
  rw [decodeFields, bind_of_eq_ok hkey.keyText, hsound.name]
  simp only [hfind, if_neg hfresh]
  exact bind_of_eq_ok (hsound.decode value hc hvalue) _

theorem Members.decodeFields_of_other (hsound : ∀ k ∈ links, k.Sound draft) {name : String}
    (hname : name ∉ links.map fun k => k.entry.name) {key value : Json} {rest : Members}
    (hkey : IsText name key) (hc : value.complete = true) (seen : List String) (d : δ) :
    (member key value rest).decodeFields (links.map Link.field) seen d
      = rest.decodeFields (links.map Link.field) seen d := by
  have hfind : (links.map Link.field).find? (fun f => f.name == name) = none := by
    rw [List.find?_eq_none]
    intro f hf heq
    obtain ⟨k, hk, rfl⟩ := List.mem_map.1 hf
    rw [beq_iff_eq, ← (hsound k hk).name] at heq
    exact hname (List.mem_map.2 ⟨k, hk, heq⟩)
  rw [decodeFields, bind_of_eq_ok hkey.keyText]
  simp only [hfind, hc, if_true]

/-- Links that are left to be met, where `seen` are the names of those that have been met and `d` is the
record so far. -/
structure Pending (links todo : List (Link δ)) (seen : List String) (d : δ) : Prop where
  sublist : todo.Sublist links
  fresh : ∀ k ∈ todo, k.field.name ∉ seen
  idle : ∀ k ∈ todo, k.entry.optional → k.set d = d

/-- When one of the links is met, wherever it stands among them, the others are left. -/
theorem Pending.meet (hnames : ((links.map Link.field).map Field.name).Nodup)
    (hcomm : Commute links) {before after : List (Link δ)} {k : Link δ} {seen : List String} {d : δ}
    (h : Pending links (before ++ k :: after) seen d) :
    Pending links (before ++ after) (k.field.name :: seen) (k.set d) := by
  have hk : k ∈ before ++ k :: after := List.mem_append_right before List.mem_cons_self
  have hrest : (before ++ after).Sublist (before ++ k :: after) :=
    (List.sublist_cons_self k after).append_left before
  refine ⟨hrest.trans h.sublist, fun l hl hmem => ?_, fun l hl hoptional => ?_⟩
  · have hnodup : ((before ++ k :: after).map fun l => l.field.name).Nodup := by
      rw [List.map_map] at hnames
      exact hnames.sublist (h.sublist.map _)
    have hfirst := (List.perm_middle.map fun l : Link δ => l.field.name).nodup_iff.1 hnodup
    rcases List.mem_cons.1 hmem with heq | hmem
    · exact (List.nodup_cons.1 hfirst).1 (List.mem_map.2 ⟨l, hl, heq⟩)
    · exact h.fresh l (hrest.subset hl) hmem
  · -- what is set by the one that was met is not undone by another
    have hl' := hrest.subset hl
    rw [hcomm l (h.sublist.subset hl') k (h.sublist.subset hk), h.idle l hl' hoptional]

/-- Members that hold the entries that are left set what is left to be set, and every field that is
required has been met then. -/
theorem Members.decodeFields_of_holds (hnames : ((links.map Link.field).map Field.name).Nodup)
    (hsound : ∀ k ∈ links, k.Sound draft) (hcomm : Commute links) {m : Members}
    (h : m.Holds (links.map fun k => k.entry.name) (todo.map Link.entry))
    (hc : m.complete = true) {seen : List String} {d : δ} (htodo : Pending links todo seen d) :
    ∃ seen', m.decodeFields (links.map Link.field) seen d = .ok (setAll todo d, seen')
      ∧ (∀ n ∈ seen, n ∈ seen') ∧ ∀ k ∈ todo, k.field.required = true → k.field.name ∈ seen' := by
  -- induction on what the members hold: each entry takes one link out of `todo`, and others take none
  generalize hes : todo.map Link.entry = es at h
  induction h generalizing todo seen d with
  | @close es hoptional =>
    subst hes
    have hleft : ∀ k ∈ todo, k.entry.optional := fun k hk => hoptional _ (List.mem_map_of_mem hk)
    refine ⟨seen, ?_, fun n hn => hn, fun k hk hrequired => ?_⟩
    · rw [setAll_of_idle d fun k hk => htodo.idle k hk (hleft k hk)]
      rfl
    · rw [(hsound k (htodo.sublist.subset hk)).required (hleft k hk)] at hrequired
      cases hrequired
  | @entry _ _ e key value rest hkey hvalue _ ih =>
    obtain ⟨before, todo', rfl, rfl, hes'⟩ := List.map_eq_append_iff.1 hes
    obtain ⟨k, after, rfl, rfl, rfl⟩ := List.map_eq_cons_iff.1 hes'
    have hk : k ∈ before ++ k :: after := List.mem_append_right before List.mem_cons_self
    have hklinks : k ∈ links := htodo.sublist.subset hk
    have hbefore : ∀ l ∈ before, ∀ d, l.set (k.set d) = k.set (l.set d) := fun l hl =>
      hcomm l (htodo.sublist.subset (List.mem_append_left _ hl)) k hklinks
    simp only [complete, Bool.and_eq_true] at hc
    obtain ⟨seen', hread, hseen, hmet⟩ := ih hc.2 (htodo.meet hnames hcomm) List.map_append
    refine ⟨seen', ?_, fun n hn => hseen n (List.mem_cons_of_mem _ hn), fun l hl hrequired => ?_⟩
    · rw [decodeFields_of_entry hnames hklinks (hsound k hklinks) hkey hvalue hc.1.2
        (htodo.fresh k hk), hread, setAll_middle hbefore]
    · rcases List.mem_cons.1 (List.perm_middle.subset hl) with rfl | hl
      · exact hseen _ List.mem_cons_self
      · exact hmet l hl hrequired
  | @other es name key value rest hother hkey _ ih =>
    simp only [complete, Bool.and_eq_true] at hc
    obtain ⟨seen', hread, hseen, hmet⟩ := ih hc.2 htodo hes
    refine ⟨seen', ?_, hseen, hmet⟩
    rw [decodeFields_of_other hsound hother hkey hc.1.2, hread]

theorem Items.decodeFields_of_holds (hsound : ∀ k ∈ todo, k.Sound draft) {l : Items}
    (h : l.Holds (todo.map Link.entry)) (hc : l.complete = true) (count : Nat) (d : δ) :
    l.decodeFields shape (todo.map Link.field) count d = .ok (setAll todo d) := by
  induction todo generalizing l count d with
  | nil =>
    cases h
    rfl
  | cons k todo ih =>
    cases h with
    | @item _ _ value rest hvalue hrest =>
      simp only [complete, Bool.and_eq_true] at hc
      have hdecode := (hsound k List.mem_cons_self).decode value hc.1 hvalue
      rw [List.map_cons, decodeFields, bind_of_eq_ok hdecode]
      exact ih (fun l hl => hsound l (List.mem_cons_of_mem k hl)) hrest hc.2 (count + 1) (k.set d)

/-- Every form of a record is read as the record in which all parts are set. -/
theorem decodeRecord_of_holds (hfields : shape.fields = links.map Link.field)
    (hnames : (shape.fields.map Field.name).Nodup) (hsound : ∀ k ∈ links, k.Sound draft)
    (hcomm : Commute links) {j : Json} (h : HoldsRecord (links.map Link.entry) j)
    (hc : j.complete = true) (room : Nat) :
    j.decodeRecord shape draft (room + 1) = .ok (setAll links draft) := by
  rw [hfields] at hnames
  cases h with
  | @object m h =>
    rw [List.map_map] at h
    have htodo : Pending links links [] draft :=
      ⟨List.Sublist.refl links, fun _ _ => List.not_mem_nil, fun k hk => (hsound k hk).idle⟩
    obtain ⟨seen, hread, -, hmet⟩ := Members.decodeFields_of_holds hnames hsound hcomm h hc htodo
    rw [← hfields] at hread
    refine decodeRecord_of_decodeFields hread (fun f hf hrequired => ?_) room
    rw [hfields] at hf
    obtain ⟨k, hk, rfl⟩ := List.mem_map.1 hf
    exact hmet k hk hrequired
  | @array l h =>
    rw [decodeRecord, if_neg (Nat.succ_ne_zero room), hfields]
    exact Items.decodeFields_of_holds hsound h hc 0 draft

end Links

end Casebook.Json
