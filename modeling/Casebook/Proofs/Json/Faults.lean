import Mathlib.Data.List.Find
import Casebook.Proofs.Json.Forms
import Casebook.Proofs.Json.Grammar

/-!
# What is wrong with an object

An object is seen as a list of entries, keys with their values (`Members.Lists`). If a record accepts all
values that stand under its names, then what is made of the object depends on the keys alone: `Wrong` says
for which keys the object is refused and in which words, and `InOrder` says for which it is read.

The reader goes through the keys in their order, so a repeated key is found at its second place, and
what is missing is looked for afterwards in the order of the fields. `Members.Leads.decodeFields` is the
state in between: behind entries that are in order, the names that have been met are those of the entries.
The results are `decodeRecord_of_wrong`, `decodeRecord_of_inOrder` and, for a fault inside a value,
`Members.Arrives.decodeRecord`.
-/

namespace Casebook.Json

/-! ## Keys

What is wrong with keys is defined without a reader, on lists of keys and declared names. Both kinds of
fault are pinned down to one key, so an object has at most one. -/

/-- The keys that are names of fields. A field is given by its name and whether it has to be there. -/
def known (declared : List (String × Bool)) (keys : List String) : List String :=
  keys.filter fun k => k ∈ declared.map Prod.fst

/-- What is wrong with the keys of an object. A known key that repeats goes before what is missing; it is
the key whose second place comes first. Of what is missing it is the first that is declared. -/
inductive Wrong (declared : List (String × Bool)) (keys : List String) : DataError → Prop
  | duplicate {before after : List String} {k : String} :
    keys = before ++ k :: after → (known declared before).Nodup → k ∈ known declared before →
    Wrong declared keys (.duplicate k)
  | missing {before after : List (String × Bool)} {k : String} :
    (known declared keys).Nodup → declared = before ++ (k, true) :: after →
    (∀ d ∈ before, d.2 = true → d.1 ∈ keys) → k ∉ keys → Wrong declared keys (.missing k)

/-- No known key repeats, and whatever has to be there is. -/
structure InOrder (declared : List (String × Bool)) (keys : List String) : Prop where
  distinct : (known declared keys).Nodup
  present : ∀ d ∈ declared, d.2 = true → d.1 ∈ keys

section Keys

variable {declared : List (String × Bool)} {keys : List String}

theorem mem_known {k : String} : k ∈ known declared keys ↔ k ∈ keys ∧ k ∈ declared.map Prod.fst := by
  rw [known, List.mem_filter, decide_eq_true_eq]

theorem known_append (keys' : List String) :
    known declared (keys ++ keys') = known declared keys ++ known declared keys' :=
  List.filter_append ..

theorem known_cons_of_mem {k : String} (h : k ∈ declared.map Prod.fst) :
    known declared (k :: keys) = k :: known declared keys :=
  List.filter_cons_of_pos (decide_eq_true h)

theorem known_cons_of_notMem {k : String} (h : k ∉ declared.map Prod.fst) :
    known declared (k :: keys) = known declared keys :=
  List.filter_cons_of_neg (by rw [decide_eq_true_eq]; exact h)

/-- A known key between others that do not repeat is none of them. -/
theorem fresh_of_nodup {keys' : List String} {k : String} (hk : k ∈ declared.map Prod.fst)
    (h : (known declared (keys ++ k :: keys')).Nodup) :
    (known declared keys).Nodup ∧ k ∉ (known declared keys).reverse ∧ k ∉ keys' := by
  rw [known_append, known_cons_of_mem hk] at h
  obtain ⟨hbefore, hafter, hapart⟩ := List.nodup_append.1 h
  refine ⟨hbefore, fun hmem => ?_, fun hmem => ?_⟩
  · exact hapart k (List.mem_reverse.1 hmem) k List.mem_cons_self rfl
  · exact (List.nodup_cons.1 hafter).1 (mem_known.2 ⟨hmem, hk⟩)

/-- If known keys repeat behind keys that do not, there is a first second place. -/
theorem exists_duplicate (done more : List String) (hdone : (known declared done).Nodup)
    (h : ¬ (known declared (done ++ more)).Nodup) : ∃ before k after,
      done ++ more = before ++ k :: after ∧ (known declared before).Nodup ∧ k ∈ known declared before := by
  induction more generalizing done with
  | nil =>
    rw [List.append_nil] at h
    exact absurd hdone h
  | cons k more ih =>
    by_cases hnext : (known declared (done ++ [k])).Nodup
    · have hsplit : done ++ k :: more = (done ++ [k]) ++ more := by rw [List.append_assoc]; rfl
      rw [hsplit] at h ⊢
      exact ih (done ++ [k]) hnext h
    · refine ⟨done, k, more, rfl, hdone, Decidable.byContradiction fun hk => hnext ?_⟩
      -- a key that was not there before does not repeat
      rw [known_append]
      by_cases hmem : k ∈ declared.map Prod.fst
      · rw [known_cons_of_mem hmem]
        refine List.nodup_append.2 ⟨hdone, List.pairwise_singleton _ k, fun a ha b hb heq => hk ?_⟩
        rwa [← List.mem_singleton.1 hb, ← heq]
      · rw [known_cons_of_notMem hmem]
        exact (List.append_nil (known declared done)).symm ▸ hdone

/-- Keys are in order, or something is wrong with them. -/
theorem inOrder_or_wrong (declared : List (String × Bool)) (keys : List String) :
    InOrder declared keys ∨ ∃ e, Wrong declared keys e := by
  by_cases hdistinct : (known declared keys).Nodup
  · cases hfind : declared.find? (fun d => d.2 && decide (d.1 ∉ keys)) with
    | none =>
      refine .inl ⟨hdistinct, fun d hd hrequired => Decidable.byContradiction fun hk => ?_⟩
      refine List.find?_eq_none.1 hfind d hd ?_
      rw [hrequired, decide_eq_true hk]
      rfl
    | some d =>
      obtain ⟨hd, before, after, hsplit, hbefore⟩ := List.find?_eq_some_iff_append.1 hfind
      obtain ⟨k, required⟩ := d
      simp only [Bool.and_eq_true, decide_eq_true_eq] at hd
      obtain ⟨rfl, hk⟩ := hd
      refine .inr ⟨_, .missing hdistinct hsplit (fun d hd hrequired => ?_) hk⟩
      have hmet := hbefore d hd
      rw [hrequired, Bool.true_and, Bool.not_eq_true', decide_eq_false_iff_not, Decidable.not_not] at hmet
      exact hmet
  · obtain ⟨before, k, after, hsplit, hbefore, hk⟩ :=
      exists_duplicate [] keys List.nodup_nil hdistinct
    exact .inr ⟨_, .duplicate hsplit hbefore hk⟩

end Keys

/-! ## Entries

Entries are what is left of members once their keys are texts. `Members.Leads` stops at any member, as
what is behind a fault is never looked at by a decoder. -/

/-- Members that begin with entries, keys that spell names with their values, and go on. -/
inductive Members.Leads : Members → List (String × Json) → Members → Prop
  | done {rest : Members} : Leads rest [] rest
  | member {name : String} {key value : Json} {m rest : Members} {es : List (String × Json)} :
    IsText name key → Leads m es rest → Leads (.member key value m) ((name, value) :: es) rest

/-- Members that are entries and nothing else. -/
def Members.Lists (m : Members) (es : List (String × Json)) : Prop := m.Leads es .close

def keysOf (es : List (String × Json)) : List String := es.map Prod.fst

theorem Members.lists_ofList (es : List (String × Json)) : (Members.ofList es).Lists es := by
  induction es with
  | nil => exact .done
  | cons e es ih => exact .member (isText_ofString e.1) ih

/-- Entries are led by the first of them. -/
theorem Members.Leads.split {es es' : List (String × Json)} {m rest : Members}
    (h : m.Leads (es ++ es') rest) : ∃ mid, m.Leads es mid ∧ mid.Leads es' rest := by
  induction es generalizing m with
  | nil => exact ⟨m, .done, h⟩
  | cons e es ih =>
    cases h with
    | member hkey hm =>
      obtain ⟨mid, hmid, hrest⟩ := ih hm
      exact ⟨mid, .member hkey hmid, hrest⟩

theorem Members.Leads.complete {es : List (String × Json)} {m rest : Members} (h : m.Leads es rest)
    (hc : m.complete = true) : rest.complete = true := by
  induction h with
  | done => exact hc
  | member _ _ ih => exact ih (Bool.and_eq_true_iff.1 hc).2

/-- A value that stands in listed members stands there as an entry. -/
theorem Members.Leads.mem_of_has {es : List (String × Json)} {m : Members} (h : m.Lists es)
    {name : String} {value : Json} (hhas : m.Has name value) : (name, value) ∈ es := by
  induction hhas generalizing es with
  | head hkey =>
    cases h with
    | member hname hm =>
      cases hname.keyText.symm.trans hkey
      exact List.mem_cons_self
  | tail _ ih =>
    cases h with
    | member _ hm => exact List.mem_cons_of_mem _ (ih hm)

/-! ## Reading entries

The names that the reader has met are kept last one first. Behind entries that are accepted and do not
repeat, these are the known keys in reverse, and what the fields have made of the draft is of no interest. -/

section Reading

variable {δ : Type} {shape : RecordShape δ} {f : Field δ} {draft : δ} {es : List (String × Json)}
  {m rest : Members}

/-- The fields of a record as they are declared: their names, and whether they have to be there. -/
def RecordShape.declared (shape : RecordShape δ) : List (String × Bool) :=
  shape.fields.map fun f => (f.name, f.required)

theorem RecordShape.names_declared (shape : RecordShape δ) :
    shape.declared.map Prod.fst = shape.fields.map Field.name := by
  rw [declared, List.map_map]
  rfl

/-- Entries whose values are accepted by the fields of their names. -/
def Accepted (shape : RecordShape δ) (es : List (String × Json)) : Prop :=
  ∀ e ∈ es, ∀ f ∈ shape.fields, f.name = e.1 → ∃ put, f.decode e.2 = .ok put

theorem Accepted.nil : Accepted shape [] := nofun

theorem Accepted.tail {e : String × Json} (h : Accepted shape (e :: es)) : Accepted shape es :=
  fun e' he' => h e' (List.mem_cons_of_mem e he')

theorem Accepted.of_append {es' : List (String × Json)} (h : Accepted shape (es ++ es')) :
    Accepted shape es := fun e he => h e (List.mem_append_left es' he)

theorem Accepted.cons_field (hnames : (shape.fields.map Field.name).Nodup) (hf : f ∈ shape.fields)
    {value : Json} {put : δ → δ} (hput : f.decode value = .ok put) (h : Accepted shape es) :
    Accepted shape ((f.name, value) :: es) := by
  intro e he g hg hname
  rcases List.mem_cons.1 he with rfl | he
  · rw [eq_of_name_eq hnames hf hg hname]
    exact ⟨put, hput⟩
  · exact h e he g hg hname

theorem Accepted.cons_other {name : String} (hname : name ∉ shape.fields.map Field.name) (value : Json)
    (h : Accepted shape es) : Accepted shape ((name, value) :: es) := by
  intro e he g hg heq
  rcases List.mem_cons.1 he with rfl | he
  · exact absurd (List.mem_map.2 ⟨g, hg, heq⟩) hname
  · exact h e he g hg heq

theorem find?_eq_none_of_notMem {fields : List (Field δ)} {name : String}
    (h : name ∉ fields.map Field.name) : fields.find? (fun f => f.name == name) = none := by
  rw [List.find?_eq_none]
  intro f hf heq
  exact h (List.mem_map.2 ⟨f, hf, beq_iff_eq.1 heq⟩)

variable (hnames : (shape.fields.map Field.name).Nodup)

include hnames in
/-- The member of a field that has not been met is read by that field. -/
theorem Members.decodeFields_field (hf : f ∈ shape.fields) {key : Json} (hkey : IsText f.name key)
    {seen : List String} (hfresh : f.name ∉ seen) (value : Json) (rest : Members) (d : δ) :
    (member key value rest).decodeFields shape.fields seen d
      = f.decode value >>= fun put => rest.decodeFields shape.fields (f.name :: seen) (put d) := by
  rw [decodeFields, bind_of_eq_ok hkey.keyText]
  simp only [find?_name_of_mem hnames hf, if_neg hfresh]

include hnames in
/-- Behind accepted entries that do not repeat, the names that have been met are those of the entries, the
last one first. -/
theorem Members.Leads.decodeFields (h : m.Leads es rest) (hc : m.complete = true)
    (haccepted : Accepted shape es) {seen : List String}
    (hseen : ((known shape.declared (keysOf es)).reverse ++ seen).Nodup) (draft : δ) :
    ∃ d, m.decodeFields shape.fields seen draft = rest.decodeFields shape.fields
      ((known shape.declared (keysOf es)).reverse ++ seen) d := by
  induction h generalizing seen draft with
  | done => exact ⟨draft, rfl⟩
  | @member name key value m rest es hkey _ ih =>
    obtain ⟨hkv, hm⟩ := Bool.and_eq_true_iff.1 hc
    have hvalue : value.complete = true := (Bool.and_eq_true_iff.1 hkv).2
    by_cases hname : name ∈ shape.declared.map Prod.fst
    · have hmet : known shape.declared (keysOf ((name, value) :: es))
          = name :: known shape.declared (keysOf es) := known_cons_of_mem hname
      rw [hmet, List.reverse_cons, List.append_assoc] at hseen ⊢
      have hfresh : name ∉ seen := (List.nodup_cons.1 (List.nodup_append.1 hseen).2.1).1
      rw [RecordShape.names_declared] at hname
      obtain ⟨f, hf, rfl⟩ := List.mem_map.1 hname
      obtain ⟨put, hput⟩ := haccepted _ List.mem_cons_self f hf rfl
      rw [decodeFields_field hnames hf hkey hfresh, bind_of_eq_ok hput]
      exact ih hm haccepted.tail hseen (put draft)
    · have hmet : known shape.declared (keysOf ((name, value) :: es))
          = known shape.declared (keysOf es) := known_cons_of_notMem hname
      rw [hmet] at hseen ⊢
      rw [RecordShape.names_declared] at hname
      rw [Members.decodeFields, bind_of_eq_ok hkey.keyText]
      simp only [find?_eq_none_of_notMem hname, hvalue, if_true]
      exact ih hm haccepted.tail hseen draft

include hnames in
/-- From the start, no name has been met. -/
theorem Members.Leads.decodeFields_nil (h : m.Leads es rest) (hc : m.complete = true)
    (haccepted : Accepted shape es) (hdistinct : (known shape.declared (keysOf es)).Nodup) (draft : δ) :
    ∃ d, m.decodeFields shape.fields [] draft
      = rest.decodeFields shape.fields (known shape.declared (keysOf es)).reverse d := by
  have hseen : ((known shape.declared (keysOf es)).reverse ++ []).Nodup := by
    rw [List.append_nil]
    exact (List.reverse_perm _).nodup_iff.2 hdistinct
  obtain ⟨d, hd⟩ := h.decodeFields hnames hc haccepted hseen draft
  rw [List.append_nil] at hd
  exact ⟨d, hd⟩

include hnames in
/-- An object whose known keys do not repeat is read, unless a field is missing. -/
theorem decodeRecord_of_distinct (h : m.Lists es) (hc : m.complete = true) (haccepted : Accepted shape es)
    (hdistinct : (known shape.declared (keysOf es)).Nodup) (room : Nat) :
    ∃ d, (object m).decodeRecord shape draft (room + 1)
      = match shape.fields.find? (fun f => f.required && decide (f.name ∉ keysOf es)) with
        | some f => .error (.data (.missing f.name))
        | none => .ok d := by
  obtain ⟨d, hread⟩ := Members.Leads.decodeFields_nil hnames h hc haccepted hdistinct draft
  -- the fields that have been met are those whose names are among the keys
  have hmet (f : Field δ) (hf : f ∈ shape.fields) :
      (f.required && !(known shape.declared (keysOf es)).reverse.contains f.name)
        = (f.required && decide (f.name ∉ keysOf es)) := by
    have hname : f.name ∈ shape.declared.map Prod.fst := shape.names_declared ▸ List.mem_map_of_mem hf
    rw [List.contains_eq_mem, ← decide_not]
    simp only [List.mem_reverse, mem_known, and_iff_left hname]
  refine ⟨d, ?_⟩
  rw [decodeRecord_object, bind_of_eq_ok (hread.trans rfl)]
  cases hfind : shape.fields.find? (fun f => f.required && decide (f.name ∉ keysOf es)) with
  | none => simp only [List.find?_congr hmet, hfind]
  | some f => simp only [List.find?_congr hmet, hfind]

include hnames in
/-- An object with wrong keys is refused for what is wrong with them. -/
theorem decodeRecord_of_wrong (h : m.Lists es) (hc : m.complete = true) (haccepted : Accepted shape es)
    {e : DataError} (hwrong : Wrong shape.declared (keysOf es) e) (room : Nat) :
    (object m).decodeRecord shape draft (room + 1) = .error (.data e) := by
  cases hwrong with
  | @duplicate before after k hkeys hbefore hk =>
    obtain ⟨es₁, es₂, rfl, rfl, hkeys₂⟩ := List.map_eq_append_iff.1 hkeys
    obtain ⟨⟨_, value⟩, es₃, rfl, rfl, -⟩ := List.map_eq_cons_iff.1 hkeys₂
    obtain ⟨mid, hmid, hrest⟩ := Members.Leads.split h
    obtain ⟨d, hread⟩ := hmid.decodeFields_nil hnames hc haccepted.of_append hbefore draft
    have hmem : _ ∈ shape.fields.map Field.name := shape.names_declared ▸ (mem_known.1 hk).2
    obtain ⟨f, hf, rfl⟩ := List.mem_map.1 hmem
    have hseen : f.name ∈ (known shape.declared (keysOf es₁)).reverse := List.mem_reverse.2 hk
    rw [decodeRecord_object, hread]
    cases hrest with
    | member hkey _ =>
      rw [Members.decodeFields, bind_of_eq_ok hkey.keyText]
      simp only [find?_name_of_mem hnames hf, if_pos hseen]
      rfl
  | @missing before after k hdistinct hdeclared hbefore hk =>
    obtain ⟨fs, gs, hfields, rfl, hgs⟩ := List.map_eq_append_iff.1 hdeclared
    obtain ⟨f, gs, rfl, hf, -⟩ := List.map_eq_cons_iff.1 hgs
    obtain ⟨rfl, hrequired⟩ := Prod.mk.inj hf
    have hfind : shape.fields.find? (fun g => g.required && decide (g.name ∉ keysOf es)) = some f := by
      refine List.find?_eq_some_iff_append.2 ⟨?_, fs, gs, hfields, fun g hg => ?_⟩
      · rw [hrequired, decide_eq_true hk]
        rfl
      · cases hg' : g.required with
        | false => rfl
        | true =>
          rw [decide_eq_false (not_not_intro (hbefore _ (List.mem_map_of_mem hg) hg'))]
          rfl
    obtain ⟨d, hread⟩ := decodeRecord_of_distinct hnames h hc haccepted hdistinct room
    rw [hread, hfind]

include hnames in
/-- An object whose keys are in order is read. -/
theorem decodeRecord_of_inOrder (h : m.Lists es) (hc : m.complete = true) (haccepted : Accepted shape es)
    (horder : InOrder shape.declared (keysOf es)) (room : Nat) :
    ∃ d, (object m).decodeRecord shape draft (room + 1) = .ok d := by
  have hall : shape.fields.find? (fun g => g.required && decide (g.name ∉ keysOf es)) = none := by
    rw [List.find?_eq_none]
    intro g hg
    cases hrequired : g.required with
    | false => exact Bool.false_ne_true
    | true =>
      have hkey := horder.present _ (List.mem_map_of_mem hg) hrequired
      rw [decide_eq_false (not_not_intro hkey)]
      exact Bool.false_ne_true
  obtain ⟨d, hread⟩ := decodeRecord_of_distinct hnames h hc haccepted horder.distinct room
  rw [hall] at hread
  exact ⟨d, hread⟩

include hnames in
/-- In an object that is read, a part that only one field sets is what that field has made of its
value. -/
theorem get_eq_of_mem {β : Type} (get : δ → β) {b : β} (hf : f ∈ shape.fields)
    (hothers : ∀ g ∈ shape.fields, g.name ≠ f.name → ∀ j put, g.decode j = .ok put →
      ∀ d, get (put d) = get d)
    (h : m.Lists es) (hc : m.complete = true) (haccepted : Accepted shape es)
    (hdistinct : (known shape.declared (keysOf es)).Nodup) {value : Json} (hmem : (f.name, value) ∈ es)
    {put : δ → δ} (hput : f.decode value = .ok put) (hget : ∀ d, get (put d) = b) {d : δ} {room : Nat}
    (hread : (object m).decodeRecord shape draft (room + 1) = .ok d) : get d = b := by
  obtain ⟨es₁, es₂, rfl⟩ := List.append_of_mem hmem
  obtain ⟨mid, hmid, hrest⟩ := Members.Leads.split h
  have hname : f.name ∈ shape.declared.map Prod.fst := shape.names_declared ▸ List.mem_map_of_mem hf
  have hkeys : keysOf (es₁ ++ (f.name, value) :: es₂) = keysOf es₁ ++ f.name :: keysOf es₂ :=
    List.map_append
  rw [hkeys] at hdistinct
  obtain ⟨hdistinct₁, hfresh, hlast⟩ := fresh_of_nodup hname hdistinct
  obtain ⟨d₁, hread₁⟩ := hmid.decodeFields_nil hnames hc haccepted.of_append hdistinct₁ draft
  rw [decodeRecord_object, hread₁] at hread
  obtain ⟨out, hout, hread⟩ := bind_eq_ok hread
  have hd : out.1 = d := by
    split at hread
    · cases hread
    · exact Except.ok.inj hread
  cases hrest with
  | @member _ key _ rest _ _ hkey hrest =>
    rw [Members.decodeFields_field hnames hf hkey hfresh, bind_of_eq_ok hput] at hout
    -- behind its place the name does not come again, so nothing changes the part any more
    have hkeep : ∀ g ∈ shape.fields, ∀ j put, rest.Has g.name j → g.decode j = .ok put →
        ∀ d, get d = b → get (put d) = b := by
      intro g hg j put hhas hdecode d hd
      have hentry := Members.Leads.mem_of_has hrest hhas
      have hother : g.name ≠ f.name := by
        intro heq
        rw [heq] at hentry
        exact hlast (List.mem_map_of_mem hentry)
      rw [hothers g hg hother j put hdecode d, hd]
    rw [← hd]
    exact Members.decodeFields_induct hkeep hout (hget d₁)

/-- An object all of whose values are accepted, with wrong keys. -/
inductive Fails (shape : RecordShape δ) : Json → DataError → Prop
  | keys {m : Members} {es : List (String × Json)} {e : DataError} : m.Lists es → Accepted shape es →
    Wrong shape.declared (keysOf es) e → Fails shape (.object m) e

include hnames in
theorem Fails.decodeRecord {j : Json} {e : DataError} (h : Fails shape j e) (hc : j.complete = true)
    (room : Nat) : j.decodeRecord shape draft (room + 1) = .error (.data e) := by
  cases h with
  | keys hm haccepted hwrong => exact decodeRecord_of_wrong hnames hm hc haccepted hwrong room

/-- A text of an object with these entries, whose values the record accepts. -/
def ObjectText (shape : RecordShape δ) (es : List (String × Json)) (text : String) : Prop :=
  ∃ m, SpellsText text (.object m) ∧ m.Lists es ∧ Accepted shape es

theorem objectText_render (hprintable : (object (.ofList es)).Printable) (h : Accepted shape es) :
    ObjectText shape es (object (.ofList es)).render :=
  ⟨_, spellsText_render hprintable, Members.lists_ofList es, h⟩

include hnames in
/-- A text of an object is refused for what is wrong with its keys, and read if they are in order. -/
theorem decode_of_objectText {text : String} (h : ObjectText shape es text) {decoder : Json → Decoded δ}
    {room : Nat} (hdecoder : ∀ j, decoder j = j.decodeRecord shape draft (room + 1)) :
    (∀ e, Wrong shape.declared (keysOf es) e → decode decoder text = .error (.data e))
      ∧ (InOrder shape.declared (keysOf es) → ∃ d, decode decoder text = .ok d) := by
  obtain ⟨m, htext, hm, haccepted⟩ := h
  rw [htext.decode, hdecoder]
  exact ⟨fun e hwrong => decodeRecord_of_wrong hnames hm htext.complete haccepted hwrong room,
    fun horder => decodeRecord_of_inOrder hnames hm htext.complete haccepted horder room⟩

/-! ## Faults inside values

A value may have a fault of its own. It is the fault of the record if the reader gets that far: no key
before it repeats, its own key does not either, and all values before it are accepted. -/

/-- Members that are in order as far as the value of a name. -/
def Members.Arrives (m : Members) (shape : RecordShape δ) (name : String) (value : Json) : Prop :=
  ∃ es key rest, m.Leads es (.member key value rest) ∧ IsText name key ∧ Accepted shape es
    ∧ (known shape.declared (keysOf es ++ [name])).Nodup

/-- Nothing stands before the first value. -/
theorem Members.Arrives.first {name : String} {key value : Json} (hkey : IsText name key)
    (rest : Members) : (Members.member key value rest).Arrives shape name value :=
  ⟨[], key, rest, .done, hkey, .nil, (List.filter_sublist ..).nodup (List.pairwise_singleton _ name)⟩

theorem Members.Arrives.complete {name : String} {value : Json} (h : m.Arrives shape name value)
    (hc : m.complete = true) : value.complete = true := by
  obtain ⟨es, key, rest, hm, -⟩ := h
  exact (Bool.and_eq_true_iff.1 (Bool.and_eq_true_iff.1 (hm.complete hc)).1).2

include hnames in
/-- What is wrong with a value is wrong with the record, if everything before it is in order. -/
theorem Members.Arrives.decodeRecord (hf : f ∈ shape.fields) {value : Json}
    (h : m.Arrives shape f.name value) (hc : m.complete = true) {e : Fault}
    (hvalue : f.decode value = .error e) (room : Nat) :
    (object m).decodeRecord shape draft (room + 1) = .error e := by
  obtain ⟨es, key, rest, hm, hkey, haccepted, hdistinct⟩ := h
  have hname : f.name ∈ shape.declared.map Prod.fst := shape.names_declared ▸ List.mem_map_of_mem hf
  obtain ⟨hdistinct, hfresh, -⟩ := fresh_of_nodup hname hdistinct
  obtain ⟨d, hread⟩ := hm.decodeFields_nil hnames hc haccepted hdistinct draft
  rw [decodeRecord_object, hread, Members.decodeFields_field hnames hf hkey hfresh, hvalue]
  rfl

end Reading

section Lists

variable {α : Type} {decode : Json → Decoded α} {value : Json} {l : Items}

/-- Items that are accepted as far as one of them. -/
inductive Items.Arrives (decode : Json → Decoded α) (value : Json) : Items → Prop
  | here {rest : Items} : Arrives decode value (.item value rest)
  | later {a : α} {other : Json} {rest : Items} : decode other = .ok a → Arrives decode value rest →
    Arrives decode value (.item other rest)

theorem Items.Arrives.complete (h : l.Arrives decode value) (hc : l.complete = true) :
    value.complete = true := by
  induction h with
  | here => exact (Bool.and_eq_true_iff.1 hc).1
  | later _ _ ih => exact ih (Bool.and_eq_true_iff.1 hc).2

/-- What is wrong with an item is wrong with the list, if all items before it are accepted. -/
theorem Items.Arrives.decodeAll (h : l.Arrives decode value) {e : Fault}
    (hvalue : decode value = .error e) : l.decodeAll decode = .error e := by
  induction h with
  | here =>
    rw [Items.decodeAll, hvalue]
    rfl
  | later hother _ ih =>
    rw [Items.decodeAll, bind_of_eq_ok hother, ih]
    rfl

theorem Items.Arrives.decodeList (h : l.Arrives decode value) {e : Fault}
    (hvalue : decode value = .error e) (room : Nat) :
    (array l).decodeList (room + 1) decode = .error e := h.decodeAll hvalue

end Lists

end Casebook.Json
