import Casebook.Proofs.Json.Forms
import Casebook.Proofs.Result.RoundTrip

/-!
# The forms of a result

A result can be written in many forms, and each of its parts too. The records among them may be objects,
with their entries in any order and with other members in between, or arrays; what is missing may be
`null` or left out; a status may be a text or an object; an entry of the properties may follow others of
its name, which it replaces.

`Result.ofJson_of_form` says that every form of a result is read as that result, by induction on the
number of levels that there is room for.
-/

namespace Casebook

open Json (Decoded Entry HoldsRecord IsText IsText? Link)

/-! ## Statuses

A status has two forms, and the second takes room for one object. -/

namespace Status

/-- A status is written as its name, or as an object with the name for its only key and the value
`null`. -/
def Form (v : Status) (j : Json) : Prop :=
  IsText v.name j ∨ ∃ key, IsText v.name key ∧ j = .object (.member key .null .close)

theorem form_toJson (v : Status) : v.Form v.toJson :=
  .inl (tag_eq_name v ▸ Json.isText_ofString v.tag)

theorem ofJson_of_form {v : Status} {j : Json} (h : v.Form j) (room : Nat) :
    ofJson (room + 1) j = .ok v := by
  rcases h with ⟨ps, rfl, hps⟩ | ⟨key, hkey, rfl⟩
  · rw [ofJson, Json.decodeVariant, Json.bind_of_eq_ok hps, ofTag?_name]
    rfl
  · rw [ofJson, Json.decodeVariant, if_neg (Nat.succ_ne_zero room)]
    show (key.decodeText .variant >>= _) = _
    rw [Json.bind_of_eq_ok (hkey.decodeText .variant), ofTag?_name]
    rfl

end Status

/-! ## Intervals

Bounds are read before their order is looked at. So the forms are those of bounds, in whatever order, and
an interval is read from the forms of its bounds. -/

namespace Interval

/-- Reads bounds, in whatever order of time. -/
def Bounds.ofJson (j : Json) : Decoded Bounds := j.decodeRecord shape {} 1

def bounds (i : Interval) : Bounds := ⟨i.start, i.stop⟩

theorem ofBounds_eq_ok_iff {start stop : Millis} {i : Interval} :
    ofBounds start stop = .ok i ↔ i.bounds = ⟨start, stop⟩ := by
  obtain ⟨s, e, hse⟩ := i
  rw [ofBounds, bounds, Bounds.mk.injEq]
  constructor
  · intro h
    split at h
    · cases h
      exact ⟨rfl, rfl⟩
    · cases h
  · rintro ⟨rfl, rfl⟩
    exact dif_pos hse

theorem ofBounds_of_lt {start stop : Millis} (h : stop < start) :
    ofBounds start stop = .error ⟨start, stop⟩ := dif_neg (UInt64.not_le.2 h)

/-- Where there is room for them, bounds are read and then checked. -/
theorem ofJson_succ (room : Nat) (j : Json) : ofJson (room + 1) j = Bounds.ofJson j >>= fun b =>
    (ofBounds b.start b.stop).mapError fun e => .data (.rule e.message) := by
  have hread : j.decodeRecord shape {} (room + 1) = Bounds.ofJson j := by cases j <;> rfl
  rw [ofJson, hread]
  refine congrArg (Bounds.ofJson j >>= ·) (funext fun b => ?_)
  cases ofBounds b.start b.stop <;> rfl

theorem ofJson_succ_eq_ok_iff {room : Nat} {j : Json} {i : Interval} :
    ofJson (room + 1) j = .ok i ↔ Bounds.ofJson j = .ok i.bounds := by
  rw [ofJson_succ]
  constructor
  · intro h
    obtain ⟨b, hb, h⟩ := Json.bind_eq_ok h
    cases hi : ofBounds b.start b.stop with
    | error e =>
      rw [hi] at h
      cases h
    | ok i' =>
      rw [hi] at h
      obtain rfl : i' = i := Except.ok.inj h
      rw [hb, ofBounds_eq_ok_iff.1 hi]
  · intro h
    have hbounds : ofBounds i.bounds.start i.bounds.stop = .ok i := ofBounds_eq_ok_iff.2 rfl
    rw [Json.bind_of_eq_ok h, hbounds]
    rfl

/-- Bounds in the wrong order are refused in the words of their refusal. -/
theorem ofJson_succ_of_inverted {room : Nat} {j : Json} {b : Bounds} (h : Bounds.ofJson j = .ok b)
    (hlt : b.stop < b.start) :
    ofJson (room + 1) j = .error (.data (.rule (Inverted.message ⟨b.start, b.stop⟩))) := by
  rw [ofJson_succ, Json.bind_of_eq_ok h, ofBounds_of_lt hlt]
  rfl

theorem bounds_of_ofJson {room : Nat} {j : Json} {i : Interval} (h : ofJson room j = .ok i) :
    Bounds.ofJson j = .ok i.bounds := by
  cases room with
  | zero =>
    obtain ⟨b, hb, -⟩ := Json.bind_eq_ok h
    exact absurd hb (Json.decodeRecord_zero_ne_ok _ j b)
  | succ room => exact ofJson_succ_eq_ok_iff.1 h

namespace Bounds

/-- What is written of bounds. -/
def entries (b : Bounds) : List Entry := [
  ⟨"startMillis", False, fun j => j = .ofNat b.start.toNat⟩,
  ⟨"endMillis", False, fun j => j = .ofNat b.stop.toNat⟩]

/-- The forms of bounds, in whatever order of time. -/
def Form (b : Bounds) : Json → Prop := HoldsRecord b.entries

def links (b : Bounds) : List (Link Bounds) :=
  Link.zip shape.fields b.entries [fun d => { d with start := .ofNat b.start.toNat },
    fun d => { d with stop := .ofNat b.stop.toNat }]

theorem sound_links (b : Bounds) : ∀ k ∈ b.links, k.Sound {} := by
  have hread {t : Millis} {j : Json} (h : j = .ofNat t.toNat) : j.decodeNat .millis = .ok t.toNat := by
    rw [h, decodeNat_ofNat_toNat]
  simp only [links, Link.zip, entries, shape, List.forall_mem_cons]
  refine ⟨?start, ?stop, List.forall_mem_nil _⟩
  case start => exact .of_value fun j _ h => hread h
  case stop => exact .of_value fun j _ h => hread h

theorem commute_links (b : Bounds) : Json.Commute b.links := by
  simp [Json.Commute, links, Link.zip, entries, shape]

theorem ofJson_of_form {b : Bounds} {j : Json} (h : b.Form j) (hc : j.complete = true) :
    Bounds.ofJson j = .ok b := by
  have hfields : shape.fields = b.links.map Link.field := rfl
  have hall : Json.setAll b.links {} = b := by
    show (⟨.ofNat b.start.toNat, .ofNat b.stop.toNat⟩ : Bounds) = b
    rw [UInt64.ofNat_toNat, UInt64.ofNat_toNat]
  have hread := Json.decodeRecord_of_holds hfields (by decide) b.sound_links b.commute_links h hc 0
  rwa [hall] at hread

end Bounds

/-- An interval is written as its bounds, and none as `null`. -/
def Form? : Option Interval → Json → Prop
  | some i, j => i.bounds.Form j
  | none, j => j = .null

theorem form_toJson? (i : Option Interval) : Form? i (toJson? i) := by
  cases i with
  | none => rfl
  | some i =>
    have hitems : (Json.Items.ofList [.ofNat i.start.toNat, .ofNat i.stop.toNat]).Holds
        i.bounds.entries := .item rfl (.item rfl .close)
    exact Json.holdsRecord_ofList hitems

theorem ofJson_of_form {i : Interval} {j : Json} (h : i.bounds.Form j) (hc : j.complete = true)
    (room : Nat) : ofJson (room + 1) j = .ok i :=
  ofJson_succ_eq_ok_iff.2 (Bounds.ofJson_of_form h hc)

theorem decodeOption_of_form? {i : Option Interval} {j : Json} (h : Form? i j)
    (hc : j.complete = true) (room : Nat) : j.decodeOption (ofJson (room + 1)) = .ok i := by
  cases i with
  | none =>
    obtain rfl : j = .null := h
    rfl
  | some i =>
    have hread : j.decodeOption (ofJson (room + 1)) = (ofJson (room + 1) j).map some := by
      cases h <;> rfl
    rw [hread]
    exact Json.map_of_eq_ok (ofJson_of_form h hc room)

end Interval

/-! ## Failures

A failure is a record all of whose fields may be left out. In an array nothing can be left out, and what
is missing is `null`. -/

namespace Failure

/-- What is written of a failure. Any part may be missing. -/
def entries (f : Failure) : List Entry := [
  ⟨"message", f.message = none, IsText? f.message⟩,
  ⟨"kind", f.kind = none, IsText? f.kind⟩,
  ⟨"description", f.description = none, IsText? f.description⟩]

def Form (f : Failure) : Json → Prop := HoldsRecord f.entries

def links (f : Failure) : List (Link Failure) :=
  Link.zip shape.fields f.entries [fun d => { d with message := f.message },
    fun d => { d with kind := f.kind }, fun d => { d with description := f.description }]

theorem sound_links (f : Failure) : ∀ k ∈ f.links, k.Sound {} := by
  simp only [links, Link.zip, entries, shape, List.forall_mem_cons]
  refine ⟨?message, ?kind, ?description, List.forall_mem_nil _⟩
  case message => exact .of_option (fun j _ h => h.decodeOption) rfl
  case kind => exact .of_option (fun j _ h => h.decodeOption) rfl
  case description => exact .of_option (fun j _ h => h.decodeOption) rfl

theorem commute_links (f : Failure) : Json.Commute f.links := by
  simp [Json.Commute, links, Link.zip, entries, shape]

theorem ofJson_of_form {f : Failure} {j : Json} (h : f.Form j) (hc : j.complete = true)
    (room : Nat) : ofJson (room + 1) j = .ok f := by
  have hfields : shape.fields = f.links.map Link.field := rfl
  exact Json.decodeRecord_of_holds hfields (by decide) f.sound_links f.commute_links h hc room

theorem form_toJson (f : Failure) : f.Form f.toJson := by
  have hitems : (Json.Items.ofList [.ofString? f.message, .ofString? f.kind,
      .ofString? f.description]).Holds f.entries := by
    refine .item (Json.isText?_ofString? f.message) ?_
    refine .item (Json.isText?_ofString? f.kind) ?_
    exact .item (Json.isText?_ofString? f.description) .close
  exact Json.holdsRecord_ofList hitems

end Failure

/-! ## Properties

Any names are known here, so the form is not that of a record: an object of texts, in any order and with
repeated names. -/

namespace Properties

/-- Properties are written as an object of texts in which the last entries of their names are those of
the properties. -/
def Form (p : Properties) (j : Json) : Prop :=
  ∃ m es, j = .object m ∧ m.Texts es ∧ ∀ e, e ∈ p.entries ↔ LastOf e es

theorem ofJson_of_form {p : Properties} {j : Json} (h : p.Form j) (room : Nat) :
    ofJson (room + 1) j = .ok p := by
  obtain ⟨m, es, rfl, hm, hes⟩ := h
  have hread : Json.decodeTexts (room + 1) (.object m) = .ok es := hm.decodeTexts
  have hlist : ofList es = p := eq_of_mem_iff fun e => mem_entries_ofList.trans (hes e).symm
  rw [ofJson, Json.map_of_eq_ok hread, hlist]

theorem form_toJson (p : Properties) : p.Form p.toJson :=
  ⟨_, p.entries, rfl, Json.Members.texts_ofList p.entries,
    fun _ => (lastOf_iff_mem p.ascending).symm⟩

end Properties

/-! ## Results

`Result.Form` is a recursion over results and their lists, stated on trees without a word about how they
are read. `Result.form_iff` unfolds one level of it, as the record that `Json.decodeRecord_of_holds` is
about. -/

namespace Result

/-- What is written of a result, whatever the forms of its list of sub-tests. -/
def entries (r : Result) (children : Json → Prop) : List Entry := [
  ⟨"name", False, IsText r.name⟩,
  ⟨"className", False, IsText r.className⟩,
  ⟨"properties", False, r.properties.Form⟩,
  ⟨"failures", False, Json.IsList Failure.Form r.failures⟩,
  ⟨"runTimeInterval", r.interval? = none, Interval.Form? r.interval?⟩,
  ⟨"status", False, r.status.Form⟩,
  ⟨"numTests", False, fun j => j = .ofNat r.numTests⟩,
  ⟨"numFailures", False, fun j => j = .ofNat r.numFailures⟩,
  ⟨"childResults", False, children⟩]

mutual

def Form : Result → Json → Prop
  | ⟨name, className, properties, failures, interval?, status, numTests, numFailures, children⟩ =>
    HoldsRecord (entries ⟨name, className, properties, failures, interval?, status, numTests,
      numFailures, []⟩ fun j => ∃ l, j = .array l ∧ AllForm children l)

def AllForm : List Result → Json.Items → Prop
  | [], l => l = .close
  | r :: rs, l => ∃ value rest, l = .item value rest ∧ r.Form value ∧ AllForm rs rest

end

theorem allForm_iff {rs : List Result} {l : Json.Items} : AllForm rs l ↔ l.Each Form rs := by
  induction rs generalizing l with
  | nil =>
    rw [AllForm]
    exact ⟨fun h => h ▸ .close, fun h => by cases h; rfl⟩
  | cons r rs ih =>
    rw [AllForm]
    constructor
    · rintro ⟨value, rest, rfl, hvalue, hrest⟩
      exact .item hvalue (ih.1 hrest)
    · rintro (_ | ⟨hvalue, hrest⟩)
      exact ⟨_, _, rfl, hvalue, ih.2 hrest⟩

theorem form_iff {r : Result} {j : Json} :
    r.Form j ↔ HoldsRecord (r.entries (Json.IsList Form r.children)) j := by
  have hchildren : Json.IsList Form r.children = fun j => ∃ l, j = .array l ∧ AllForm r.children l := by
    funext j
    simp only [Json.IsList, allForm_iff]
  rw [hchildren]
  cases r
  rw [Form]
  rfl

/-- The fields of a result, with what they read and set. -/
def links (r : Result) (room : Nat) (child : Json → Decoded Result) : List (Link Result) :=
  Link.zip (shape room child).fields (r.entries (Json.IsList Form r.children)) [
    fun d => { d with name := r.name }, fun d => { d with className := r.className },
    fun d => { d with properties := r.properties }, fun d => { d with failures := r.failures },
    fun d => { d with interval? := r.interval? }, fun d => { d with status := r.status },
    fun d => { d with numTests := r.numTests }, fun d => { d with numFailures := r.numFailures },
    fun d => { d with children := r.children }]

/-- Fields set different parts of the result, so they may come in any order. -/
theorem commute_links (r : Result) (room : Nat) (child : Json → Decoded Result) :
    Json.Commute (r.links room child) := by
  simp [Json.Commute, links, Link.zip, entries, shape]

/-- Every field reads what the form of the result says of it, and sets its own part. The forms of parts are
read by the lemmas above, those of sub-tests by assumption. -/
theorem sound_links {r : Result} (hfits : r.Fits) (room : Nat) {child : Json → Decoded Result}
    (hchild : ∀ c ∈ r.children, ∀ j, j.complete = true → c.Form j → child j = .ok c) :
    ∀ k ∈ r.links (room + 2) child, k.Sound blank := by
  obtain ⟨htests, hfailures, -⟩ := fits_iff.1 hfits
  have hcount {n : Nat} (hn : n ≤ Json.Numeral.maxWord) {j : Json} (h : j = .ofNat n) :
      j.decodeNat .count = .ok n := by
    rw [h]
    exact Json.decodeNat_ofNat .count hn
  have hread : ∀ f ∈ r.failures, ∀ j, j.complete = true → f.Form j →
      Failure.ofJson (room + 1) j = .ok f := fun _ _ _ hc h => Failure.ofJson_of_form h hc room
  simp only [links, Link.zip, entries, shape, List.forall_mem_cons]
  refine ⟨?name, ?className, ?properties, ?failures, ?interval, ?status, ?numTests, ?numFailures,
    ?children, List.forall_mem_nil _⟩
  case name => exact .of_value fun j _ h => h.decodeText .text
  case className => exact .of_value fun j _ h => h.decodeText .text
  case properties => exact .of_value fun j _ h => Properties.ofJson_of_form h (room + 1)
  case failures => exact .of_value fun j hc h => h.decodeList hc (room + 1) hread
  case interval =>
    exact .of_option (fun j hc h => Interval.decodeOption_of_form? h hc (room + 1)) rfl
  case status => exact .of_value fun j _ h => Status.ofJson_of_form h (room + 1)
  case numTests => exact .of_value fun j _ h => hcount htests h
  case numFailures => exact .of_value fun j _ h => hcount hfailures h
  case children => exact .of_value fun j hc h => h.decodeList hc (room + 1) hchild

/-- With room for `k` levels of results, every form of a result with no more levels is read as it. -/
theorem ofJson_of_form (k : Nat) {r : Result} {j : Json} (hfits : r.Fits) (hheight : r.height ≤ k)
    (h : r.Form j) (hc : j.complete = true) : ofJson (2 * k + 1) j = .ok r := by
  induction k generalizing r j with
  | zero => exact absurd hheight (Nat.not_le.2 r.height_pos)
  | succ k ih =>
    have hchild : ∀ c ∈ r.children, ∀ i, i.complete = true → c.Form i →
        ofJson (2 * k + 1) i = .ok c := fun c hc i hi hform =>
      ih ((fits_iff.1 hfits).2.2 c hc) (height_le_succ_iff.1 hheight c hc) hform hi
    -- a level of results takes two levels of JSON, so the sub-tests have room for `k` levels
    have hsound := sound_links hfits (2 * k) hchild
    have hcommute := r.commute_links (2 * k + 2) (ofJson (2 * k + 1))
    have hfields : (shape (2 * k + 2) (ofJson (2 * k + 1))).fields
        = (r.links (2 * k + 2) (ofJson (2 * k + 1))).map Link.field := rfl
    have hread := Json.decodeRecord_of_holds hfields (nodup_names _ _) hsound hcommute
      (form_iff.1 h) hc (2 * k + 2)
    show Json.decodeRecord (shape (2 * k + 2) (ofJson (2 * k + 1))) blank (2 * k + 3) j = _
    rw [hread]
    cases r
    rfl

mutual

theorem form_toJson : ∀ r : Result, r.Form r.toJson
  | ⟨name, className, properties, failures, interval?, status, numTests, numFailures, children⟩ => by
    rw [Form]
    refine @Json.holdsRecord_ofList _ [_, _, _, _, _, _, _, _, _] ?_
    refine .item (Json.isText_ofString name) ?_
    refine .item (Json.isText_ofString className) ?_
    refine .item properties.form_toJson ?_
    refine .item (Json.isList_ofList fun f _ => f.form_toJson) ?_
    refine .item (Interval.form_toJson? interval?) ?_
    refine .item status.form_toJson ?_
    refine .item rfl ?_
    refine .item rfl ?_
    exact .item ⟨_, rfl, allForm_itemsOf children⟩ .close

theorem allForm_itemsOf : ∀ rs : List Result, AllForm rs (itemsOf rs)
  | [] => rfl
  | r :: rs => ⟨_, _, rfl, form_toJson r, allForm_itemsOf rs⟩

end

/-! ## Texts

What is true of trees is true of texts: a text that spells a tree is read as that tree, with blanks where
they may stand and with any spelling of texts and numbers. -/

/-- A result of at most 63 levels is read from every text that spells one of its forms. What is written
of a result is such a form. -/
theorem decode_of_form (r : Result) :
    r.Form r.toJson ∧ ∀ (j : Json) (cs ws : List Char), r.Fits → r.height ≤ 63 → r.Form j →
      Json.Spells cs (.value j) → Json.Blank ws →
        Json.decode (ofJson Json.maxOpen) (String.ofList (cs ++ ws)) = .ok r := by
  refine ⟨r.form_toJson, fun j cs ws hfits hheight hform hspells hws => ?_⟩
  rw [Json.decode_of_spells _ hspells hws]
  exact ofJson_of_form 63 hfits hheight hform hspells.complete

/-- A text in which the status comes first and is an object, another member stands in between, a
property is given twice, a failure leaves out what is missing, the interval is an array, and so is the
sub-test. -/
theorem decode_of_form_mixed :
    let leaf : Result := { blank with name := "leaf", numTests := 1 }
    let r : Result := { blank with
      properties := .ofList [("a", "old"), ("a", "new")], failures := [.ofMessage "m"],
      interval? := some ⟨5, 7, by decide⟩, children := [leaf] }
    let inner : Json := .array (.ofList [.ofString "leaf", .ofString "", .object .close, .array .close,
      .null, .ofString "skipped", .ofNat 1, .ofNat 0, .array .close])
    let outer : Json := .object (.ofList [
      ("status", .object (.ofList [("skipped", .null)])), ("extra", .array (.ofList [.null])),
      ("name", .ofString ""), ("className", .ofString ""),
      ("properties", .object (.ofList [("a", .ofString "old"), ("a", .ofString "new")])),
      ("failures", .array (.ofList [.object (.ofList [("message", .ofString "m")])])),
      ("runTimeInterval", .array (.ofList [.ofNat 5, .ofNat 7])),
      ("numTests", .ofNat 0), ("numFailures", .ofNat 0), ("childResults", .array (.ofList [inner]))])
    r.Form outer ∧ Json.decode (ofJson Json.maxOpen)
      (String.ofList ((['\n', ' '] ++ outer.chars) ++ ['\t'])) = .ok r := by
  intro leaf r inner outer
  have hinner : leaf.Form inner := by
    refine form_iff.2 (.array ?_)
    refine .item (Json.isText_ofString "leaf") ?_
    refine .item (Json.isText_ofString "") ?_
    refine .item (Properties.form_toJson ∅) ?_
    refine .item ⟨_, rfl, .close⟩ ?_
    refine .item rfl ?_
    refine .item (Status.form_toJson .skipped) ?_
    refine .item rfl ?_
    refine .item rfl ?_
    exact .item ⟨_, rfl, .close⟩ .close
  have hfailure : (Failure.ofMessage "m").Form (.object (.ofList [("message", .ofString "m")])) := by
    refine .object (.head (Json.isText_ofString "message") (Json.isText_ofString "m") (.close ?_))
    simp [Failure.ofMessage]
  have hproperties : r.properties.Form
      (.object (.ofList [("a", .ofString "old"), ("a", .ofString "new")])) :=
    ⟨_, _, rfl, Json.Members.texts_ofList [("a", "old"), ("a", "new")],
      fun _ => Properties.mem_entries_ofList⟩
  have hstatus : r.status.Form (.object (.ofList [("skipped", .null)])) :=
    .inr ⟨_, Json.isText_ofString "skipped", rfl⟩
  have hform : r.Form outer := by
    refine form_iff.2 (.object ?_)
    -- the status stands before the five entries that come first in the list
    refine @Json.Members.Holds.entry _ [_, _, _, _, _] _ _ _ _ _ (Json.isText_ofString "status")
      hstatus ?_
    refine .other ?_ (Json.isText_ofString "extra") ?_
    · decide
    refine .head (Json.isText_ofString "name") (Json.isText_ofString "") ?_
    refine .head (Json.isText_ofString "className") (Json.isText_ofString "") ?_
    refine .head (Json.isText_ofString "properties") hproperties ?_
    refine .head (Json.isText_ofString "failures") ⟨_, rfl, .item hfailure .close⟩ ?_
    refine .head (Json.isText_ofString "runTimeInterval") (.array (.item rfl (.item rfl .close))) ?_
    refine .head (Json.isText_ofString "numTests") rfl ?_
    refine .head (Json.isText_ofString "numFailures") rfl ?_
    refine .head (Json.isText_ofString "childResults") ⟨_, rfl, .item hinner .close⟩ ?_
    exact .close nofun
  have hprintable : outer.Printable := by
    have htext := Json.printable_ofString
    have hnumber := Json.printable_ofNat
    exact ⟨htext "status", ⟨htext "skipped", trivial, trivial⟩, htext "extra", ⟨trivial, trivial⟩,
      htext "name", htext "", htext "className", htext "", htext "properties",
      ⟨htext "a", htext "old", htext "a", htext "new", trivial⟩, htext "failures",
      ⟨⟨htext "message", htext "m", trivial⟩, trivial⟩, htext "runTimeInterval",
      ⟨hnumber 5, hnumber 7, trivial⟩, htext "numTests", hnumber 0, htext "numFailures", hnumber 0,
      htext "childResults", ⟨⟨htext "leaf", htext "", trivial, trivial, trivial, htext "skipped",
        hnumber 1, hnumber 0, trivial, trivial⟩, trivial⟩, trivial⟩
  have hblank : Json.Blank ['\n', ' '] := Json.blank_iff_all.2 rfl
  have hend : Json.Blank ['\t'] := Json.blank_iff_all.2 rfl
  have hfits : r.Fits := ⟨by decide, by decide, ⟨by decide, by decide, trivial⟩, trivial⟩
  have hspells := Json.Spells.blanks hblank (Json.spells_chars hprintable)
  exact ⟨hform, (decode_of_form r).2 outer _ _ hfits (by decide) hform hspells hend⟩

end Result

end Casebook
