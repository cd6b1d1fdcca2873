import Casebook.Proofs.Json.Faults
import Casebook.Proofs.Result.Forms

/-!
# What is wrong with the text of a result

The objects of results, failures and intervals are refused for their keys, and an interval for the order
of its bounds; `Json.Fails`, `Interval.Fails` and `Result.Fails` say for which objects and in which words. A
fault of a failure, of an interval or of the result of a sub-test is the fault of the whole text, if
everything before it is in order (`Result.Reaches`).

How deep a text may be nested bounds how deep such a fault may stand: a level of results opens an object
and a list. At the last level there is an object but no room for a list in it (`Result.TooDeep`), and a
text that goes on there is malformed.

`Result.ofJson_eq_error_of_reaches` is the step of the argument, one level of results after the other, and
`Result.faults_of_objects` the main result.
-/

namespace Casebook

open Json (Accepted DataError Decoded Fault Field InOrder ObjectText RecordShape SpellsText Wrong keysOf)

/-! ## Intervals

With an interval one thing can be wrong that is not about keys. It is looked at only after both bounds
were read, so an object with a wrong key is never refused for the order of its bounds. -/

namespace Interval

/-- Entries that give two bounds, in whatever order of time. -/
def Gives (es : List (String × Json)) (start stop : Nat) : Prop :=
  (∃ j, ("startMillis", j) ∈ es ∧ j.decodeNat .millis = .ok start)
    ∧ ∃ j, ("endMillis", j) ∈ es ∧ j.decodeNat .millis = .ok stop

/-- An object that is no interval though all its values are accepted: its keys are wrong, or else its
start is after its end. -/
inductive Fails : Json → DataError → Prop
  | keys {j : Json} {e : DataError} : Json.Fails shape j e → Fails j e
  | inverted {m : Json.Members} {es : List (String × Json)} {start stop : Nat} :
    m.Lists es → Accepted shape es → InOrder shape.declared (keysOf es) → Gives es start stop →
    stop < start →
    Fails (.object m) (.rule s!"interval start ({start} ms) is after its end ({stop} ms)")

theorem nodup_names : (shape.fields.map Field.name).Nodup := by decide

section Bounds

variable {m : Json.Members} {es : List (String × Json)} {start stop : Nat}

/-- Entries that are accepted and in order give bounds. Both bounds have to be there, so both are, and what
is accepted as a bound is a number. -/
theorem exists_gives (haccepted : Accepted shape es) (horder : InOrder shape.declared (keysOf es)) :
    ∃ start stop, Gives es start stop := by
  have hvalue : ∀ f ∈ shape.fields, ∃ j put, (f.name, j) ∈ es ∧ f.decode j = .ok put := by
    intro f hf
    have hrequired : f.required = true := by
      simp only [shape, List.mem_cons, List.not_mem_nil, or_false] at hf
      rcases hf with rfl | rfl <;> rfl
    have hkey := horder.present _ (List.mem_map_of_mem hf) hrequired
    obtain ⟨⟨_, j⟩, he, rfl⟩ := List.mem_map.1 hkey
    obtain ⟨put, hput⟩ := haccepted _ he f hf rfl
    exact ⟨j, put, he, hput⟩
  obtain ⟨a, put, ha, hput⟩ := hvalue _ (List.mem_of_getElem? (rfl : shape.fields[0]? = some _))
  obtain ⟨b, put', hb, hput'⟩ := hvalue _ (List.mem_of_getElem? (rfl : shape.fields[1]? = some _))
  obtain ⟨start, hstart, -⟩ := Json.map_eq_ok hput
  obtain ⟨stop, hstop, -⟩ := Json.map_eq_ok hput'
  exact ⟨start, stop, ⟨a, ha, hstart⟩, b, hb, hstop⟩

/-- The bounds that are read are those that the entries give. -/
theorem bounds_of_gives (h : m.Lists es) (hc : m.complete = true) (haccepted : Accepted shape es)
    (horder : InOrder shape.declared (keysOf es)) (hgives : Gives es start stop) :
    Bounds.ofJson (.object m) = .ok ⟨.ofNat start, .ofNat stop⟩ := by
  obtain ⟨⟨a, ha, hstart⟩, b, hb, hstop⟩ := hgives
  obtain ⟨⟨s, t⟩, hread⟩ := Json.decodeRecord_of_inOrder nodup_names h hc haccepted horder 0
  -- each bound is set by the field of its name, and by no other
  have hs : s = .ofNat start := by
    refine Json.get_eq_of_mem nodup_names Bounds.start
      (List.mem_of_getElem? (rfl : shape.fields[0]? = some _)) ?_ h hc haccepted horder.distinct ha
      (Json.map_of_eq_ok hstart) (fun _ => rfl) hread
    intro g hg hname j put hput d
    simp only [shape, List.mem_cons, List.not_mem_nil, or_false] at hg
    rcases hg with rfl | rfl
    · exact absurd rfl hname
    · obtain ⟨n, -, rfl⟩ := Json.map_eq_ok hput
      rfl
  have ht : t = .ofNat stop := by
    refine Json.get_eq_of_mem nodup_names Bounds.stop
      (List.mem_of_getElem? (rfl : shape.fields[1]? = some _)) ?_ h hc haccepted horder.distinct hb
      (Json.map_of_eq_ok hstop) (fun _ => rfl) hread
    intro g hg hname j put hput d
    simp only [shape, List.mem_cons, List.not_mem_nil, or_false] at hg
    rcases hg with rfl | rfl
    · obtain ⟨n, -, rfl⟩ := Json.map_eq_ok hput
      rfl
    · exact absurd rfl hname
  rw [Bounds.ofJson, hread, hs, ht]

theorem toNat_ofNat_of_decodeNat {j : Json} {n : Nat} (h : j.decodeNat .millis = .ok n) :
    (UInt64.ofNat n).toNat = n := by
  have hle := Json.le_maxWord_of_decodeNat h
  exact UInt64.toNat_ofNat_of_lt' (Nat.lt_succ_of_le hle)

theorem Gives.toNat (h : Gives es start stop) :
    (UInt64.ofNat start).toNat = start ∧ (UInt64.ofNat stop).toNat = stop := by
  obtain ⟨⟨_, _, hstart⟩, _, _, hstop⟩ := h
  exact ⟨toNat_ofNat_of_decodeNat hstart, toNat_ofNat_of_decodeNat hstop⟩

/-- Bounds that are given in the order of time are an interval. -/
theorem ofJson_of_gives (h : m.Lists es) (hc : m.complete = true) (haccepted : Accepted shape es)
    (horder : InOrder shape.declared (keysOf es)) (hgives : Gives es start stop) (hle : start ≤ stop)
    (room : Nat) :
    ∃ i, ofJson (room + 1) (.object m) = .ok i ∧ i.start.toNat = start ∧ i.stop.toNat = stop := by
  obtain ⟨hstart, hstop⟩ := hgives.toNat
  have hordered : UInt64.ofNat start ≤ UInt64.ofNat stop := by
    rw [UInt64.le_iff_toNat_le, hstart, hstop]
    exact hle
  refine ⟨⟨.ofNat start, .ofNat stop, hordered⟩, ?_, hstart, hstop⟩
  rw [ofJson_succ_eq_ok_iff]
  exact bounds_of_gives h hc haccepted horder hgives

end Bounds

theorem Inverted.message_eq {s t : Millis} {start stop : Nat} (hs : s.toNat = start)
    (ht : t.toNat = stop) : Inverted.message ⟨s, t⟩
      = s!"interval start ({start} ms) is after its end ({stop} ms)" := by
  subst hs ht
  rfl

theorem ofJson_of_fails {j : Json} {e : DataError} (h : Fails j e) (hc : j.complete = true)
    (room : Nat) : ofJson (room + 1) j = .error (.data e) := by
  cases h with
  | keys h =>
    rw [ofJson, h.decodeRecord nodup_names hc]
    rfl
  | @inverted m es start stop hm haccepted horder hgives hlt =>
    obtain ⟨hstart, hstop⟩ := hgives.toNat
    have hinverted : UInt64.ofNat stop < UInt64.ofNat start := by
      rw [UInt64.lt_iff_toNat_lt, hstart, hstop]
      exact hlt
    have hread := bounds_of_gives hm hc haccepted horder hgives
    have hrefused : ofJson (room + 1) (.object m) = _ := ofJson_succ_of_inverted hread hinverted
    rw [hrefused, Inverted.message_eq hstart hstop]

end Interval

theorem Properties.ofJson_of_texts {m : Json.Members} {ps : List (String × String)} (h : m.Texts ps)
    (room : Nat) : ofJson (room + 1) (.object m) = .ok (ofList ps) :=
  ofJson_of_form ⟨m, ps, rfl, h, fun _ => mem_entries_ofList⟩ room

theorem Failure.nodup_names : (Failure.shape.fields.map Field.name).Nodup := by decide

/-! ## Results and their parts

Two kinds of propositions describe trees here. `Result.Reaches` is a way into the tree, through sub-tests
behind which nothing is wrong; `Result.Fails` is something wrong at the end of it. Both carry the room
that is left, since that decides whether anything there is read at all. -/

namespace Result

/-- A result as a record, in an object inside of which `room` more may be opened. -/
def shapeAt : Nat → RecordShape Result
  | 0 => shape 0 fun _ => .error .malformed
  | room + 1 => shape (room + 1) (ofJson room)

theorem ofJson_succ (room : Nat) (j : Json) :
    ofJson (room + 1) j = j.decodeRecord (shapeAt room) blank (room + 1) := by
  cases room <;> rfl

theorem nodup_names_shapeAt (room : Nat) : ((shapeAt room).fields.map Field.name).Nodup := by
  cases room <;> exact nodup_names _ _

/-- A sub-test at any depth, behind members and items that are in order. Its result `i` is read where
`room'` arrays and objects may be opened. -/
inductive Reaches : (room : Nat) → (j : Json) → (room' : Nat) → (i : Json) → Prop
  | here {room : Nat} {j : Json} : Reaches room j room j
  | child {room room' : Nat} {m : Json.Members} {l : Json.Items} {value i : Json} :
    m.Arrives (shapeAt (room + 1)) "childResults" (.array l) → l.Arrives (ofJson room) value →
    Reaches room value room' i → Reaches (room + 2) (.object m) room' i

/-- The object of a result that fails, or one with a failure or an interval that fails, behind members
and items that are in order. -/
inductive Fails : (room : Nat) → Json → DataError → Prop
  | own {room : Nat} {j : Json} {e : DataError} : Json.Fails (shapeAt room) j e → Fails (room + 1) j e
  | failure {room : Nat} {m : Json.Members} {l : Json.Items} {value : Json} {e : DataError} :
    m.Arrives (shapeAt (room + 2)) "failures" (.array l) → l.Arrives (Failure.ofJson (room + 1)) value →
    Json.Fails Failure.shape value e → Fails (room + 3) (.object m) e
  | interval {room : Nat} {m : Json.Members} {value : Json} {e : DataError} :
    m.Arrives (shapeAt (room + 1)) "runTimeInterval" value → Interval.Fails value e →
    Fails (room + 2) (.object m) e

/-- An object in which no more may be opened, with a list or an interval behind members that are in
order. -/
inductive TooDeep : Json → Prop
  | failures {m : Json.Members} {l : Json.Items} :
    m.Arrives (shapeAt 0) "failures" (.array l) → TooDeep (.object m)
  | children {m : Json.Members} {l : Json.Items} :
    m.Arrives (shapeAt 0) "childResults" (.array l) → TooDeep (.object m)
  | interval {m m' : Json.Members} :
    m.Arrives (shapeAt 0) "runTimeInterval" (.object m') → TooDeep (.object m)

theorem Reaches.complete {room room' : Nat} {j i : Json} (h : Reaches room j room' i)
    (hc : j.complete = true) : i.complete = true := by
  induction h with
  | here => exact hc
  | child hm hl _ ih => exact ih (hl.complete (hm.complete hc))

/-- What is wrong with the result of a sub-test is wrong with the result. By induction on the way there:
at each level, the list of sub-tests is refused for the sub-test, and the record for the list. -/
theorem ofJson_eq_error_of_reaches {room room' : Nat} {j i : Json} {e : Fault} (h : Reaches room j room' i)
    (hc : j.complete = true) (hi : ofJson room' i = .error e) : ofJson room j = .error e := by
  induction h with
  | here => exact hi
  | @child room room' m l value i hm hl _ ih =>
    have hvalue := ih (hl.complete (hm.complete hc)) hi
    -- the last field
    have hfield := List.mem_of_getElem? (rfl : (shapeAt (room + 1)).fields[8]? = some _)
    rw [ofJson_succ]
    exact hm.decodeRecord (nodup_names_shapeAt _) hfield hc
      (Json.map_of_eq_error (hl.decodeList hvalue room)) (room + 1)

theorem ofJson_of_fails {room : Nat} {j : Json} {e : DataError} (h : Fails room j e)
    (hc : j.complete = true) : ofJson room j = .error (.data e) := by
  cases h with
  | own h =>
    rw [ofJson_succ]
    exact h.decodeRecord (nodup_names_shapeAt _) hc _
  | @failure room m l value _ hm hl hfails =>
    have hvalue : Failure.ofJson (room + 1) value = .error (.data e) :=
      hfails.decodeRecord Failure.nodup_names (hl.complete (hm.complete hc)) room
    -- the field before the interval
    have hfield := List.mem_of_getElem? (rfl : (shapeAt (room + 2)).fields[3]? = some _)
    rw [ofJson_succ]
    exact hm.decodeRecord (nodup_names_shapeAt _) hfield hc
      (Json.map_of_eq_error (hl.decodeList hvalue (room + 1))) _
  | @interval room m value _ hm hfails =>
    have hvalue := Interval.ofJson_of_fails hfails (hm.complete hc) room
    have hoption : value.decodeOption (Interval.ofJson (room + 1)) = .error (.data e) := by
      have hmap := Json.map_of_eq_error (f := some) hvalue
      cases hfails with
      | keys h => cases h with | keys => exact hmap
      | inverted => exact hmap
    have hfield := List.mem_of_getElem? (rfl : (shapeAt (room + 1)).fields[4]? = some _)
    rw [ofJson_succ]
    exact hm.decodeRecord (nodup_names_shapeAt _) hfield hc (Json.map_of_eq_error hoption) _

theorem ofJson_of_tooDeep {j : Json} (h : TooDeep j) (hc : j.complete = true) :
    ofJson 1 j = .error .malformed := by
  rw [ofJson_succ]
  cases h with
  | failures hm =>
    exact hm.decodeRecord (nodup_names_shapeAt 0)
      (List.mem_of_getElem? (rfl : (shapeAt 0).fields[3]? = some _)) hc rfl 0
  | children hm =>
    exact hm.decodeRecord (nodup_names_shapeAt 0)
      (List.mem_of_getElem? (rfl : (shapeAt 0).fields[8]? = some _)) hc rfl 0
  | interval hm =>
    exact hm.decodeRecord (nodup_names_shapeAt 0)
      (List.mem_of_getElem? (rfl : (shapeAt 0).fields[4]? = some _)) hc rfl 0

/-- Of several values under one name in the properties of a result, the last one stays. -/
theorem properties_of_mem {room : Nat} {m m' : Json.Members} {es : List (String × Json)}
    {ps : List (String × String)} (h : m.Lists es) (hc : m.complete = true)
    (haccepted : Accepted (shapeAt room) es) (hmem : ("properties", .object m') ∈ es) (hps : m'.Texts ps)
    {r : Result} (hread : ofJson (room + 1) (.object m) = .ok r) : r.properties = .ofList ps := by
  have hdistinct : (Json.known (shapeAt room).declared (keysOf es)).Nodup := by
    rcases Json.inOrder_or_wrong (shapeAt room).declared (keysOf es) with horder | ⟨e, hwrong⟩
    · exact horder.distinct
    · rw [ofJson_succ, Json.decodeRecord_of_wrong (nodup_names_shapeAt room) h hc haccepted hwrong] at hread
      cases hread
  cases room with
  | zero =>
    -- there is no room for properties at all
    have hfield := List.mem_of_getElem? (rfl : (shapeAt 0).fields[2]? = some _)
    obtain ⟨put, hput⟩ := haccepted _ hmem _ hfield rfl
    cases hput
  | succ room =>
    have hfield := List.mem_of_getElem? (rfl : (shapeAt (room + 1)).fields[2]? = some _)
    rw [ofJson_succ] at hread
    refine Json.get_eq_of_mem (nodup_names_shapeAt _) Result.properties hfield ?_ h hc haccepted
      hdistinct hmem (Json.map_of_eq_ok (Properties.ofJson_of_texts hps room)) (fun _ => rfl) hread
    intro g hg hname j put hput r
    simp only [shapeAt, shape, List.mem_cons, List.not_mem_nil, or_false] at hg
    rcases hg with rfl | rfl | rfl | rfl | rfl | rfl | rfl | rfl | rfl
    case inr.inr.inl => exact absurd rfl hname
    all_goals
      obtain ⟨a, -, rfl⟩ := Json.map_eq_ok hput
      rfl

/-- What is made of the text of an object, if all values under known keys are accepted.

1. The fields of failures, intervals and results in their order, and whether they have to be there.
2. Keys are in order or something is wrong with them, which is told in these words.
3. The text of a failure or a result is refused for what is wrong with its keys, and read otherwise.
4. So is the text of an interval, unless its start is after its end: then it is refused with both numbers.
5. In properties no repeated key is wrong, and the last value stays.
6. A fault inside a result, at any depth, is the fault of the text, if what stands before it in each
   object and list around it is in order.
7. Where no more may be opened, a text with a list or an interval is malformed. -/
theorem faults_of_objects :
    (Failure.shape.declared = [("message", false), ("kind", false), ("description", false)]
      ∧ Interval.shape.declared = [("startMillis", true), ("endMillis", true)]
      ∧ ∀ room, (shapeAt room).declared = [("name", true), ("className", true), ("properties", true),
        ("failures", true), ("runTimeInterval", false), ("status", true), ("numTests", true),
        ("numFailures", true), ("childResults", true)])
    ∧ ((∀ declared keys, InOrder declared keys ∨ ∃ e, Wrong declared keys e)
      ∧ (∀ k, DataError.message (.duplicate k) = "duplicate field `" ++ k ++ "`")
      ∧ ∀ k, DataError.message (.missing k) = "missing field `" ++ k ++ "`")
    ∧ ((∀ es text, ObjectText Failure.shape es text →
        (∀ e, Wrong Failure.shape.declared (keysOf es) e →
          Json.decode (Failure.ofJson Json.maxOpen) text = .error (.data e))
        ∧ (InOrder Failure.shape.declared (keysOf es) →
          ∃ f, Json.decode (Failure.ofJson Json.maxOpen) text = .ok f))
      ∧ ∀ es text, ObjectText (shapeAt 126) es text →
        (∀ e, Wrong (shapeAt 126).declared (keysOf es) e →
          Json.decode (ofJson Json.maxOpen) text = .error (.data e))
        ∧ (InOrder (shapeAt 126).declared (keysOf es) →
          ∃ r, Json.decode (ofJson Json.maxOpen) text = .ok r))
    ∧ (∀ es text, ObjectText Interval.shape es text →
        (∀ e, Wrong Interval.shape.declared (keysOf es) e →
          Json.decode (Interval.ofJson Json.maxOpen) text = .error (.data e))
        ∧ (InOrder Interval.shape.declared (keysOf es) →
          ∃ start stop, Interval.Gives es start stop
            ∧ (stop < start → Json.decode (Interval.ofJson Json.maxOpen) text = .error (.data (.rule
              s!"interval start ({start} ms) is after its end ({stop} ms)")))
            ∧ (start ≤ stop → ∃ i, Json.decode (Interval.ofJson Json.maxOpen) text = .ok i
              ∧ i.start.toNat = start ∧ i.stop.toNat = stop)))
    ∧ ((∀ room m ps, m.Texts ps → ∃ p, Properties.ofJson (room + 1) (.object m) = .ok p
        ∧ ∀ e, e ∈ p.entries ↔ Properties.LastOf e ps)
      ∧ ∀ es text r m ps, ObjectText (shapeAt 126) es text →
        Json.decode (ofJson Json.maxOpen) text = .ok r → ("properties", .object m) ∈ es → m.Texts ps →
        ∀ e, e ∈ r.properties.entries ↔ Properties.LastOf e ps)
    ∧ (∀ text j, SpellsText text j → ∀ room i, Reaches Json.maxOpen j room i → ∀ e, Fails room i e →
        Json.decode (ofJson Json.maxOpen) text = .error (.data e))
    ∧ ∀ text j, SpellsText text j → ∀ i, Reaches Json.maxOpen j 1 i → TooDeep i →
        Json.decode (ofJson Json.maxOpen) text = .error .malformed := by
  refine ⟨⟨rfl, rfl, fun room => ?declared⟩,
    ⟨Json.inOrder_or_wrong, fun _ => rfl, fun _ => rfl⟩,
    ⟨fun es text h => ?failure, fun es text h => ?result⟩, fun es text h => ?interval,
    ⟨fun room m ps h => ?properties, ?last⟩, fun text j htext room i hreach e hfails => ?inner,
    fun text j htext i hreach hdeep => ?deep⟩
  case declared => cases room <;> rfl
  case failure => exact Json.decode_of_objectText Failure.nodup_names h fun _ => rfl
  case result => exact Json.decode_of_objectText (nodup_names_shapeAt 126) h (ofJson_succ 126)
  case interval =>
    obtain ⟨m, htext, hm, haccepted⟩ := h
    have hc : m.complete = true := htext.complete
    rw [htext.decode]
    refine ⟨fun e hwrong => ?_, fun horder => ?_⟩
    · exact Interval.ofJson_of_fails (.keys (.keys hm haccepted hwrong)) hc 126
    · obtain ⟨start, stop, hgives⟩ := Interval.exists_gives haccepted horder
      refine ⟨start, stop, hgives, fun hlt => ?_, fun hle => ?_⟩
      · exact Interval.ofJson_of_fails (.inverted hm haccepted horder hgives hlt) hc 126
      · exact Interval.ofJson_of_gives hm hc haccepted horder hgives hle 126
  case properties =>
    exact ⟨_, Properties.ofJson_of_texts h room, fun _ => Properties.mem_entries_ofList⟩
  case last =>
    intro es text r m ps ⟨m', htext, hm', haccepted⟩ hread hmem hps e
    rw [htext.decode] at hread
    rw [properties_of_mem hm' htext.complete haccepted hmem hps hread]
    exact Properties.mem_entries_ofList
  case inner =>
    rw [htext.decode]
    exact ofJson_eq_error_of_reaches hreach htext.complete
      (ofJson_of_fails hfails (hreach.complete htext.complete))
  case deep =>
    rw [htext.decode]
    exact ofJson_eq_error_of_reaches hreach htext.complete
      (ofJson_of_tooDeep hdeep (hreach.complete htext.complete))

/-- Keys in any order are refused for the first that repeats, or else for the first that is missing. A fault
two levels down hides the fault behind it. -/
theorem faults_of_objects_nested :
    Json.decode (Failure.ofJson Json.maxOpen) (Json.object (.ofList [("kind", .null),
        ("extra", .bool true), ("kind", .null), ("message", .null)])).render
      = .error (.data (.duplicate "kind"))
    ∧ Json.decode (ofJson Json.maxOpen) (Json.object (.ofList [("runTimeInterval", .null),
        ("childResults", .array .close)])).render = .error (.data (.missing "name"))
    ∧ Json.decode (Interval.ofJson Json.maxOpen) (Json.object (.ofList [("endMillis", .ofNat 5),
        ("startMillis", .ofNat 7)])).render
      = .error (.data (.rule "interval start (7 ms) is after its end (5 ms)"))
    ∧ Json.decode (ofJson Json.maxOpen) (Json.object (.ofList [("runTimeInterval", .null),
        ("childResults", .array (.ofList [.object (.ofList [("failures", .array (.ofList [.object .close,
          .object (.ofList [("kind", .null), ("kind", .null)])]))])])),
        ("className", .null)])).render = .error (.data (.duplicate "kind")) := by
  obtain ⟨-, -, ⟨hfailure, hresult⟩, hinterval, -, hinner, -⟩ := faults_of_objects
  have hkey := Json.printable_ofString
  have hkind := List.mem_of_getElem? (rfl : Failure.shape.fields[1]? = some _)
  have hnone := List.mem_of_getElem? (rfl : (shapeAt 126).fields[4]? = some _)
  refine ⟨?repeats, ?lacks, ?inverted, ?inner⟩
  case repeats =>
    have hprintable : (Json.object (.ofList [("kind", .null), ("extra", .bool true), ("kind", .null),
        ("message", .null)])).Printable :=
      ⟨hkey "kind", trivial, hkey "extra", trivial, hkey "kind", trivial, hkey "message", trivial, trivial⟩
    have hmessage := List.mem_of_getElem? (rfl : Failure.shape.fields[0]? = some _)
    have haccepted : Accepted Failure.shape [("kind", .null), ("extra", .bool true), ("kind", .null),
        ("message", .null)] := by
      refine .cons_field Failure.nodup_names hkind rfl (.cons_other (by decide) _ ?_)
      refine .cons_field Failure.nodup_names hkind rfl ?_
      exact .cons_field Failure.nodup_names hmessage rfl .nil
    have hwrong : Wrong Failure.shape.declared ["kind", "extra", "kind", "message"] (.duplicate "kind") :=
      @Wrong.duplicate _ _ ["kind", "extra"] ["message"] _ rfl (by decide) (by decide)
    exact (hfailure _ _ (Json.objectText_render hprintable haccepted)).1 _ hwrong
  case lacks =>
    have hprintable : (Json.object (.ofList [("runTimeInterval", .null),
        ("childResults", .array .close)])).Printable :=
      ⟨hkey "runTimeInterval", trivial, hkey "childResults", trivial, trivial⟩
    have hchildren := List.mem_of_getElem? (rfl : (shapeAt 126).fields[8]? = some _)
    have haccepted : Accepted (shapeAt 126) [("runTimeInterval", .null), ("childResults", .array .close)] :=
      .cons_field (nodup_names_shapeAt 126) hnone rfl
        (.cons_field (nodup_names_shapeAt 126) hchildren rfl .nil)
    have hwrong : Wrong (shapeAt 126).declared ["runTimeInterval", "childResults"] (.missing "name") :=
      @Wrong.missing _ _ [] _ _ (by decide) rfl (fun _ h => nomatch h) (by decide)
    exact (hresult _ _ (Json.objectText_render hprintable haccepted)).1 _ hwrong
  case inverted =>
    have hprintable : (Json.object (.ofList [("endMillis", .ofNat 5),
        ("startMillis", .ofNat 7)])).Printable :=
      ⟨hkey "endMillis", Json.printable_ofNat 5, hkey "startMillis", Json.printable_ofNat 7, trivial⟩
    have hend := List.mem_of_getElem? (rfl : Interval.shape.fields[1]? = some _)
    have hbegin := List.mem_of_getElem? (rfl : Interval.shape.fields[0]? = some _)
    have haccepted : Accepted Interval.shape [("endMillis", .ofNat 5), ("startMillis", .ofNat 7)] :=
      .cons_field Interval.nodup_names hend rfl (.cons_field Interval.nodup_names hbegin rfl .nil)
    have horder : InOrder Interval.shape.declared ["endMillis", "startMillis"] := ⟨by decide, by decide⟩
    have hread := hinterval _ _ (Json.objectText_render hprintable haccepted)
    obtain ⟨start, stop, ⟨⟨a, ha, hstart⟩, b, hb, hstop⟩, hinverted, -⟩ := hread.2 horder
    obtain rfl : a = .ofNat 7 := by simpa using ha
    obtain rfl : b = .ofNat 5 := by simpa using hb
    cases hstart
    cases hstop
    exact hinverted (by decide)
  case inner =>
    have hprintable : (Json.object (.ofList [("runTimeInterval", .null),
        ("childResults", .array (.ofList [.object (.ofList [("failures", .array (.ofList [.object .close,
          .object (.ofList [("kind", .null), ("kind", .null)])]))])])),
        ("className", .null)])).Printable :=
      ⟨hkey "runTimeInterval", trivial, hkey "childResults", ⟨⟨hkey "failures", ⟨trivial, ⟨hkey "kind",
        trivial, hkey "kind", trivial, trivial⟩, trivial⟩, trivial⟩, trivial⟩, hkey "className", trivial,
        trivial⟩
    have haccepted : Accepted (shapeAt 126) [("runTimeInterval", .null)] :=
      .cons_field (nodup_names_shapeAt 126) hnone rfl .nil
    have hfails : Json.Fails Failure.shape (.object (.ofList [("kind", .null), ("kind", .null)]))
        (.duplicate "kind") := by
      refine .keys (Json.Members.lists_ofList _) ?_
        (@Wrong.duplicate _ _ ["kind"] [] _ rfl (by decide) (by decide))
      exact .cons_field Failure.nodup_names hkind rfl (.cons_field Failure.nodup_names hkind rfl .nil)
    have hempty : Failure.ofJson 123 (.object .close) = .ok {} := rfl
    refine hinner _ _ (Json.spellsText_render hprintable) 125 (.object (.ofList [("failures",
      .array (.ofList [.object .close, .object (.ofList [("kind", .null), ("kind", .null)])]))]))
      ?reach _ ?fails
    case reach =>
      exact .child ⟨_, _, _, .member (Json.isText_ofString "runTimeInterval") .done,
        Json.isText_ofString "childResults", haccepted, by decide⟩ .here .here
    case fails =>
      exact .failure (.first (Json.isText_ofString "failures") _) (.later hempty .here) hfails

/-! ### What is malformed

The keys of an object have to be texts, all of them, and no more than 127 arrays and objects may be open.
What breaks either of these is malformed before any field is looked at, so neither can be left out of
`faults_of_objects`: not that every key spells a text, nor the room in which sub-tests are reached. -/

/-- Members whose known keys are those of the entries, among any other keys. What is no known key need not
even spell a text. -/
inductive Among (declared : List (String × Bool)) : Json.Members → List (String × Json) → Prop
  | close : Among declared .close []
  | known {name : String} {key value : Json} {m : Json.Members} {es : List (String × Json)} :
    Json.IsText name key → name ∈ declared.map Prod.fst → Among declared m es →
    Among declared (.member key value m) ((name, value) :: es)
  | other {key value : Json} {m : Json.Members} {es : List (String × Json)} :
    (∀ name, Json.IsText name key → name ∉ declared.map Prod.fst) → Among declared m es →
    Among declared (.member key value m) es

/-- Sub-tests in sub-tests, with nothing else in their objects. -/
def tower : Nat → Json → Json
  | 0, j => j
  | n + 1, j => .object (.ofList [("childResults", .array (.ofList [tower n j]))])

theorem printable_tower {j : Json} (h : j.Printable) (n : Nat) : (tower n j).Printable := by
  induction n with
  | zero => exact h
  | succ n ih => exact ⟨Json.printable_ofString "childResults", ⟨ih, trivial⟩, trivial⟩

theorem tower_succ (n : Nat) (j : Json) : tower (n + 1) j = tower n (tower 1 j) := by
  induction n with
  | zero => rfl
  | succ n ih =>
    rw [tower, ih]
    rfl

/-- Each level takes an object and a list. -/
theorem reaches_tower (room n : Nat) (j : Json) : Reaches (room + 2 * n) (tower n j) room j := by
  induction n with
  | zero => exact .here
  | succ n ih => exact .child (.first (Json.isText_ofString "childResults") _) .here ih

/-- Keys are not all that counts, if any keys and any depth are allowed. A key that spells half of a
pair is malformed, though it is not known; and an object without a name is not refused for that at the
65th level, where it is malformed. -/
theorem tower_malformed :
    (¬ ∀ (es : List (String × Json)) (text : String) (m : Json.Members),
      SpellsText text (.object m) → Among Failure.shape.declared m es → Accepted Failure.shape es →
        (∀ e, Wrong Failure.shape.declared (keysOf es) e →
          Json.decode (Failure.ofJson Json.maxOpen) text = .error (.data e))
        ∧ (InOrder Failure.shape.declared (keysOf es) →
          ∃ f, Json.decode (Failure.ofJson Json.maxOpen) text = .ok f))
    ∧ ¬ ∀ (text : String) (j : Json), SpellsText text j → ∀ (room room' : Nat) (i : Json),
      Reaches room j room' i → ∀ e, Fails room' i e →
        Json.decode (ofJson Json.maxOpen) text = .error (.data e) := by
  refine ⟨fun h => ?half, fun h => ?deep⟩
  case half =>
    have hkey : Json.Spells ['"', '\\', 'u', 'd', '8', '0', '0', '"'] (.value (.string [.unit 0xd800])) :=
      .string (.cons (.unit rfl) .nil)
    have hzero : Json.Spells ['0'] (.value (.ofNat 0)) := Json.spells_chars (Json.printable_ofNat 0)
    have hmember := Json.Spells.member hkey Json.blank_nil hzero (.noMoreMembers Json.blank_nil)
    have htext : SpellsText (String.ofList ['{', '"', '\\', 'u', 'd', '8', '0', '0', '"', ':', '0', '}'])
        (.object (.member (.string [.unit 0xd800]) (.ofNat 0) .close)) :=
      ⟨_, [], rfl, .object (.someMembers hmember), Json.blank_nil⟩
    have hamong : Among Failure.shape.declared
        (.member (.string [.unit 0xd800]) (.ofNat 0) .close) [] := by
      -- half of a pair is no text, so the key is not known
      refine .other (fun name hname => ?_) .close
      obtain ⟨ps, hps, hread⟩ := hname
      cases hps
      exact nomatch hread
    have horder : InOrder Failure.shape.declared [] := ⟨List.nodup_nil, by decide⟩
    obtain ⟨f, hf⟩ := (h [] _ _ htext hamong .nil).2 horder
    rw [htext.decode] at hf
    exact nomatch hf
  case deep =>
    have hempty : (Json.object .close).Printable := trivial
    have htext := Json.spellsText_render (printable_tower hempty 64)
    have hfails : Fails 2 (.object .close) (.missing "name") :=
      .own (.keys .done .nil (@Wrong.missing _ _ [] _ _ List.nodup_nil rfl (fun _ h => nomatch h) nofun))
    -- where 130 may be open, the object at the end is reached, and fails for its name
    have hname := h _ _ htext _ 2 _ (reaches_tower 2 64 (.object .close)) _ hfails
    have hdeep : TooDeep (tower 1 (.object .close)) :=
      .children (.first (Json.isText_ofString "childResults") _)
    have hmalformed : ofJson Json.maxOpen (tower 64 (.object .close)) = .error .malformed := by
      have hc := htext.complete
      rw [tower_succ] at hc ⊢
      exact ofJson_eq_error_of_reaches (reaches_tower 1 63 (tower 1 (.object .close))) hc
        (ofJson_of_tooDeep hdeep rfl)
    rw [htext.decode, hmalformed] at hname
    exact nomatch hname

end Result

end Casebook
