import Casebook.Proofs.Result.Forms

/-!
# The intervals of a result and of its text

Intervals stand in a result and in its sub-tests at every depth (`Result.HasInterval`), and what is read
as an interval stands at the corresponding places of a tree (`Result.IntervalIn`), whatever the forms of
the records around it.

In a tree that is read as a result, whatever stands at such a place is `null` or gives bounds in order
(`Result.ordered_of_intervalIn`), and the intervals of the result are those that stand there
(`Result.intervalIn_of_hasInterval`).
-/

namespace Casebook

open Json (Decoded Field HasField)

/-! ## Places

The places of intervals are defined on trees, by the names of the fields alone. That a place is found, in
an object or in an array, is then a matter of how records are read. -/

namespace Result

/-- An interval of a result or of one of its sub-tests, at any depth. -/
inductive HasInterval (i : Interval) : Result → Prop
  | own {r : Result} : r.interval? = some i → HasInterval i r
  | inner {r c : Result} : c ∈ r.children → HasInterval i c → HasInterval i r

def fieldNames : List String := (shape 0 fun _ => .error .malformed).fields.map Field.name

/-- A tree that stands in the place of an interval in the tree of a result or of one of its sub-tests. -/
inductive IntervalIn (value : Json) : Json → Prop
  | own {j : Json} : HasField fieldNames "runTimeInterval" value j → IntervalIn value j
  | inner {j child : Json} {l : Json.Items} {n : Nat} :
    HasField fieldNames "childResults" (.array l) j → l.Has child n → IntervalIn value child →
    IntervalIn value j

/-- A result is read as a record, and its sub-tests are read as results. How much room there is makes no
difference to that, except that a reader of sub-tests without room reads none. -/
theorem exists_ofJson_eq (room : Nat) : ∃ (inside : Nat) (child : Json → Decoded Result),
    (∀ j, ofJson room j = j.decodeRecord (shape inside child) blank room)
      ∧ ∀ j c, child j = .ok c → ∃ room', ofJson room' j = .ok c := by
  match room with
  | 0 => exact ⟨0, fun _ => .error .malformed, fun _ => rfl, nofun⟩
  | 1 => exact ⟨0, fun _ => .error .malformed, fun _ => rfl, nofun⟩
  | room + 2 => exact ⟨room + 1, ofJson room, fun _ => rfl, fun _ _ h => ⟨room, h⟩⟩

/-- In a tree that is read as a result, what stands in the place of an interval is `null` or the bounds
of an interval. By induction on the way to that place: each step of it goes into a sub-test, which was read
as a result itself. -/
theorem ordered_of_intervalIn {value j : Json} (h : IntervalIn value j) {room : Nat} {r : Result}
    (hread : ofJson room j = .ok r) :
    value = .null ∨ ∃ i : Interval, Interval.Bounds.ofJson value = .ok i.bounds := by
  induction h generalizing room r with
  | own hvalue =>
    obtain ⟨inside, child, hrecord, -⟩ := exists_ofJson_eq room
    -- the field after `failures`
    have hfield := List.mem_of_getElem? (rfl : (shape inside child).fields[4]? = some _)
    obtain ⟨put, hput⟩ := Json.exists_of_hasField (nodup_names inside child) hfield hvalue
      ((hrecord _).symm.trans hread)
    obtain ⟨i?, hi, -⟩ := Json.map_eq_ok hput
    rcases Json.decodeOption_eq_ok hi with ⟨hnull, -⟩ | ⟨i, hi, -⟩
    · exact .inl hnull
    · exact .inr ⟨i, Interval.bounds_of_ofJson hi⟩
  | inner hl hchild _ ih =>
    obtain ⟨inside, child, hrecord, hchildren⟩ := exists_ofJson_eq room
    -- the last field
    have hfield := List.mem_of_getElem? (rfl : (shape inside child).fields[8]? = some _)
    obtain ⟨put, hput⟩ := Json.exists_of_hasField (nodup_names inside child) hfield hl
      ((hrecord _).symm.trans hread)
    obtain ⟨cs, hcs, -⟩ := Json.map_eq_ok hput
    obtain ⟨_, harray, hcs⟩ := Json.exists_array_of_decodeList hcs
    cases harray
    obtain ⟨c, hc⟩ := Json.Items.exists_of_has hchild hcs
    obtain ⟨room', hc⟩ := hchildren _ c hc
    exact ih hc

/-- Where the interval and the sub-tests of a result stand in its tree. -/
structure Placed (j : Json) (r : Result) : Prop where
  interval : ∀ i, r.interval? = some i →
    ∃ value, HasField fieldNames "runTimeInterval" value j ∧ Interval.Bounds.ofJson value = .ok i.bounds
  children : ∀ c ∈ r.children, ∃ (l : Json.Items) (n : Nat) (value : Json) (room : Nat),
    HasField fieldNames "childResults" (.array l) j ∧ l.Has value n ∧ ofJson room value = .ok c

theorem placed_of_ofJson {room : Nat} {j : Json} {r : Result} (hread : ofJson room j = .ok r) :
    Placed j r := by
  obtain ⟨inside, child, hrecord, hchildren⟩ := exists_ofJson_eq room
  rw [hrecord] at hread
  refine Json.decodeRecord_induct_of_hasField ?_ hread ⟨nofun, nofun⟩
  simp only [shape, List.forall_mem_cons]
  refine ⟨?_, ?_, ?_, ?_, ?_, ?_, ?_, ?_, ?_, nofun⟩
  all_goals
    intro value put hplace hput r hr
    obtain ⟨a, ha, rfl⟩ := Json.map_eq_ok hput
  case refine_5 =>
    refine ⟨fun i (hi : a = some i) => ?_, hr.children⟩
    subst hi
    rcases Json.decodeOption_eq_ok ha with ⟨-, hnone⟩ | ⟨i', hi', heq⟩
    · cases hnone
    · cases heq
      exact ⟨value, hplace, Interval.bounds_of_ofJson hi'⟩
  case refine_9 =>
    refine ⟨hr.interval, fun c hc => ?_⟩
    obtain ⟨l, rfl, hl⟩ := Json.exists_array_of_decodeList ha
    obtain ⟨v, n, hv, hc⟩ := Json.Items.has_of_mem hl c hc
    obtain ⟨room', hc⟩ := hchildren v c hc
    exact ⟨l, n, v, room', hplace, hv, hc⟩
  -- the other fields are no intervals and no sub-tests
  all_goals exact ⟨hr.interval, hr.children⟩

/-- Every interval of a result that is read has its bounds in a place for intervals. The converse of the
above, by induction on where the interval is in the result. -/
theorem intervalIn_of_hasInterval {r : Result} {i : Interval} (h : r.HasInterval i) {room : Nat}
    {j : Json} (hread : ofJson room j = .ok r) :
    ∃ value, IntervalIn value j ∧ Interval.Bounds.ofJson value = .ok i.bounds := by
  induction h generalizing room j with
  | own hi =>
    obtain ⟨value, hplace, hvalue⟩ := (placed_of_ofJson hread).interval i hi
    exact ⟨value, .own hplace, hvalue⟩
  | inner hc _ ih =>
    obtain ⟨l, n, v, room', hl, hv, hread⟩ := (placed_of_ofJson hread).children _ hc
    obtain ⟨value, hplace, hvalue⟩ := ih hread
    exact ⟨value, .inner hl hv hplace, hvalue⟩

end Result

end Casebook
