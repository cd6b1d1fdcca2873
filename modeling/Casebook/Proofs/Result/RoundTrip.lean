import Casebook.Proofs.Result.Parts

/-!
# Results are read again

A result is read again from what was written of it, as long as it is not nested too deep: a level of
results opens an object and a list, and no more than `Json.maxOpen` may be open at once.

The main lemma is `Result.ofJson_toJson`, by induction on the number of levels that there is room for;
`Result.height_le_of_ofJson` says that nothing higher is ever read. Both are put together in
`Result.json_round_trip`.
-/

namespace Casebook

open Json (Decoded Field Fills)

namespace Result

/-! ## Height and counts

There are only two reasons why a written result is not read again: it is too high, or a count in it is no
word of 64 bits. Both are defined by recursion on the result and restated for the list of its sub-tests. -/

mutual

/-- The number of levels of a result: one, and those of its highest sub-test. -/
def height : Result → Nat
  | ⟨_, _, _, _, _, _, _, _, children⟩ => 1 + heightOf children

/-- The greatest height of some results. -/
def heightOf : List Result → Nat
  | [] => 0
  | r :: rs => max r.height (heightOf rs)

end

mutual

/-- All counts, those of sub-tests too, are words of 64 bits. -/
def Fits : Result → Prop
  | ⟨_, _, _, _, _, _, numTests, numFailures, children⟩ =>
    numTests ≤ Json.Numeral.maxWord ∧ numFailures ≤ Json.Numeral.maxWord ∧ AllFit children

/-- All results of a list fit. -/
def AllFit : List Result → Prop
  | [] => True
  | r :: rs => r.Fits ∧ AllFit rs

end

theorem heightOf_le_iff {rs : List Result} {k : Nat} :
    heightOf rs ≤ k ↔ ∀ r ∈ rs, r.height ≤ k := by
  induction rs with
  | nil => simp [heightOf]
  | cons r rs ih => rw [heightOf, Nat.max_le, ih, List.forall_mem_cons]

theorem height_le_succ_iff {r : Result} {k : Nat} :
    r.height ≤ k + 1 ↔ ∀ c ∈ r.children, c.height ≤ k := by
  rw [← heightOf_le_iff]
  cases r with
  | mk name className properties failures interval? status numTests numFailures children =>
    show 1 + heightOf children ≤ k + 1 ↔ heightOf children ≤ k
    omega

theorem height_pos (r : Result) : 0 < r.height := by
  cases r
  rw [height]
  omega

theorem allFit_iff {rs : List Result} : AllFit rs ↔ ∀ r ∈ rs, r.Fits := by
  induction rs with
  | nil => simp [AllFit]
  | cons r rs ih => rw [AllFit, ih, List.forall_mem_cons]

theorem fits_iff {r : Result} :
    r.Fits ↔ r.numTests ≤ Json.Numeral.maxWord ∧ r.numFailures ≤ Json.Numeral.maxWord
      ∧ ∀ c ∈ r.children, c.Fits := by
  rw [← allFit_iff]
  cases r
  rw [Fits]

/-! ## The tree of a result

A result is written as a tree in which all texts are escaped as needed, so the text of the tree is read as
that tree again. The recursion is the mutual one of results and their lists. -/

theorem itemsOf_eq (rs : List Result) : itemsOf rs = .ofList (rs.map toJson) := by
  induction rs with
  | nil => rfl
  | cons r rs ih =>
    rw [itemsOf, ih]
    rfl

mutual

theorem printable_toJson : ∀ r : Result, r.toJson.Printable
  | ⟨name, className, properties, failures, interval?, status, numTests, numFailures, children⟩ => by
    have hfailures : (Json.Items.ofList (failures.map Failure.toJson)).Printable :=
      Json.Items.printable_ofList fun j hj => by
        obtain ⟨f, _, rfl⟩ := List.mem_map.1 hj
        exact f.printable_toJson
    have hchildren := printable_itemsOf children
    refine Json.Members.printable_ofList ?_
    simp only [List.forall_mem_cons]
    exact ⟨Json.printable_ofString name, Json.printable_ofString className,
      properties.printable_toJson, hfailures, Interval.printable_toJson? interval?,
      status.printable_toJson, Json.printable_ofNat numTests,
      Json.printable_ofNat numFailures, hchildren, nofun⟩

theorem printable_itemsOf : ∀ rs : List Result, (itemsOf rs).Printable
  | [] => trivial
  | r :: rs => ⟨printable_toJson r, printable_itemsOf rs⟩

end

/-! ## Fields and room

The first eight fields need room for two levels of JSON and no more. Only the last field, that of the
sub-tests, needs room for as many levels as the result has. So the fields are taken in two parts, and the
induction on the levels goes through the last field alone. -/

/-- The trees of the fields before the sub-tests. -/
def leading (r : Result) : List Json :=
  [.ofString r.name, .ofString r.className, r.properties.toJson,
    .array (.ofList (r.failures.map Failure.toJson)), Interval.toJson? r.interval?, r.status.toJson,
    .ofNat r.numTests, .ofNat r.numFailures]

theorem toJson_eq (r : Result) (room : Nat) (child : Json → Decoded Result) :
    r.toJson = .object (.ofList ((((shape room child).fields.take 8).map Field.name).zip r.leading
      ++ [("childResults", .array (.ofList (r.children.map toJson)))])) := by
  rw [← itemsOf_eq]
  cases r
  rfl

/-- Where there is room for two levels of JSON, the fields before the sub-tests are read. -/
theorem fills_leading {r : Result} (hfits : r.Fits) (room : Nat) (child : Json → Decoded Result) :
    Fills ((shape (room + 2) child).fields.take 8) r.leading blank { r with children := [] } := by
  obtain ⟨htests, hfailures, _⟩ := fits_iff.1 hfits
  have hlist : (Json.array (.ofList (r.failures.map Failure.toJson))).decodeList (room + 2)
      (Failure.ofJson (room + 1)) = .ok r.failures :=
    Json.Items.decodeAll_map fun f _ => f.ofJson_toJson room
  refine .cons (Json.map_of_eq_ok (Json.decodeText_ofString .text r.name)) ?_
  refine .cons (Json.map_of_eq_ok (Json.decodeText_ofString .text r.className)) ?_
  refine .cons (Json.map_of_eq_ok (r.properties.ofJson_toJson (room + 1))) ?_
  refine .cons (Json.map_of_eq_ok hlist) ?_
  refine .cons (Json.map_of_eq_ok (Interval.decodeOption_toJson? r.interval? (room + 1))) ?_
  refine .cons (Json.map_of_eq_ok (r.status.ofJson_toJson (room + 2))) ?_
  refine .cons (Json.map_of_eq_ok (Json.decodeNat_ofNat .count htests)) ?_
  refine .cons (Json.map_of_eq_ok (Json.decodeNat_ofNat .count hfailures)) ?_
  exact .nil

theorem nodup_names (room : Nat) (child : Json → Decoded Result) :
    ((shape room child).fields.map Field.name).Nodup := by
  show ["name", "className", "properties", "failures", "runTimeInterval", "status", "numTests",
    "numFailures", "childResults"].Nodup
  decide

/-- Where there is room for one level of JSON, that of the result, its properties find none. -/
theorem ofJson_one_toJson (r : Result) : ofJson 1 r.toJson = .error .malformed := by
  have hnames : Fills ((shape 0 fun _ => .error .malformed).fields.take 2)
      [.ofString r.name, .ofString r.className] blank
      { blank with name := r.name, className := r.className } := by
    refine .cons (Json.map_of_eq_ok (Json.decodeText_ofString .text r.name)) ?_
    refine .cons (Json.map_of_eq_ok (Json.decodeText_ofString .text r.className)) ?_
    exact .nil
  rw [toJson_eq r 0 fun _ => .error .malformed]
  exact Json.decodeRecord_of_refused rfl (nodup_names _ _) hnames rfl _ 0

/-- With room for `k` levels of results, a result is read if it has no more levels than that, and its text
is malformed otherwise. By induction on `k`, for all results: the sub-tests have one level less. -/
theorem ofJson_toJson (k : Nat) {r : Result} (hfits : r.Fits) :
    ofJson (2 * k + 1) r.toJson = if r.height ≤ k then .ok r else .error .malformed := by
  induction k generalizing r with
  | zero => rw [if_neg (Nat.not_le.2 r.height_pos), ofJson_one_toJson]
  | succ k ih =>
    have hchild (c : Result) (hc : c ∈ r.children) :
        ofJson (2 * k + 1) c.toJson = if c.height ≤ k then .ok c else .error .malformed :=
      ih ((fits_iff.1 hfits).2.2 c hc)
    -- a level of results takes two levels of JSON, so the sub-tests have room for `k` levels
    have hleading := fills_leading hfits (2 * k) (ofJson (2 * k + 1))
    rw [toJson_eq r (2 * k + 2) (ofJson (2 * k + 1))]
    show Json.decodeRecord (shape (2 * k + 2) (ofJson (2 * k + 1))) blank (2 * k + 3) _ = _
    by_cases h : ∀ c ∈ r.children, c.height ≤ k
    · have hlist : (Json.array (.ofList (r.children.map toJson))).decodeList (2 * k + 2)
          (ofJson (2 * k + 1)) = .ok r.children :=
        Json.Items.decodeAll_map fun c hc => by rw [hchild c hc, if_pos (h c hc)]
      have hlast : Fills ((shape (2 * k + 2) (ofJson (2 * k + 1))).fields.drop 8)
          [.array (.ofList (r.children.map toJson))] { r with children := [] } r := by
        refine .cons (Json.map_of_eq_ok hlist) ?_
        cases r
        exact .nil
      rw [if_pos (height_le_succ_iff.2 h)]
      exact Json.decodeRecord_of_fills (nodup_names _ _) (hleading.append hlast) (2 * k + 2)
    · -- some sub-test is too high, and it is refused like the text of any such sub-test
      have hlist : (Json.array (.ofList (r.children.map toJson))).decodeList (2 * k + 2)
          (ofJson (2 * k + 1)) = .error .malformed := by
        refine Json.Items.decodeAll_map_error (fun c hc => ?_) ?_
        · rw [hchild c hc]
          by_cases hk : c.height ≤ k
          · exact .inl (if_pos hk)
          · exact .inr (if_neg hk)
        · obtain ⟨c, hc, hk⟩ : ∃ c ∈ r.children, ¬ c.height ≤ k := by
            simpa only [Classical.not_forall, exists_prop] using h
          exact ⟨c, hc, by rw [hchild c hc, if_neg hk]⟩
      rw [if_neg (mt height_le_succ_iff.1 h)]
      exact Json.decodeRecord_of_refused rfl (nodup_names _ _) hleading
        (Json.map_of_eq_error hlist) [] (2 * k + 2)

/-- The counts of a result fit, and its sub-tests have at most `k` levels and fit too. -/
def Within (k : Nat) (r : Result) : Prop :=
  r.numTests ≤ Json.Numeral.maxWord ∧ r.numFailures ≤ Json.Numeral.maxWord
    ∧ ∀ c ∈ r.children, c.height ≤ k ∧ c.Fits

theorem within_iff {k : Nat} {r : Result} : r.Within k ↔ r.height ≤ k + 1 ∧ r.Fits := by
  rw [height_le_succ_iff, fits_iff, Within]
  constructor
  · rintro ⟨htests, hfailures, hchildren⟩
    exact ⟨fun c hc => (hchildren c hc).1, htests, hfailures, fun c hc => (hchildren c hc).2⟩
  · rintro ⟨hheight, htests, hfailures, hfits⟩
    exact ⟨htests, hfailures, fun c hc => ⟨hheight c hc, hfits c hc⟩⟩

/-- No field puts anything into a result that does not fit, if the reader of sub-tests does not. -/
theorem within_of_put {k room : Nat} {child : Json → Decoded Result}
    (hchild : ∀ j c, child j = .ok c → c.height ≤ k ∧ c.Fits) :
    ∀ f ∈ (shape room child).fields, ∀ j put, f.decode j = .ok put →
      ∀ r : Result, r.Within k → (put r).Within k := by
  simp only [shape, List.forall_mem_cons]
  refine ⟨?_, ?_, ?_, ?_, ?_, ?_, ?_, ?_, ?_, nofun⟩
  all_goals
    intro j put hput r hr
    obtain ⟨a, ha, rfl⟩ := Json.map_eq_ok hput
  case refine_7 => exact ⟨Json.le_maxWord_of_decodeNat ha, hr.2⟩
  case refine_8 => exact ⟨hr.1, Json.le_maxWord_of_decodeNat ha, hr.2.2⟩
  case refine_9 =>
    refine ⟨hr.1, hr.2.1, fun c hc => ?_⟩
    obtain ⟨i, hi⟩ := Json.exists_of_decodeList ha c hc
    exact hchild i c hi
  -- the other fields are no counts and no sub-tests
  all_goals exact hr

/-- With room for `k` levels of results, no result with more levels is read, nor a count that does not
fit. -/
theorem height_le_of_ofJson (k : Nat) {j : Json} {r : Result} (h : ofJson (2 * k + 1) j = .ok r) :
    r.height ≤ k ∧ r.Fits := by
  induction k generalizing j r with
  | zero =>
    -- there is no room for the properties, which have to be there
    obtain ⟨i, put, hput⟩ := Json.exists_of_decodeRecord (nodup_names _ _)
      (List.mem_cons_of_mem _ (List.mem_cons_of_mem _ List.mem_cons_self)) rfl h
    obtain ⟨p, hp, _⟩ := Json.map_eq_ok hput
    exact absurd hp (Properties.ofJson_zero_ne_ok i p)
  | succ k ih =>
    have hblank : blank.Within k := ⟨Nat.zero_le _, Nat.zero_le _, nofun⟩
    exact within_iff.1 (Json.decodeRecord_induct (within_of_put fun j c hc => ih hc) h hblank)

/-! ## Round trips

Both directions meet at level 63: a result that was read cannot be higher, and one that is written and not
higher is read. -/

/-- A result is read again from its text if it has at most 63 levels, and its text is malformed if it
has more. Whatever text a result is read from, it has at most 63 levels and is read again from its own
text. Intervals, failures, test ids and statuses are read again from their texts. -/
theorem json_round_trip :
    (∀ r : Result, r.Fits → r.height ≤ 63 →
        Json.decode (ofJson Json.maxOpen) r.render = .ok r)
      ∧ (∀ r : Result, r.Fits → 64 ≤ r.height →
        Json.decode (ofJson Json.maxOpen) r.render = .error .malformed)
      ∧ (∀ (text : String) (r : Result), Json.decode (ofJson Json.maxOpen) text = .ok r →
        r.height ≤ 63 ∧ Json.decode (ofJson Json.maxOpen) r.render = .ok r)
      ∧ (∀ i : Interval,
        Json.decode (Interval.ofJson Json.maxOpen) i.toJson.render = .ok i)
      ∧ (∀ f : Failure, Json.decode (Failure.ofJson Json.maxOpen) f.toJson.render = .ok f)
      ∧ (∀ id : TestId, Json.decode TestId.ofJson id.toJson.render = .ok id)
      ∧ ∀ v : Status, Json.decode (Status.ofJson Json.maxOpen) v.toJson.render = .ok v := by
  have hrender (r : Result) (hfits : r.Fits) : Json.decode (ofJson Json.maxOpen) r.render
      = if r.height ≤ 63 then .ok r else .error .malformed := by
    rw [render, Json.decode_render _ r.printable_toJson]
    exact ofJson_toJson 63 hfits
  refine ⟨?_, ?_, ?_, ?_, ?_, ?_, ?_⟩
  · intro r hfits h
    rw [hrender r hfits, if_pos h]
  · intro r hfits h
    rw [hrender r hfits, if_neg (Nat.not_le.2 h)]
  · intro text r h
    obtain ⟨j, hj⟩ := Json.exists_of_decode h
    obtain ⟨hheight, hfits⟩ := height_le_of_ofJson 63 hj
    exact ⟨hheight, by rw [hrender r hfits, if_pos hheight]⟩
  · intro i
    rw [Json.decode_render _ i.printable_toJson]
    exact i.ofJson_toJson 126
  · intro f
    rw [Json.decode_render _ f.printable_toJson]
    exact f.ofJson_toJson 126
  · intro id
    rw [Json.decode_render _ id.printable_toJson]
    exact id.ofJson_toJson
  · intro v
    rw [Json.decode_render _ v.printable_toJson]
    exact v.ofJson_toJson 127

/-- The result inside of `n` blank ones. -/
def nest (r : Result) : Nat → Result
  | 0 => r
  | n + 1 => { blank with children := [nest r n] }

theorem height_nest (r : Result) (n : Nat) : (r.nest n).height = n + r.height := by
  induction n with
  | zero => rw [nest, Nat.zero_add]
  | succ n ih =>
    show 1 + max (r.nest n).height 0 = n + 1 + r.height
    rw [ih]
    omega

theorem fits_nest {r : Result} (h : r.Fits) (n : Nat) : (r.nest n).Fits := by
  induction n with
  | zero => exact h
  | succ n ih => exact ⟨Nat.zero_le _, Nat.zero_le _, ih, trivial⟩

/-- A result on level 63 is read again, and one on level 64 is not. -/
theorem json_round_trip_nest :
    let leaf : Result := { blank with name := "tab\tand \"quote\"", numTests := 1 }
    Json.decode (ofJson Json.maxOpen) (leaf.nest 62).render = .ok (leaf.nest 62)
      ∧ Json.decode (ofJson Json.maxOpen) (leaf.nest 63).render = .error .malformed
      ∧ (leaf.nest 62).height ≤ 63 := by
  intro leaf
  have hfits : leaf.Fits := ⟨by decide, by decide, trivial⟩
  have hleaf : leaf.height = 1 := rfl
  have hlow : (leaf.nest 62).height = 63 := by rw [height_nest, hleaf]
  have hhigh : (leaf.nest 63).height = 64 := by rw [height_nest, hleaf]
  have hread := json_round_trip.1 (leaf.nest 62) (fits_nest hfits 62) (Nat.le_of_eq hlow)
  have hrefused := json_round_trip.2.1 (leaf.nest 63) (fits_nest hfits 63) (Nat.le_of_eq hhigh.symm)
  exact ⟨hread, hrefused, (json_round_trip.2.2.1 _ _ hread).1⟩

end Result

end Casebook
