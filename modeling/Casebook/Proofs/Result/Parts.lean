import Casebook.Proofs.Json.Records
import Casebook.Result.Json

/-!
# The parts of a result are read again

Statuses, test ids, intervals, failures and properties are read again from what was written of them,
wherever there is room to open an object.
-/

namespace Casebook

open Json (Fills)

/-! ## Statuses and test ids

Both are single strings in JSON. They take no room, and there is nothing about them that could be out of
order. -/

namespace Status

/-- A status has the same name inside JSON as outside. -/
theorem tag_eq_name (v : Status) : v.tag = v.name := by
  cases v <;> rfl

theorem ofTag?_tag (v : Status) : ofTag? v.tag = some v := by
  cases v <;> decide

theorem ofTag?_name (v : Status) : ofTag? v.name = some v := by
  rw [← tag_eq_name, ofTag?_tag]

theorem ofJson_toJson (v : Status) (room : Nat) : ofJson room v.toJson = .ok v := by
  rw [ofJson, toJson, Json.ofString, Json.decodeVariant,
    Json.bind_of_eq_ok (Json.textOf_ofString v.tag), ofTag?_tag]
  rfl

theorem printable_toJson (v : Status) : v.toJson.Printable := Json.printable_ofString v.tag

end Status

namespace TestId

theorem ofJson_toJson (id : TestId) : ofJson id.toJson = .ok id :=
  Json.map_of_eq_ok (Json.decodeText_ofString .text id.text)

theorem printable_toJson (id : TestId) : id.toJson.Printable := Json.printable_ofString id.text

end TestId

/-! ## Intervals

The two bounds are a record like any other; their order is checked once they are read, and that of a
written interval is right by its type. -/

namespace Interval

theorem decodeNat_ofNat_toNat (t : Millis) :
    (Json.ofNat t.toNat).decodeNat .millis = .ok t.toNat :=
  Json.decodeNat_ofNat .millis (Nat.le_sub_one_of_lt t.toNat_lt)

/-- The two fields are filled in one after the other, and the check of their order finds nothing. -/
theorem ofJson_toJson (i : Interval) (room : Nat) : ofJson (room + 1) i.toJson = .ok i := by
  have hfills : Fills shape.fields [.ofNat i.start.toNat, .ofNat i.stop.toNat] {}
      ⟨.ofNat i.start.toNat, .ofNat i.stop.toNat⟩ := by
    refine .cons (Json.map_of_eq_ok (decodeNat_ofNat_toNat i.start)) ?_
    refine .cons (Json.map_of_eq_ok (decodeNat_ofNat_toNat i.stop)) ?_
    exact .nil
  have hread : i.toJson.decodeRecord shape {} (room + 1)
      = .ok ⟨.ofNat i.start.toNat, .ofNat i.stop.toNat⟩ :=
    Json.decodeRecord_of_fills (by decide) hfills room
  have hbounds : ofBounds (.ofNat i.start.toNat) (.ofNat i.stop.toNat) = .ok i := by
    rw [UInt64.ofNat_toNat, UInt64.ofNat_toNat, ofBounds, dif_pos i.start_le_stop]
  rw [ofJson, Json.bind_of_eq_ok hread, hbounds]
  rfl

theorem printable_toJson (i : Interval) : i.toJson.Printable := by
  refine Json.Members.printable_ofList ?_
  simp only [List.forall_mem_cons]
  exact ⟨Json.printable_ofNat _, Json.printable_ofNat _, nofun⟩

theorem decodeOption_toJson? (i : Option Interval) (room : Nat) :
    (toJson? i).decodeOption (ofJson (room + 1)) = .ok i := by
  cases i with
  | none => rfl
  | some i => exact Json.map_of_eq_ok (ofJson_toJson i room)

theorem printable_toJson? (i : Option Interval) : (toJson? i).Printable := by
  cases i with
  | none => exact trivial
  | some i => exact i.printable_toJson

end Interval

/-! ## Failures

Each part of a failure is written, as `null` if there is none, so that a written failure has all three
fields. -/

namespace Failure

theorem ofJson_toJson (f : Failure) (room : Nat) : ofJson (room + 1) f.toJson = .ok f := by
  have hfills : Fills shape.fields
      [.ofString? f.message, .ofString? f.kind, .ofString? f.description] {} f := by
    refine .cons (Json.map_of_eq_ok (Json.decodeOption_ofString? f.message)) ?_
    refine .cons (Json.map_of_eq_ok (Json.decodeOption_ofString? f.kind)) ?_
    refine .cons (Json.map_of_eq_ok (Json.decodeOption_ofString? f.description)) ?_
    exact .nil
  exact Json.decodeRecord_of_fills (by decide) hfills room

theorem printable_toJson (f : Failure) : f.toJson.Printable := by
  refine Json.Members.printable_ofList ?_
  simp only [List.forall_mem_cons]
  exact ⟨Json.printable_ofString? _, Json.printable_ofString? _, Json.printable_ofString? _, nofun⟩

end Failure

/-! ## Properties

A written object has its entries in ascending order. What is read may have them in any order and may
repeat names, as long as the last entry of each name stays (`Properties.LastOf`); with ascending names,
every entry is such a last one. Two lists of properties are compared by their entries, because the order
of these is fixed. -/

namespace Properties

/-- An entry that no other of its name follows. -/
def LastOf (e : String × String) (es : List (String × String)) : Prop :=
  ∃ before after, es = before ++ e :: after ∧ ∀ d ∈ after, d.1 ≠ e.1

theorem lastOf_cons_iff {e d : String × String} {es : List (String × String)} :
    LastOf e (d :: es) ↔ LastOf e es ∨ e = d ∧ ∀ c ∈ es, c.1 ≠ e.1 := by
  constructor
  · rintro ⟨before, after, heq, hafter⟩
    rcases List.cons_eq_append_iff.1 heq with ⟨rfl, heq⟩ | ⟨before, rfl, rfl⟩
    · obtain ⟨rfl, rfl⟩ := List.cons.inj heq
      exact .inr ⟨rfl, hafter⟩
    · exact .inl ⟨before, after, rfl, hafter⟩
  · rintro (⟨before, after, rfl, hafter⟩ | ⟨rfl, hes⟩)
    · exact ⟨d :: before, after, rfl, hafter⟩
    · exact ⟨[], es, rfl, hes⟩

/-- Of entries that are stored one after the other, the last ones of their names stay, and of the
entries that were there those whose names do not come up. -/
theorem mem_entries_foldl_insert {e : String × String} (es : List (String × String))
    (p : Properties) : e ∈ (es.foldl (fun p d => p.insert d.1 d.2) p).entries
      ↔ LastOf e es ∨ e ∈ p.entries ∧ ∀ d ∈ es, d.1 ≠ e.1 := by
  induction es generalizing p with
  | nil => simp [LastOf]
  | cons d es ih =>
    -- the first entry stays if its name does not come up again, and so it is with what was there
    rw [List.foldl_cons, ih, mem_entries_insert, lastOf_cons_iff, List.forall_mem_cons]
    grind

theorem mem_entries_ofList {e : String × String} {es : List (String × String)} :
    e ∈ (ofList es).entries ↔ LastOf e es := by
  rw [ofList, mem_entries_foldl_insert]
  exact or_iff_left fun h => nomatch h.1

theorem nodup_entries (p : Properties) : p.entries.Nodup := by
  have hne : ∀ {a b : String × String}, a.1 < b.1 → a ≠ b := by
    rintro a _ hlt rfl
    exact String.lt_irrefl a.1 hlt
  exact p.ascending.imp hne

/-- Properties with the same entries are equal. -/
theorem eq_of_mem_iff {p q : Properties} (h : ∀ e, e ∈ p.entries ↔ e ∈ q.entries) : p = q := by
  have hperm : p.entries.Perm q.entries :=
    (List.perm_ext_iff_of_nodup p.nodup_entries q.nodup_entries).2 h
  have hentries : p.entries = q.entries := by
    refine hperm.eq_of_pairwise (fun a b _ _ hab hba => ?_) p.ascending q.ascending
    exact absurd (name_lt_trans hab hba) (String.lt_irrefl a.1)
  cases p
  cases q
  congr

/-- Among entries in ascending order each is the last one of its name. -/
theorem lastOf_iff_mem {e : String × String} {es : List (String × String)} (h : Ascending es) :
    LastOf e es ↔ e ∈ es := by
  constructor
  · rintro ⟨before, after, rfl, -⟩
    exact List.mem_append_right before List.mem_cons_self
  · intro he
    obtain ⟨before, after, rfl⟩ := List.append_of_mem he
    refine ⟨before, after, rfl, fun d hd heq => ?_⟩
    have hlt : e.1 < d.1 := (List.pairwise_cons.1 (List.pairwise_append.1 h).2.1).1 d hd
    exact String.lt_irrefl e.1 (heq ▸ hlt)

theorem ofList_entries (p : Properties) : ofList p.entries = p :=
  eq_of_mem_iff fun _ => mem_entries_ofList.trans (lastOf_iff_mem p.ascending)

theorem ofJson_toJson (p : Properties) (room : Nat) : ofJson (room + 1) p.toJson = .ok p := by
  have hread : p.toJson.decodeTexts (room + 1) = .ok p.entries :=
    Json.Members.decodeTexts_ofList p.entries
  rw [ofJson, Json.map_of_eq_ok hread, ofList_entries]

/-- Without room there are no properties. -/
theorem ofJson_zero_ne_ok (j : Json) (p : Properties) : ofJson 0 j ≠ .ok p := by
  intro h
  obtain ⟨es, hes, _⟩ := Json.map_eq_ok h
  exact Json.decodeTexts_zero_ne_ok j es hes

theorem printable_toJson (p : Properties) : p.toJson.Printable := by
  refine Json.Members.printable_ofList fun e he => ?_
  obtain ⟨entry, _, rfl⟩ := List.mem_map.1 he
  exact Json.printable_ofString entry.2

end Properties

end Casebook
