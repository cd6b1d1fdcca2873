import Casebook.Proofs.Json.Decoding

/-!
# What is read is spelled

The reader never makes up anything: if a part of a tree was read without a fault, then what was taken off
the text spells that part (`Part.Sound`). Together with `reads_of_spells` this makes the reader and the
grammar of `Spells` one and the same.

The readers of strings and numbers come first, one lemma each. Then `sound_value`, `sound_item` and
`sound_member` go along the tree that was read; a list that follows an opening bracket or another item is
reduced to the list from its next item on.

`spellsText_tree` is the result for whole texts.
-/

namespace Casebook.Json

/-! ## Blanks and strings

What a reader has taken off is given back as a prefix of the text, and the grammar spells the result with
it. -/

/-- What is skipped is blank. -/
theorem exists_blank (cs : List Char) : ∃ ws, Blank ws ∧ cs = ws ++ skipSpace cs :=
  ⟨cs.takeWhile isSpace, fun _ hc => (List.all_eq_true.1 List.all_takeWhile) _ hc,
    List.takeWhile_append_dropWhile.symm⟩

/-- What was read as a string is spelled up to its quote. The cases are those of the reader; in five of
them it fails. -/
theorem spells_of_readPieces {cs rest : List Char} {ps : List Piece}
    (h : readPieces cs = some (ps, rest)) :
    ∃ ds, cs = ds ++ '"' :: rest ∧ SpellsPieces ds ps := by
  fun_induction readPieces cs generalizing ps with
  | case1 => cases h
  | case2 cs =>
    cases h
    exact ⟨[], rfl, .nil⟩
  | case3 a b c d cs n ps' rest' hread hn ih =>
    cases h
    obtain ⟨ds, rfl, hds⟩ := ih hread
    exact ⟨'\\' :: 'u' :: a :: b :: c :: d :: ds, rfl, .cons (.unit hn) hds⟩
  | case4 => cases h
  | case5 e cs _ c ps' rest' hread he ih =>
    cases h
    obtain ⟨ds, rfl, hds⟩ := ih hread
    exact ⟨'\\' :: e :: ds, rfl, .cons (.short he) hds⟩
  | case6 => cases h
  | case7 => cases h
  | case8 c cs hquote _ _ hplain ps' rest' hread ih =>
    cases h
    obtain ⟨ds, rfl, hds⟩ := ih hread
    simp only [Bool.or_eq_true, decide_eq_true_eq, not_or] at hplain
    exact ⟨c :: ds, rfl, .cons (.plain hquote hplain.1 hplain.2) hds⟩
  | case9 => cases h

/-! ## Numbers

One lemma for each reader, from the digits up. All have the same shape: if the reader succeeded, then the
text is a spelling of what was read followed by the rest. -/

theorem digits_of_readDigits {cs ds rest : List Char} (h : readDigits cs = some (ds, rest)) :
    Digits ds ∧ cs = ds ++ rest := by
  rw [readDigits] at h
  split at h
  · cases h
  · next hne =>
    cases h
    refine ⟨⟨fun hnil => hne hnil, fun c hc => ?_⟩, List.takeWhile_append_dropWhile.symm⟩
    exact (List.all_eq_true.1 List.all_takeWhile) c hc

theorem wholeDigits_of_readWhole {cs ds rest : List Char} (h : readWhole cs = some (ds, rest)) :
    WholeDigits ds ∧ cs = ds ++ rest := by
  rw [readWhole] at h
  split at h
  · cases h
  · next hne =>
    obtain ⟨hds, hcs⟩ := digits_of_readDigits h
    refine ⟨⟨hds, ?_⟩, hcs⟩
    rintro d ds' rfl
    exact hne _ _ _ h

theorem spells_of_readFraction {cs rest : List Char} {f : Option (List Char)}
    (h : readFraction cs = some (f, rest)) : ∃ fs, SpellsFraction fs f ∧ cs = fs ++ rest := by
  unfold readFraction at h
  split at h
  · obtain ⟨⟨ds, rest'⟩, hread, heq⟩ := Option.map_eq_some_iff.1 h
    cases heq
    obtain ⟨hds, rfl⟩ := digits_of_readDigits hread
    exact ⟨'.' :: ds, .some hds, rfl⟩
  · cases h
    exact ⟨[], .none, rfl⟩

theorem spells_of_readPower {cs rest : List Char} {p : Bool × List Char}
    (h : readPower cs = some (p, rest)) : ∃ es, SpellsPower es p ∧ cs = es ++ rest := by
  unfold readPower at h
  split at h
  all_goals
    obtain ⟨⟨ds, rest'⟩, hread, heq⟩ := Option.map_eq_some_iff.1 h
    cases heq
    obtain ⟨hds, rfl⟩ := digits_of_readDigits hread
  · exact ⟨'-' :: ds, .minus hds, rfl⟩
  · exact ⟨'+' :: ds, .plus hds, rfl⟩
  · exact ⟨ds, .bare hds, rfl⟩

theorem spells_of_readExponent {cs rest : List Char} {e : Option (Bool × List Char)}
    (h : readExponent cs = some (e, rest)) : ∃ es, SpellsExponent es e ∧ cs = es ++ rest := by
  unfold readExponent at h
  split at h
  · obtain ⟨⟨p, rest'⟩, hread, heq⟩ := Option.map_eq_some_iff.1 h
    cases heq
    obtain ⟨es, hes, rfl⟩ := spells_of_readPower hread
    exact ⟨'e' :: es, .small hes, rfl⟩
  · obtain ⟨⟨p, rest'⟩, hread, heq⟩ := Option.map_eq_some_iff.1 h
    cases heq
    obtain ⟨es, hes, rfl⟩ := spells_of_readPower hread
    exact ⟨'E' :: es, .capital hes, rfl⟩
  · cases h
    exact ⟨[], .none, rfl⟩

theorem spells_of_readUnsigned {negative : Bool} {cs rest : List Char} {n : Numeral}
    (h : readUnsigned negative cs = some (n, rest)) :
    ∃ ds, n.Spells ((if negative then ['-'] else []) ++ ds) ∧ cs = ds ++ rest := by
  unfold readUnsigned at h
  split at h
  · cases h
  · next hwhole =>
    split at h
    · cases h
    · next hfraction =>
      split at h
      · cases h
      · next hexponent =>
        cases h
        obtain ⟨hws, rfl⟩ := wholeDigits_of_readWhole hwhole
        obtain ⟨fs, hfs, rfl⟩ := spells_of_readFraction hfraction
        obtain ⟨es, hes, rfl⟩ := spells_of_readExponent hexponent
        exact ⟨_, .intro negative hws hfs hes, by rw [List.append_assoc, List.append_assoc]⟩

theorem spells_of_readNumeral {cs rest : List Char} {n : Numeral}
    (h : readNumeral cs = some (n, rest)) : ∃ ds, n.Spells ds ∧ cs = ds ++ rest := by
  unfold readNumeral at h
  split at h
  · obtain ⟨ds, hds, rfl⟩ := spells_of_readUnsigned h
    exact ⟨'-' :: ds, hds, rfl⟩
  · exact spells_of_readUnsigned h

theorem spells_of_readScalar {cs rest : List Char} {j : Json} (h : readScalar cs = some (j, rest)) :
    ∃ ds, cs = ds ++ rest ∧ Spells ds (.value j) := by
  unfold readScalar at h
  split at h
  · cases h
    exact ⟨_, rfl, .null⟩
  · cases h
    exact ⟨_, rfl, .yes⟩
  · cases h
    exact ⟨_, rfl, .no⟩
  · obtain ⟨⟨n, rest'⟩, hread, heq⟩ := Option.map_eq_some_iff.1 h
    cases heq
    obtain ⟨ds, hds, rfl⟩ := spells_of_readNumeral hread
    exact ⟨ds, rfl, .number hds⟩

/-! ## Parts of trees

The induction here cannot be on a spelling, as there is none yet. It is on the tree that was read, and a
tree without a fault says which way the reader went. -/

/-- Wherever the part is read, what was taken off the text spells it. -/
def Part.Sound (p : Part) : Prop :=
  ∀ cs rest, p.Reads cs rest → ∃ ds, cs = ds ++ rest ∧ Spells ds p

theorem Part.Sound.items {l : Items} (h : (Part.item l).Sound) : (Part.items l).Sound := by
  intro cs rest hread
  obtain ⟨ws, hws, hcs⟩ := exists_blank cs
  have hread : (readItems cs).out = (l, rest) := hread
  rw [out_readItems] at hread
  split at hread
  · next tail htail =>
    cases hread
    rw [htail] at hcs
    exact ⟨ws ++ [']'], by rw [hcs, List.append_assoc]; rfl, .noItems hws⟩
  · obtain ⟨ds, hds, hspells⟩ := h cs rest hread
    exact ⟨ds, hds, .someItems hspells⟩

theorem Part.Sound.moreItems {l : Items} (hc : l.complete = true) (h : (Part.item l).Sound) :
    (Part.moreItems l).Sound := by
  intro cs rest hread
  obtain ⟨ws, hws, hcs⟩ := exists_blank cs
  have hread : (readMoreItems cs).out = (l, rest) := hread
  rw [out_readMoreItems] at hread
  split at hread
  · next tail htail =>
    cases hread
    rw [htail] at hcs
    exact ⟨ws ++ [']'], by rw [hcs, List.append_assoc]; rfl, .noMoreItems hws⟩
  · next tail htail =>
    obtain ⟨ds, rfl, hspells⟩ := h tail rest hread
    rw [htail] at hcs
    exact ⟨ws ++ ',' :: ds, by rw [hcs, List.append_assoc]; rfl, .moreItems hws hspells⟩
  · cases hread
    cases hc

theorem Part.Sound.members {m : Members} (h : (Part.member m).Sound) : (Part.members m).Sound := by
  intro cs rest hread
  obtain ⟨ws, hws, hcs⟩ := exists_blank cs
  have hread : (readMembers cs).out = (m, rest) := hread
  rw [out_readMembers] at hread
  split at hread
  · next tail htail =>
    cases hread
    rw [htail] at hcs
    exact ⟨ws ++ ['}'], by rw [hcs, List.append_assoc]; rfl, .noMembers hws⟩
  · obtain ⟨ds, hds, hspells⟩ := h cs rest hread
    exact ⟨ds, hds, .someMembers hspells⟩

theorem Part.Sound.moreMembers {m : Members} (hc : m.complete = true) (h : (Part.member m).Sound) :
    (Part.moreMembers m).Sound := by
  intro cs rest hread
  obtain ⟨ws, hws, hcs⟩ := exists_blank cs
  have hread : (readMoreMembers cs).out = (m, rest) := hread
  rw [out_readMoreMembers] at hread
  split at hread
  · next tail htail =>
    cases hread
    rw [htail] at hcs
    exact ⟨ws ++ ['}'], by rw [hcs, List.append_assoc]; rfl, .noMoreMembers hws⟩
  · next tail htail =>
    obtain ⟨ds, rfl, hspells⟩ := h tail rest hread
    rw [htail] at hcs
    exact ⟨ws ++ ',' :: ds, by rw [hcs, List.append_assoc]; rfl, .moreMembers hws hspells⟩
  · cases hread
    cases hc

/-- A value that was read, after blanks, is spelled by what was taken off the text, or it is a list that
was read after its opening bracket. -/
theorem readValue_cases {cs rest : List Char} {j : Json} (hread : (readValue cs).out = (j, rest))
    (hc : j.complete = true) : ∃ ws tail, Blank ws ∧ cs = ws ++ tail
      ∧ ((∃ ds, tail = ds ++ rest ∧ Spells ds (.value j))
        ∨ (∃ l cs', j = .array l ∧ tail = '[' :: cs' ∧ (Part.items l).Reads cs' rest)
        ∨ ∃ m cs', j = .object m ∧ tail = '{' :: cs' ∧ (Part.members m).Reads cs' rest) := by
  obtain ⟨ws, hws, hcs⟩ := exists_blank cs
  refine ⟨ws, skipSpace cs, hws, hcs, ?_⟩
  rw [out_readValue] at hread
  split at hread
  · next tail htail =>
    left
    cases hpieces : readPieces tail with
    | none =>
      rw [hpieces] at hread
      cases hread
      cases hc
    | some s =>
      rw [hpieces] at hread
      cases hread
      obtain ⟨ds, rfl, hds⟩ := spells_of_readPieces hpieces
      exact ⟨'"' :: (ds ++ ['"']), by rw [htail]; simp, .string hds⟩
  · next tail htail =>
    cases hread
    exact .inr (.inl ⟨_, tail, rfl, htail, rfl⟩)
  · next tail htail =>
    cases hread
    exact .inr (.inr ⟨_, tail, rfl, htail, rfl⟩)
  · left
    cases hscalar : readScalar (skipSpace cs) with
    | none =>
      rw [hscalar] at hread
      cases hread
      cases hc
    | some s =>
      rw [hscalar] at hread
      cases hread
      exact spells_of_readScalar hscalar

/-- A value that is no list is spelled as soon as it was read. -/
theorem Part.Sound.value_of_flat {j : Json} (hc : j.complete = true) (harray : ∀ l, j ≠ .array l)
    (hobject : ∀ m, j ≠ .object m) : (Part.value j).Sound := by
  intro cs rest hread
  obtain ⟨ws, tail, hws, rfl, hflat | ⟨l, _, hj, -⟩ | ⟨m, _, hj, -⟩⟩ := readValue_cases hread hc
  · obtain ⟨ds, rfl, hds⟩ := hflat
    exact ⟨ws ++ ds, (List.append_assoc ..).symm, .blanks hws hds⟩
  · exact absurd hj (harray l)
  · exact absurd hj (hobject m)

mutual

theorem sound_value : ∀ {j : Json}, j.complete = true → (Part.value j).Sound
  | .array l, hc => by
    intro cs rest hread
    obtain ⟨ws, tail, hws, rfl, hflat | ⟨l', cs', hl, rfl, hitems⟩ | ⟨_, _, hj, -⟩⟩ :=
      readValue_cases hread hc
    · obtain ⟨ds, rfl, hds⟩ := hflat
      exact ⟨ws ++ ds, (List.append_assoc ..).symm, .blanks hws hds⟩
    · cases hl
      obtain ⟨ds, rfl, hds⟩ := (sound_item hc).items cs' rest hitems
      exact ⟨ws ++ '[' :: ds, by simp, .blanks hws (.array hds)⟩
    · cases hj
  | .object m, hc => by
    intro cs rest hread
    obtain ⟨ws, tail, hws, rfl, hflat | ⟨_, _, hj, -⟩ | ⟨m', cs', hm, rfl, hmembers⟩⟩ :=
      readValue_cases hread hc
    · obtain ⟨ds, rfl, hds⟩ := hflat
      exact ⟨ws ++ ds, (List.append_assoc ..).symm, .blanks hws hds⟩
    · cases hj
    · cases hm
      obtain ⟨ds, rfl, hds⟩ := (sound_member hc).members cs' rest hmembers
      exact ⟨ws ++ '{' :: ds, by simp, .blanks hws (.object hds)⟩
  | .null, hc => .value_of_flat hc nofun nofun
  | .bool _, hc => .value_of_flat hc nofun nofun
  | .number _, hc => .value_of_flat hc nofun nofun
  | .string _, hc => .value_of_flat hc nofun nofun

theorem sound_item : ∀ {l : Items}, l.complete = true → (Part.item l).Sound
  | .close, _ => by
    intro cs rest hread
    have hread : (readItem cs).out = (.close, rest) := hread
    rw [out_readItem] at hread
    cases hread
  | .item j l, hc => by
    intro cs rest hread
    obtain ⟨hj, hl⟩ := Bool.and_eq_true_iff.1 hc
    have hread : (readItem cs).out = (.item j l, rest) := hread
    rw [out_readItem] at hread
    simp only [Prod.mk.injEq, Items.item.injEq] at hread
    obtain ⟨⟨hvalue, hmore⟩, hrest⟩ := hread
    obtain ⟨ds, hds, hspells⟩ := sound_value hj cs _ (Prod.ext hvalue rfl)
    obtain ⟨es, hes, hspells'⟩ := (sound_item hl).moreItems hl _ rest (Prod.ext hmore hrest)
    refine ⟨ds ++ es, ?_, .item hspells hspells'⟩
    rw [List.append_assoc, ← hes]
    exact hds

theorem sound_member : ∀ {m : Members}, m.complete = true → (Part.member m).Sound
  | .close, _ => by
    intro cs rest hread
    have hread : (readMember cs).out = (.close, rest) := hread
    rw [out_readMember] at hread
    split at hread <;> cases hread
  | .member key value m, hc => by
    intro cs rest hread
    obtain ⟨hkv, hm⟩ := Bool.and_eq_true_iff.1 hc
    obtain ⟨hk, hv⟩ := Bool.and_eq_true_iff.1 hkv
    have hread : (readMember cs).out = (.member key value m, rest) := hread
    rw [out_readMember] at hread
    split at hread
    · next ps tail hkey hcolon =>
      simp only [Prod.mk.injEq, Members.member.injEq] at hread
      obtain ⟨⟨rfl, hvalue, hmore⟩, hrest⟩ := hread
      obtain ⟨ks, hks, hspellsKey⟩ := sound_value hk cs _ (Prod.ext hkey rfl)
      obtain ⟨ws, hws, hblank⟩ := exists_blank (readValue cs).out.2
      obtain ⟨ds, hds, hspells⟩ := sound_value hv tail _ (Prod.ext hvalue rfl)
      obtain ⟨es, hes, hspells'⟩ := (sound_member hm).moreMembers hm _ rest (Prod.ext hmore hrest)
      refine ⟨ks ++ (ws ++ ':' :: (ds ++ es)), ?_, .member hspellsKey hws hspells hspells'⟩
      have htail : tail = ds ++ (es ++ rest) := hes ▸ hds
      calc cs = ks ++ (readValue cs).out.2 := hks
        _ = ks ++ (ws ++ ':' :: tail) := by rw [hblank, hcolon]
        _ = ks ++ (ws ++ ':' :: (ds ++ es)) ++ rest := by rw [htail]; simp
    · -- without a key and a colon there is no value
      cases hread
      cases hv

end

/-! ## Whole texts

A text is more than a tree: blanks may stand behind it, and nothing else. -/

/-- A text that spells a tree, with blanks around it. -/
def SpellsText (text : String) (j : Json) : Prop :=
  ∃ cs ws, text = String.ofList (cs ++ ws) ∧ Spells cs (.value j) ∧ Blank ws

theorem SpellsText.complete {text : String} {j : Json} (h : SpellsText text j) : j.complete = true := by
  obtain ⟨cs, ws, -, hspells, -⟩ := h
  exact hspells.complete

theorem SpellsText.decode {text : String} {j : Json} (h : SpellsText text j) {α : Type}
    (decoder : Json → Decoded α) : Json.decode decoder text = decoder j := by
  obtain ⟨cs, ws, rfl, hspells, hws⟩ := h
  exact decode_of_spells decoder hspells hws

theorem spellsText_render {j : Json} (h : j.Printable) : SpellsText j.render j :=
  ⟨j.chars, [], (List.append_nil j.chars).symm ▸ rfl, spells_chars h, blank_nil⟩

/-- A text that is read without a fault, with nothing but blanks behind it, spells its tree. -/
theorem spellsText_tree {text : String} (hc : (tree text).complete = true)
    (hrest : skipSpace (readValue text.toList).rest = []) : SpellsText text (tree text) := by
  obtain ⟨cs, hcs, hspells⟩ := sound_value hc text.toList (readValue text.toList).rest rfl
  obtain ⟨ws, hws, hblank⟩ := exists_blank (readValue text.toList).rest
  rw [hrest, List.append_nil] at hblank
  refine ⟨cs, ws, ?_, hspells, hws⟩
  rw [← hblank, ← hcs, String.ofList_toList]

end Casebook.Json
