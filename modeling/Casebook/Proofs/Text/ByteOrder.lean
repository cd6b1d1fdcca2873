import Casebook.Properties

/-!
# The order of UTF-8 bytes

Texts are ordered by their code points. `Text.bytes_lt_bytes_iff` says that this is the order of their
UTF-8 bytes as well.

An encoding is a number in base 64 (`Text.digits`): every byte has a digit, and the first one a mark that
tells how many bytes follow. Of two encodings of one length the greater number has the greater bytes
(`Text.digits_append_lt`), and a longer encoding has the greater first byte
(`Text.layout_eq_or_firstByte_lt`). What follows a character does not matter in either case, so two texts
are ordered by the first character in which they differ (`Text.flatMap_utf8EncodeChar_lt`).
-/

namespace Casebook.Text

/-- The UTF-8 bytes of a text. -/
def bytes (s : String) : List UInt8 := s.toUTF8.data.toList

theorem bytes_eq_flatMap (s : String) : bytes s = s.toList.flatMap String.utf8EncodeChar := by
  have h : s.toUTF8 = (s.toList.flatMap String.utf8EncodeChar).toByteArray :=
    String.utf8Encode_toList.symm
  rw [bytes, h, List.toList_data_toByteArray]

/-- A number in base 64, in a first byte that is marked with `mark` and `count` bytes after it. -/
def digits (mark : Nat) : Nat → Nat → List UInt8
  | 0, v => [UInt8.ofNat (mark + v)]
  | count + 1, v => digits mark count (v / 64) ++ [UInt8.ofNat (0x80 + v % 64)]

/-- The mark of the first byte of a code point, and the number of bytes after it. -/
def layout (v : Nat) : Nat × Nat :=
  if v ≤ 0x7f then (0, 0)
  else if v ≤ 0x7ff then (0xc0, 1)
  else if v ≤ 0xffff then (0xe0, 2)
  else (0xf0, 3)

/-- What is left of a number without its last digits in base 64. -/
def leading : Nat → Nat → Nat
  | 0, v => v
  | count + 1, v => leading count (v / 64)

/-- The first byte of a code point. -/
def firstByte (v : Nat) : Nat := (layout v).1 + leading (layout v).2 v

theorem toNat_val_lt (c : Char) : c.val.toNat < 0x110000 := by
  have h := c.valid
  simp only [UInt32.isValidChar, Nat.isValidChar] at h
  omega

theorem utf8EncodeChar_eq_digits (c : Char) :
    String.utf8EncodeChar c
      = digits (layout c.val.toNat).1 (layout c.val.toNat).2 c.val.toNat := by
  have hc := toNat_val_lt c
  unfold String.utf8EncodeChar layout
  generalize c.val.toNat = v at hc ⊢
  -- the remainders on the left only matter below the leading digit
  by_cases h₁ : v ≤ 0x7f
  · simp only [if_pos h₁, digits, Nat.zero_add]
  by_cases h₂ : v ≤ 0x7ff
  · have hlead : v / 64 % 0x20 = v / 64 := Nat.mod_eq_of_lt (by omega)
    simp only [if_neg h₁, if_pos h₂, hlead, digits, List.cons_append, List.nil_append, Nat.add_comm]
  by_cases h₃ : v ≤ 0xffff
  · have hlead : v / 4096 % 0x10 = v / 4096 := Nat.mod_eq_of_lt (by omega)
    simp only [if_neg h₁, if_neg h₂, if_pos h₃, hlead, digits, List.cons_append, List.nil_append,
      Nat.div_div_eq_div_mul, Nat.reduceMul, Nat.add_comm]
  · have hlead : v / 262144 % 0x08 = v / 262144 := Nat.mod_eq_of_lt (by omega)
    simp only [if_neg h₁, if_neg h₂, if_neg h₃, hlead, digits, List.cons_append, List.nil_append,
      Nat.div_div_eq_div_mul, Nat.reduceMul, Nat.add_comm]

/-! ## The order of encodings

Lists of bytes are compared from the front. Two encodings either differ in length, and then in their first
bytes, or they are numbers with equally many digits. -/

theorem ofNat_lt_ofNat {m n : Nat} (h : m < n) (hn : n < 256) : UInt8.ofNat m < UInt8.ofNat n := by
  rw [UInt8.lt_iff_toNat_lt, UInt8.toNat_ofNat', UInt8.toNat_ofNat']
  omega

theorem digits_eq_cons (mark count v : Nat) :
    ∃ rest, digits mark count v = UInt8.ofNat (mark + leading count v) :: rest := by
  induction count generalizing v with
  | zero => exact ⟨[], rfl⟩
  | succ count ih =>
    obtain ⟨rest, hrest⟩ := ih (v / 64)
    refine ⟨rest ++ [UInt8.ofNat (0x80 + v % 64)], ?_⟩
    rw [digits, hrest]
    rfl

/-- Of two numbers in the same number of bytes the greater one has the greater bytes. -/
theorem digits_append_lt {mark count m n : Nat} (h : m < n) (hn : mark + leading count n < 256)
    (xs ys : List UInt8) : digits mark count m ++ xs < digits mark count n ++ ys := by
  induction count generalizing m n xs ys with
  | zero =>
    simp only [digits, List.cons_append, List.nil_append]
    exact List.cons_lt_cons_iff.2 (.inl (ofNat_lt_ofNat (Nat.add_lt_add_left h mark) hn))
  | succ count ih =>
    rw [digits, digits, List.append_assoc, List.append_assoc]
    -- either the leading digits differ, or they are the same and the last digit differs
    rcases Nat.lt_or_ge (m / 64) (n / 64) with hlt | hge
    · exact ih hlt hn _ _
    · have heq : m / 64 = n / 64 := by omega
      rw [heq]
      refine List.append_left_lt (List.cons_lt_cons_iff.2 (.inl ?_))
      exact ofNat_lt_ofNat (by omega) (by omega)

/-- Two code points are laid out in the same way, or the greater one has the greater first byte. -/
theorem layout_eq_or_firstByte_lt {m n : Nat} (h : m < n) (hn : n < 0x110000) :
    layout m = layout n ∨ firstByte m < firstByte n := by
  unfold firstByte layout
  -- one case for each length of the one and each length of the other
  repeat' split
  all_goals simp only [Prod.mk.injEq, true_or, leading] <;> omega

theorem firstByte_lt {v : Nat} (h : v < 0x110000) : firstByte v < 256 := by
  unfold firstByte layout
  repeat' split
  all_goals simp only [leading]; omega

/-- The encodings of two characters are ordered as the characters are, whatever follows them. -/
theorem utf8EncodeChar_append_lt {c d : Char} (h : c < d) (xs ys : List UInt8) :
    String.utf8EncodeChar c ++ xs < String.utf8EncodeChar d ++ ys := by
  have hval : c.val.toNat < d.val.toNat := h
  have hd := firstByte_lt (toNat_val_lt d)
  rw [utf8EncodeChar_eq_digits, utf8EncodeChar_eq_digits]
  rcases layout_eq_or_firstByte_lt hval (toNat_val_lt d) with heq | hlt
  · rw [heq]
    exact digits_append_lt hval hd xs ys
  · obtain ⟨cs, hcs⟩ := digits_eq_cons (layout c.val.toNat).1 (layout c.val.toNat).2 c.val.toNat
    obtain ⟨ds, hds⟩ := digits_eq_cons (layout d.val.toNat).1 (layout d.val.toNat).2 d.val.toNat
    rw [hcs, hds]
    exact List.cons_lt_cons_iff.2 (.inl (ofNat_lt_ofNat hlt hd))

theorem flatMap_utf8EncodeChar_lt {l m : List Char} (h : l < m) :
    l.flatMap String.utf8EncodeChar < m.flatMap String.utf8EncodeChar := by
  induction h with
  | nil =>
    rename_i d m
    rw [List.flatMap_cons]
    cases hd : String.utf8EncodeChar d with
    | nil => exact absurd hd String.utf8EncodeChar_ne_nil
    | cons b bs => exact List.nil_lt_cons b _
  | rel h =>
    rw [List.flatMap_cons, List.flatMap_cons]
    exact utf8EncodeChar_append_lt h _ _
  | cons _ ih =>
    rw [List.flatMap_cons, List.flatMap_cons]
    exact List.append_left_lt ih

/-! ## The order of texts

The order of texts is total, so it is enough that smaller texts have smaller bytes. -/

theorem bytes_lt_bytes {a b : String} (h : a < b) : bytes a < bytes b := by
  rw [bytes_eq_flatMap, bytes_eq_flatMap]
  exact flatMap_utf8EncodeChar_lt h

/-- Texts are ordered as their bytes are. -/
theorem bytes_lt_bytes_iff {a b : String} : bytes a < bytes b ↔ a < b := by
  refine ⟨fun h => ?_, bytes_lt_bytes⟩
  rcases Decidable.em (a < b) with hlt | hge
  · exact hlt
  · -- otherwise the texts are the same or in the other order, and so are their bytes
    rcases Decidable.em (a = b) with rfl | hne
    · exact absurd h (List.lt_irrefl _)
    · exact absurd h (List.lt_asymm (bytes_lt_bytes (Properties.name_lt_of_not_lt hge hne)))

end Casebook.Text
