import Mathlib.Data.List.Basic
import Casebook.Proofs.Calendar.Moments

/-!
# Moments as text

The text of a moment shows its numbers in decimal, in fixed places (`DateTime.Shows`). The text of every
moment of the calendar does so (`DateTime.shows_text`), and a text shows no more than one moment
(`DateTime.eq_of_shows`): no digit is a separator, so a text falls into its numbers in one way only.
-/

namespace Casebook.DateTime

/-! ## Numbers

A number in a text is known by its digits, whatever their count. The year is the only number of which the
count varies, and the sign in front says so. -/

/-- A number written in decimal, in some number of digits. -/
structure Decimal (width n : Nat) (cs : List Char) : Prop where
  length : cs.length = width
  isDigit : ∀ c ∈ cs, c.isDigit = true
  value : Nat.ofDigitChars 10 cs 0 = n

theorem decimal_padded (width n : Nat) :
    Decimal (max width (Nat.toDigits 10 n).length) n (padded width n).toList := by
  rw [padded, String.toList_ofList]
  refine ⟨List.length_leftpad, fun c hc => ?_, ?_⟩
  · rcases List.mem_append.1 hc with hzero | hdigit
    · rw [List.eq_of_mem_replicate hzero]
      rfl
    · exact Nat.isDigit_of_mem_toDigits (by decide) (by decide) hdigit
  · rw [List.leftpad, Nat.ofDigitChars_append, Nat.ofDigitChars_replicate_zero, Nat.mul_zero,
      Nat.ofDigitChars_ten_toDigits]

/-- A number that fits a width is written in that width. -/
theorem decimal_padded_of_lt {width n : Nat} (hpos : 0 < width) (h : n < Nat.pow 10 width) :
    Decimal width n (padded width n).toList := by
  have hle : (Nat.toDigits 10 n).length ≤ width :=
    (Nat.length_toDigits_le_iff (by decide) hpos).2 h
  have hdecimal := decimal_padded width n
  rwa [Nat.max_eq_left hle] at hdecimal

/-- Where no digit follows, a number ends in one place only. -/
theorem Decimal.inj {width width' n n' : Nat} {cs cs' rest rest' : List Char} {c : Char}
    (h : Decimal width n cs) (h' : Decimal width' n' cs') (hc : c.isDigit = false)
    (heq : cs ++ c :: rest = cs' ++ c :: rest') : n = n' ∧ rest = rest' := by
  have htake {ds : List Char} (hds : ∀ d ∈ ds, d.isDigit = true) (tail : List Char) :
      (ds ++ c :: tail).takeWhile Char.isDigit = ds := by
    rw [List.takeWhile_append_of_pos hds, List.takeWhile_cons_of_neg (by rw [hc]; decide),
      List.append_nil]
  obtain rfl : cs = cs' := by
    rw [← htake h.isDigit rest, heq, htake h'.isDigit rest']
  exact ⟨h.value.symm.trans h'.value, (List.cons.inj (List.append_cancel_left heq)).2⟩

/-- A year in four digits, or a longer one after a plus sign. -/
inductive YearDigits (year : Nat) : List Char → Prop
  | short {cs : List Char} : year ≤ 9999 → Decimal 4 year cs → YearDigits year cs
  | long {width : Nat} {cs : List Char} : 4 < width → Decimal width year cs →
    YearDigits year ('+' :: cs)

theorem yearDigits_yearText (year : Nat) : YearDigits year (yearText year).toList := by
  rw [yearText]
  split
  · next h => exact .short h (decimal_padded_of_lt (by decide) (Nat.lt_succ_of_le h))
  · next h =>
    have hlength : 4 < (Nat.toDigits 10 year).length := by
      rw [← Nat.not_le, Nat.length_toDigits_le_iff (by decide) (by decide), Nat.not_lt]
      exact Nat.not_le.1 h
    rw [String.toList_append]
    exact .long (Nat.lt_of_lt_of_le hlength (Nat.le_max_right 4 _)) (decimal_padded 4 year)

theorem Decimal.head_ne_plus {width n : Nat} {cs tail rest : List Char} (h : Decimal width n cs)
    (hpos : 0 < width) : cs ++ rest ≠ '+' :: tail := by
  cases cs with
  | nil =>
    rw [← h.length] at hpos
    cases hpos
  | cons d ds =>
    intro heq
    have hdigit := h.isDigit d List.mem_cons_self
    rw [(List.cons.inj heq).1] at hdigit
    cases hdigit

theorem YearDigits.inj {year year' : Nat} {cs cs' rest rest' : List Char} (h : YearDigits year cs)
    (h' : YearDigits year' cs') (heq : cs ++ '-' :: rest = cs' ++ '-' :: rest') :
    year = year' ∧ rest = rest' := by
  -- either both years have a plus sign or none has
  cases h with
  | short _ h =>
    cases h' with
    | short _ h' => exact h.inj h' rfl heq
    | long _ _ => exact absurd heq (h.head_ne_plus (by decide))
  | long _ h =>
    cases h' with
    | short _ h' => exact absurd heq.symm (h'.head_ne_plus (by decide))
    | long _ h' => exact h.inj h' rfl (List.cons.inj heq).2

/-! ## Moments

A text is compared with another from its front, one number at a time; the separator behind a number is
where both end. -/

/-- A text that shows the numbers of a moment: the date, the letter `T`, the time of day to three digits
of a second, and the letter `Z`. -/
inductive Shows (t : DateTime) : List Char → Prop
  | intro {year month day hour minute second milli : List Char} : YearDigits t.year year →
    Decimal 2 t.month month → Decimal 2 t.day day → Decimal 2 t.hour hour →
    Decimal 2 t.minute minute → Decimal 2 t.second second → Decimal 3 t.milli milli →
    Shows t (year ++ '-' :: (month ++ '-' :: (day ++ 'T' :: (hour ++ ':' :: (minute ++ ':' ::
      (second ++ '.' :: (milli ++ ['Z'])))))))

/-- The text of a moment of the calendar shows it. That the calendar has it is what keeps its numbers within
their places. -/
theorem shows_text {t : DateTime} (h : t.IsMoment) : t.Shows t.text.toList := by
  have hmonth : t.month < 100 := Nat.lt_of_le_of_lt h.month_le (by decide)
  have hday : t.day < 100 :=
    Nat.lt_of_le_of_lt (Nat.le_trans h.day_le (daysInMonth_le t.year t.month)) (by decide)
  have hhour : t.hour < 100 := Nat.lt_trans h.hour_lt (by decide)
  have hminute : t.minute < 100 := Nat.lt_trans h.minute_lt (by decide)
  have hsecond : t.second < 100 := Nat.lt_trans h.second_lt (by decide)
  have htext : t.text.toList = (yearText t.year).toList ++ '-' :: ((padded 2 t.month).toList ++ '-' ::
      ((padded 2 t.day).toList ++ 'T' :: ((padded 2 t.hour).toList ++ ':' ::
      ((padded 2 t.minute).toList ++ ':' :: ((padded 2 t.second).toList ++ '.' ::
      ((padded 3 t.milli).toList ++ ['Z'])))))) := by
    simp [text]
  rw [htext]
  exact .intro (yearDigits_yearText t.year) (decimal_padded_of_lt (by decide) hmonth)
    (decimal_padded_of_lt (by decide) hday) (decimal_padded_of_lt (by decide) hhour)
    (decimal_padded_of_lt (by decide) hminute) (decimal_padded_of_lt (by decide) hsecond)
    (decimal_padded_of_lt (by decide) h.milli_lt)

/-- A text shows no more than one moment. -/
theorem eq_of_shows {t t' : DateTime} {cs : List Char} (h : t.Shows cs) (h' : t'.Shows cs) : t = t' := by
  cases h with
  | intro hyear hmonth hday hhour hminute hsecond hmilli =>
    generalize heq : _ ++ '-' :: _ = cs at h'
    cases h' with
    | intro hyear' hmonth' hday' hhour' hminute' hsecond' hmilli' =>
      obtain ⟨hy, heq⟩ := hyear.inj hyear' heq
      obtain ⟨hmo, heq⟩ := hmonth.inj hmonth' rfl heq
      obtain ⟨hd, heq⟩ := hday.inj hday' rfl heq
      obtain ⟨hh, heq⟩ := hhour.inj hhour' rfl heq
      obtain ⟨hmi, heq⟩ := hminute.inj hminute' rfl heq
      obtain ⟨hs, heq⟩ := hsecond.inj hsecond' rfl heq
      obtain ⟨hms, -⟩ := hmilli.inj hmilli' rfl heq
      exact eq_of_numbers_eq (by rw [numbers, numbers, hy, hmo, hd, hh, hmi, hs, hms])

end Casebook.DateTime
