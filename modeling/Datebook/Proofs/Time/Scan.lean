/-
  Datebook/Proofs/Time/Scan.lean
  ==============================
  **Written dates and times of day are read back**, whatever stands behind them.

  The readers differ in what they skip before a mark, so the lemmas on whole dates
  and times take any `gap` that leaves a text alone unless it starts with white
  space.  Only a year can run into what follows: outside `0..9999` it has no fixed
  width, and ends where the digits end.

  A leap second that does not end a minute is read as the second behind it, under
  whose number it was written (`ofFields?_written`); no other time is changed.
-/
import Datebook.Proofs.Text.Padded
import Datebook.Proofs.Time.Leap
import Datebook.Time.Scan

namespace Datebook.Time

open Datebook.Text

/-! ### Numbers -/

theorem trimStart_of_head {cs : List Char} (h : ∀ c ∈ cs.head?, isBlank c = false) :
    trimStart cs = cs := by
  cases cs with
  | nil => rfl
  | cons c cs => simp [trimStart, h c (by simp)]

theorem isDigit_of_head_padded (w n : Nat) (rest : List Char) :
    ∀ c ∈ (padded w n ++ rest).head?, isDigit c = true :=
  isDigit_of_mem_head? (padded_ne_nil w n) (fun _ hc => isDigit_of_mem_padded hc) rest

theorem trimStart_padded (w n : Nat) (rest : List Char) :
    trimStart (padded w n ++ rest) = padded w n ++ rest := by
  apply trimStart_of_head
  intro c hc
  exact isBlank_of_isDigit (isDigit_of_head_padded w n rest c hc)

/-- A number of the full width is read to its end, also where digits follow. -/
theorem digits?_padded {w n : Nat} (hw : 0 < w) (h : n < 10 ^ w) (rest : List Char) :
    digits? w (padded w n ++ rest) = some (padded w n, rest) := by
  have hlength := length_padded hw h
  have hrun : (padded w n ++ []).takeWhile isDigit = padded w n :=
    takeWhile_isDigit_append (fun c hc => isDigit_of_mem_padded hc) (by simp)
  rw [List.append_nil] at hrun
  simp [digits?, List.take_left' hlength, hrun, padded_ne_nil]

theorem number?_padded {w n : Nat} (hw : 0 < w) (h : n < 10 ^ w) (rest : List Char) :
    number? w (padded w n ++ rest) = some (n, rest) := by
  rw [number?, trimStart_padded, digits?_padded hw h]
  simp [value_padded]

theorem anyNumber?_padded (w n : Nat) {rest : List Char}
    (hrest : ∀ c ∈ rest.head?, isDigit c = false) :
    anyNumber? (padded w n ++ rest) = some (n, rest) := by
  have hdigits : ∀ c ∈ padded w n, isDigit c = true := fun c hc => isDigit_of_mem_padded hc
  simp [anyNumber?, takeWhile_isDigit_append hdigits hrest,
    dropWhile_isDigit_append hdigits hrest, padded_ne_nil, value_padded]

theorem year?_yearChars (y : Int) {rest : List Char}
    (hrest : ∀ c ∈ rest.head?, isDigit c = false) :
    year? (Date.yearChars y ++ rest) = some (y, rest) := by
  rw [Date.yearChars]
  split
  case isTrue hy =>
    have hread := digits?_padded (w := 4) (n := y.natAbs) (by decide) (by omega) rest
    have hvalue := value_padded 4 y.natAbs
    have hhead := isDigit_of_head_padded 4 y.natAbs rest
    rw [year?, trimStart_padded]
    generalize padded 4 y.natAbs = ds at *
    split
    · rename_i more htext
      rw [htext] at hhead
      exact absurd (hhead '+' rfl) (by decide)
    · rename_i more htext
      rw [htext] at hhead
      exact absurd (hhead '-' rfl) (by decide)
    · simp only [hread, Option.map_some, hvalue]
      congr
      omega
  case isFalse hy =>
    have hread := anyNumber?_padded 4 y.natAbs hrest
    by_cases hneg : y < 0
    · have hstart : trimStart ('-' :: (padded 4 y.natAbs ++ rest))
          = '-' :: (padded 4 y.natAbs ++ rest) := trimStart_of_head (by simp +decide)
      simp only [hneg, if_true, year?, List.cons_append, hstart, hread, Option.map_some]
      congr
      omega
    · have hstart : trimStart ('+' :: (padded 4 y.natAbs ++ rest))
          = '+' :: (padded 4 y.natAbs ++ rest) := trimStart_of_head (by simp +decide)
      simp only [hneg, if_false, year?, List.cons_append, hstart, hread, Option.map_some]
      congr
      omega

/-! ### Dates and times of day -/

theorem daysInMonth_le (y : Int) (m : Nat) : Date.daysInMonth y m ≤ 31 := by
  rw [Date.daysInMonth]
  split
  · split <;> omega
  · split <;> omega

section

variable {gap : List Char → List Char}
  (hgap : ∀ c cs, isBlank c = false → gap (c :: cs) = c :: cs)

include hgap

theorem dateFields?_chars (d : Date) (rest : List Char) :
    dateFields? gap (d.chars ++ rest) = some ((d.year, d.month, d.day), rest) := by
  obtain ⟨-, -, -, hmonth, -, hday⟩ := d.isDay
  have hday31 := daysInMonth_le d.year d.month
  have hdash : ∀ c ∈ ('-' :: (padded 2 d.month ++ ('-' :: (padded 2 d.day ++ rest)))).head?,
      isDigit c = false := by
    intro c hc
    cases hc
    decide
  simp [dateFields?, Date.chars, mark?, year?_yearChars d.year hdash,
    hgap '-' _ (by decide), number?_padded (w := 2) (by decide) (n := d.month) (by omega),
    number?_padded (w := 2) (by decide) (n := d.day) (by omega)]

theorem timeFields?_chars (t : TimeOfDay) (rest : List Char) :
    timeFields? gap (t.chars ++ rest) = some ((t.hour, t.minute, t.writtenSecond), rest) := by
  obtain ⟨hhour, hminute, hsecond, -⟩ := t.isTime
  have hwritten : t.writtenSecond < 10 ^ 2 := by
    rw [TimeOfDay.writtenSecond]
    split <;> omega
  simp [timeFields?, TimeOfDay.chars, mark?, hgap ':' _ (by decide),
    number?_padded (w := 2) (by decide) (n := t.hour) (by omega),
    number?_padded (w := 2) (by decide) (n := t.minute) (by omega),
    number?_padded (w := 2) (by decide) hwritten]

end

/-! ### From the fields that were read -/

theorem writtenNanosecond_lt (t : TimeOfDay) : t.writtenNanosecond < nanosPerSecond := by
  have := t.isTime.2.2.2
  rw [TimeOfDay.writtenNanosecond]
  split <;> omega

/-- Fields below 60 are those of the time that is read. -/
theorem ofFields?_of_lt {hour minute second nanosecond : Nat} (hsecond : second < 60)
    (hnano : nanosecond < nanosPerSecond)
    (h : TimeOfDay.Exists hour minute second nanosecond) :
    TimeOfDay.ofFields? hour minute second nanosecond
      = some ⟨hour, minute, second, nanosecond, h⟩ := by
  have hne : second ≠ 60 := by omega
  simp only [TimeOfDay.ofFields?, hne, if_false]
  exact dif_pos ⟨hnano, h⟩

/-- The second 60 is taken for the longer second 59 again, and every other second that was
    written for the ordinary one of this number. -/
theorem ofFields?_written (t : TimeOfDay) :
    TimeOfDay.ofFields? t.hour t.minute t.writtenSecond t.writtenNanosecond = some t.settled := by
  have hnano := writtenNanosecond_lt t
  by_cases hregular : t.Regular
  · rw [TimeOfDay.settled_of_regular hregular]
    by_cases hlong : nanosPerSecond ≤ t.nanosecond
    -- the second 59, written as 60
    · obtain ⟨hour, minute, second, nanosecond, htime⟩ := t
      obtain rfl : second = 59 := hregular hlong
      have hback : nanosecond - nanosPerSecond + nanosPerSecond = nanosecond :=
        Nat.sub_add_cancel hlong
      simp only [TimeOfDay.writtenNanosecond, if_pos hlong] at hnano
      simp only [TimeOfDay.ofFields?, TimeOfDay.writtenSecond, TimeOfDay.writtenNanosecond,
        if_pos hlong, if_true, hback]
      exact dif_pos ⟨hnano, htime⟩
    · simp only [TimeOfDay.writtenSecond, TimeOfDay.writtenNanosecond, if_neg hlong]
      exact ofFields?_of_lt t.isTime.2.2.1 (Nat.not_le.mp hlong) t.isTime
  · have hbehind := TimeOfDay.exists_behind hregular
    have hlong := (TimeOfDay.not_regular_iff.mp hregular).1
    simp only [TimeOfDay.writtenNanosecond, if_pos hlong] at hnano
    rw [TimeOfDay.settled_of_not_regular hregular]
    simp only [TimeOfDay.writtenSecond, TimeOfDay.writtenNanosecond, if_pos hlong]
    exact ofFields?_of_lt hbehind.2.2.1 hnano hbehind

theorem assemble?_written (t : DateTime) :
    assemble? (t.date.year, t.date.month, t.date.day)
      (t.time.hour, t.time.minute, t.time.writtenSecond) t.time.writtenNanosecond
        = some { t with time := t.time.settled } := by
  simp [assemble?, ofFields?_written, Date.ofYMD?_eq_some t.date.isDay]

/-- No text is read as a leap second that does not end a minute. -/
theorem regular_of_ofFields? {hour minute second nanosecond : Nat} {t : TimeOfDay}
    (h : TimeOfDay.ofFields? hour minute second nanosecond = some t) : t.Regular := by
  simp only [TimeOfDay.ofFields?] at h
  by_cases h60 : second = 60
  · simp only [h60, if_true] at h
    split at h
    case isTrue =>
      cases h
      exact fun _ => rfl
    case isFalse => cases h
  · simp only [h60, if_false] at h
    split at h
    case isTrue hfields =>
      cases h
      exact TimeOfDay.regular_of_ordinary hfields.1
    case isFalse => cases h

theorem regular_of_assemble? {date : Int × Nat × Nat} {time : Nat × Nat × Nat} {nanosecond : Nat}
    {t : DateTime} (h : assemble? date time nanosecond = some t) : t.time.Regular := by
  simp only [assemble?, Option.bind_eq_bind, Option.bind_eq_some_iff, Option.some.injEq] at h
  obtain ⟨_, _, _, htime, rfl⟩ := h
  exact regular_of_ofFields? htime

end Datebook.Time
