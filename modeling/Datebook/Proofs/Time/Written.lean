/-
  Datebook/Proofs/Time/Written.lean
  =================================
  **The date-times of commands are read back**, over the whole calendar.

  A year outside `0..9999` is written with a sign and read with one, and its digits
  run up to the dash behind it, so no width is lost on the way.  The two forms share
  everything but the mark between date and time and the fraction:

    * behind a blank, the time must end the text;
    * behind a `T`, a point and a run of digits of any length must follow, of which
      the first nine count.

  The plain form is tried first, and gives up at the `T`, which is neither white
  space nor a digit (`plain?_mark`).

  A day put in the place of the placeholder is read as that day: the text behind the
  placeholder holds no `Y`, so nothing else of it is replaced.
-/
import Datebook.Execution
import Datebook.Proofs.Text.Cutting
import Datebook.Proofs.Time.Scan

namespace Datebook

open Datebook.Text

namespace TimeOfDay

/-- Hour, minute and second as `HH:MM:SS`. -/
def clockChars (hour minute second : Nat) : List Char :=
  padded 2 hour ++ ':' :: padded 2 minute ++ ':' :: padded 2 second

theorem exists_of_clock {hour minute second nanosecond : Nat} (hhour : hour < 24)
    (hminute : minute < 60) (hsecond : second < 60) (hnano : nanosecond < nanosPerSecond) :
    Exists hour minute second nanosecond :=
  ⟨hhour, hminute, hsecond, by omega⟩

theorem settled_of_ordinary {t : TimeOfDay} (h : t.nanosecond < nanosPerSecond) : t.settled = t :=
  settled_of_regular (regular_of_ordinary h)

theorem chars_of_ordinary {t : TimeOfDay} (h : t.nanosecond < nanosPerSecond) :
    t.chars = clockChars t.hour t.minute t.second := by
  rw [chars, clockChars, writtenSecond, if_neg (by omega)]

theorem writtenNanosecond_of_ordinary {t : TimeOfDay} (h : t.nanosecond < nanosPerSecond) :
    t.writtenNanosecond = t.nanosecond := by
  rw [writtenNanosecond, if_neg (by omega)]

end TimeOfDay

namespace Time

/-! ### Fractions -/

/-- The digits that count are the first nine, as if zeros followed. -/
theorem fractionValue_eq (ds : List Char) :
    fractionValue ds = value ((ds ++ List.replicate 9 '0').take 9) := by
  have htake : (ds ++ List.replicate 9 '0').take 9
      = ds.take 9 ++ List.replicate (9 - (ds.take 9).length) '0' := by
    rw [List.take_append, List.take_replicate, List.length_take]
    congr 2
    omega
  rw [htake, value_append_zeros, fractionValue]
  rfl

theorem fractionValue_lt {ds : List Char} (h : ∀ c ∈ ds, isDigit c = true) :
    fractionValue ds < nanosPerSecond := by
  have hdigits : ∀ c ∈ (ds ++ List.replicate 9 '0').take 9, isDigit c = true := by
    intro c hc
    rcases List.mem_append.mp (List.mem_of_mem_take hc) with hmem | hmem
    · exact h c hmem
    · exact isDigit_of_mem_zeros hmem
  have hlength : ((ds ++ List.replicate 9 '0').take 9).length = 9 := by simp
  have hlt := value_lt hdigits
  rw [hlength] at hlt
  rw [fractionValue_eq]
  exact hlt

theorem fraction?_digits {ds : List Char} (hne : ds ≠ []) (h : ∀ c ∈ ds, isDigit c = true) :
    fraction? ('.' :: ds) = some (fractionValue ds, []) := by
  have htake : (ds ++ []).takeWhile isDigit = ds := takeWhile_isDigit_append h (by simp)
  have hdrop : (ds ++ []).dropWhile isDigit = [] := dropWhile_isDigit_append h (by simp)
  rw [List.append_nil] at htake hdrop
  simp [fraction?, htake, hdrop, hne]

theorem afterLast?_of_not_mem {m : Char} {cs : List Char} (h : m ∉ cs) : afterLast? m cs = none := by
  induction cs with
  | nil => rfl
  | cons c cs ih =>
    rw [List.mem_cons, not_or] at h
    simp [afterLast?, ih h.2, Ne.symm h.1]

theorem afterLast?_append (m : Char) (a : List Char) {b : List Char} (hb : m ∉ b) :
    afterLast? m (a ++ m :: b) = some b := by
  induction a with
  | nil => simp [afterLast?, afterLast?_of_not_mem hb]
  | cons c a ih => simp [afterLast?, ih]

theorem endsWithFraction_append (cs : List Char) {ds : List Char} (hne : ds ≠ [])
    (h : ∀ c ∈ ds, isDigit c = true) : endsWithFraction (cs ++ '.' :: ds) = true := by
  have hpoint : '.' ∉ ds := by
    intro hmem
    exact absurd (h '.' hmem) (by decide)
  simpa [endsWithFraction, afterLast?_append '.' cs hpoint, hne] using h

/-! ### The two forms -/

/-- Nothing is passed over between the parts of a date or a time. -/
theorem id_gap (c : Char) (cs : List Char) (_ : isBlank c = false) : id (c :: cs) = c :: cs := rfl

theorem plain?_chars (d : Date) {t : TimeOfDay} (h : t.writtenNanosecond = 0) :
    plain? (d.chars ++ ' ' :: t.chars) = some ⟨d, t.settled⟩ := by
  have htime := timeFields?_chars id_gap t []
  rw [List.append_nil] at htime
  have hblank : trimStart (' ' :: t.chars) = t.chars := by
    have hskip : trimStart (' ' :: t.chars) = trimStart t.chars := by simp +decide [trimStart]
    rw [hskip, TimeOfDay.chars, List.append_assoc, trimStart_padded]
  have hassemble := assemble?_written ⟨d, t⟩
  rw [h] at hassemble
  simp [plain?, dateFields?_chars id_gap d, hblank, htime, hassemble]

/-- Where a mark stands behind the date, no time is found in the plain form. -/
theorem plain?_mark (d : Date) (rest : List Char) : plain? (d.chars ++ 'T' :: rest) = none := by
  have hstay : trimStart ('T' :: rest) = 'T' :: rest := by simp +decide [trimStart]
  have hnumber : number? 2 ('T' :: rest) = none := by
    have hdigit : isDigit 'T' = false := by decide
    simp [number?, hstay, digits?, hdigit]
  simp [plain?, dateFields?_chars id_gap d, hstay, timeFields?, hnumber]

theorem marked?_chars (d : Date) {t : TimeOfDay} {ds : List Char} (hne : ds ≠ [])
    (hds : ∀ c ∈ ds, isDigit c = true) (h : t.writtenNanosecond = fractionValue ds) :
    marked? (d.chars ++ 'T' :: (t.chars ++ '.' :: ds)) = some ⟨d, t.settled⟩ := by
  have hassemble := assemble?_written ⟨d, t⟩
  rw [h] at hassemble
  simp [marked?, dateFields?_chars id_gap d, mark?,
    timeFields?_chars id_gap t, fraction?_digits hne hds, hassemble]

theorem readChars?_plain (d : Date) {t : TimeOfDay} (h : t.writtenNanosecond = 0) :
    readChars? (d.chars ++ ' ' :: t.chars) = some ⟨d, t.settled⟩ := by
  rw [readChars?, plain?_chars d h]

theorem readChars?_marked (d : Date) {t : TimeOfDay} {ds : List Char} (hne : ds ≠ [])
    (hds : ∀ c ∈ ds, isDigit c = true) (h : t.writtenNanosecond = fractionValue ds) :
    readChars? (d.chars ++ 'T' :: (t.chars ++ '.' :: ds)) = some ⟨d, t.settled⟩ := by
  have hends : endsWithFraction (d.chars ++ 'T' :: (t.chars ++ '.' :: ds)) = true := by
    have hsplit : d.chars ++ 'T' :: (t.chars ++ '.' :: ds)
        = (d.chars ++ 'T' :: t.chars) ++ '.' :: ds := by simp
    rw [hsplit, endsWithFraction_append _ hne hds]
  rw [readChars?, plain?_mark, hends, marked?_chars d hne hds h]
  rfl

/-! ### The placeholder -/

theorem fillPlaceholder_append (rest : List Char) (hrest : 'Y' ∉ rest) (today : Date) :
    fillPlaceholder (String.ofList (placeholder.toList ++ rest)) today
      = String.ofList (today.chars ++ rest) := by
  have hplace : placeholder.toList = 'Y' :: "YYY-MM-DD".toList := by decide
  rw [fillPlaceholder, String.toList_ofList, hplace, replaceAll, replaceFrom_append,
    replaceFrom_of_not_mem hrest]

theorem not_mem_clockChars {c : Char} (hc : isDigit c = false) (hcolon : c ≠ ':')
    (hour minute second : Nat) : c ∉ TimeOfDay.clockChars hour minute second := by
  have hpadded : ∀ n, c ∉ padded 2 n := by
    intro n hmem
    rw [isDigit_of_mem_padded hmem] at hc
    cases hc
  simp [TimeOfDay.clockChars, hpadded, hcolon]

end Time

open Time

/-! ### Dates and times of day together -/

/-- A date and a time of day that are written in one of the forms of commands are
    read as they were: plain, with a fraction of any length, and with the placeholder
    in the place of the day's date. -/
theorem DateTime.parse_written (d : Date) {hour minute second : Nat} (hhour : hour < 24)
    (hminute : minute < 60) (hsecond : second < 60) :
    (∃ isTime, DateTime.parse
        (String.ofList (d.chars ++ ' ' :: TimeOfDay.clockChars hour minute second))
      = .ok ⟨d, hour, minute, second, 0, isTime⟩) ∧
    (∀ ds : List Char, ds ≠ [] → (∀ c ∈ ds, isDigit c = true) →
      ∃ isTime, DateTime.parse
          (String.ofList (d.chars ++ 'T' :: (TimeOfDay.clockChars hour minute second ++ '.' :: ds)))
        = .ok ⟨d, hour, minute, second, value ((ds ++ List.replicate 9 '0').take 9), isTime⟩) ∧
    (∃ isTime, DateTime.normalize
        (String.ofList (placeholder.toList ++ ' ' :: TimeOfDay.clockChars hour minute second)) d
      = .ok ⟨d, hour, minute, second, 0, isTime⟩) := by
  have hzero : 0 < nanosPerSecond := by decide
  have hwhole := TimeOfDay.exists_of_clock hhour hminute hsecond hzero
  have hplain : DateTime.parse
        (String.ofList (d.chars ++ ' ' :: TimeOfDay.clockChars hour minute second))
      = .ok ⟨d, hour, minute, second, 0, hwhole⟩ := by
    have hread := readChars?_plain d (t := ⟨hour, minute, second, 0, hwhole⟩)
      (TimeOfDay.writtenNanosecond_of_ordinary hzero)
    rw [TimeOfDay.chars_of_ordinary hzero, TimeOfDay.settled_of_ordinary hzero] at hread
    rw [DateTime.parse, Time.read?, String.toList_ofList, hread]
  refine ⟨⟨hwhole, hplain⟩, ?_, ⟨hwhole, ?_⟩⟩
  · intro ds hne hds
    have hnano := fractionValue_lt hds
    have htime := TimeOfDay.exists_of_clock hhour hminute hsecond hnano
    have hread := readChars?_marked d (t := ⟨hour, minute, second, fractionValue ds, htime⟩) hne hds
      (TimeOfDay.writtenNanosecond_of_ordinary hnano)
    rw [TimeOfDay.chars_of_ordinary hnano, TimeOfDay.settled_of_ordinary hnano] at hread
    rw [← fractionValue_eq]
    exact ⟨htime, by rw [DateTime.parse, Time.read?, String.toList_ofList, hread]⟩
  · have hletter : 'Y' ∉ ' ' :: TimeOfDay.clockChars hour minute second := by
      have hclock := not_mem_clockChars (c := 'Y') (by decide) (by decide) hour minute second
      simpa using hclock
    rw [DateTime.normalize, fillPlaceholder_append _ hletter, hplain]

/-- The first day of the calendar, in the last second of the day, with more digits of
    fraction than count. -/
theorem DateTime.parse_written_first_day :
    (23 < 24 ∧ 59 < 60) ∧ "0123456789".toList ≠ [] ∧
      (∀ c ∈ "0123456789".toList, isDigit c = true) ∧
      (∃ isTime, DateTime.parse "-262143-01-01 23:59:59"
        = .ok ⟨⟨-262143, 1, 1, by decide⟩, 23, 59, 59, 0, isTime⟩) ∧
      (∃ isTime, DateTime.parse "-262143-01-01T23:59:59.0123456789"
        = .ok ⟨⟨-262143, 1, 1, by decide⟩, 23, 59, 59, 12345678, isTime⟩) ∧
      ∃ isTime, DateTime.normalize "YYYY-MM-DD 23:59:59" ⟨-262143, 1, 1, by decide⟩
        = .ok ⟨⟨-262143, 1, 1, by decide⟩, 23, 59, 59, 0, isTime⟩ := by
  have hall : ∀ c ∈ "0123456789".toList, isDigit c = true := List.all_eq_true.mp (by decide)
  obtain ⟨hplain, hmarked, hfilled⟩ := DateTime.parse_written ⟨-262143, 1, 1, by decide⟩
    (show 23 < 24 by decide) (show 59 < 60 by decide) (show 59 < 60 by decide)
  have hpoint := hmarked "0123456789".toList (by decide) hall
  refine ⟨by decide, by decide, hall, ?_, ?_, ?_⟩
  · have htext : "-262143-01-01 23:59:59" = String.ofList
        ((⟨-262143, 1, 1, by decide⟩ : Date).chars ++ ' ' :: TimeOfDay.clockChars 23 59 59) := by
      decide +kernel
    rw [htext]
    exact hplain
  · have htext : "-262143-01-01T23:59:59.0123456789" = String.ofList
        ((⟨-262143, 1, 1, by decide⟩ : Date).chars ++
          'T' :: (TimeOfDay.clockChars 23 59 59 ++ '.' :: "0123456789".toList)) := by
      decide +kernel
    rw [htext]
    exact hpoint
  · have htext : "YYYY-MM-DD 23:59:59" = String.ofList
        (placeholder.toList ++ ' ' :: TimeOfDay.clockChars 23 59 59) := by decide +kernel
    rw [htext]
    exact hfilled

end Datebook
