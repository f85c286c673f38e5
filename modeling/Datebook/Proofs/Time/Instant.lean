/-
  Datebook/Proofs/Time/Instant.lean
  =================================
  **A written instant is read back to the nanosecond**, a leap second that does not
  end a minute as the second behind it.

  The fraction has the fewest digits that lose nothing, so the three widths are
  three ways to write a number of nanoseconds, and reading scales each one back
  (`fraction?_fractionChars`).  The offset is always that of universal time, which
  takes nothing off: in particular no day is carried over the ends of the calendar.

  Of the instants in general that are read, none is such a leap second
  (`regular_of_read?`): offsets are whole minutes, and so a written second 60 stays at
  the end of a minute.
-/
import Datebook.Proofs.Time.Scan
import Datebook.Time.Instant

namespace Datebook.Instant

open Datebook.Text Datebook.Time

/-! ### Fractions -/

theorem fractionValue_padded {k n : Nat} (hk : 0 < k) (hk9 : k ≤ 9) (h : n < 10 ^ k) :
    fractionValue (padded k n) = n * 10 ^ (9 - k) := by
  have hlength := length_padded hk h
  have htake : (padded k n).take 9 = padded k n := List.take_of_length_le (by omega)
  simp only [fractionValue, htake, hlength, value_padded]
  rfl

theorem fraction?_padded {k n : Nat} (hk : 0 < k) (hk9 : k ≤ 9) (h : n < 10 ^ k)
    {rest : List Char} (hrest : ∀ c ∈ rest.head?, isDigit c = false) :
    Time.fraction? ('.' :: (padded k n ++ rest)) = some (n * 10 ^ (9 - k), rest) := by
  have hdigits : ∀ c ∈ padded k n, isDigit c = true := fun c hc => isDigit_of_mem_padded hc
  simp [Time.fraction?, takeWhile_isDigit_append hdigits hrest,
    dropWhile_isDigit_append hdigits hrest, padded_ne_nil, fractionValue_padded hk hk9 h]

theorem fraction?_fractionChars {n : Nat} (h : n < nanosPerSecond) {rest : List Char}
    (hrest : ∀ c ∈ rest.head?, isDigit c = false) (hpoint : rest.head? ≠ some '.') :
    Time.fraction? (fractionChars n ++ rest) = some (n, rest) := by
  have hn : n < 1000000000 := h
  rw [fractionChars]
  split
  case isTrue hzero =>
    subst hzero
    cases rest with
    | nil => rfl
    | cons c rest =>
      have hc : c ≠ '.' := by simpa using hpoint
      simp [Time.fraction?, hc]
  case isFalse =>
    split
    case isTrue hmilli =>
      rw [List.cons_append, fraction?_padded (by decide) (by decide) (by omega) hrest]
      congr
      omega
    case isFalse =>
      split
      case isTrue hmicro =>
        rw [List.cons_append, fraction?_padded (by decide) (by decide) (by omega) hrest]
        congr
        omega
      case isFalse =>
        rw [List.cons_append, fraction?_padded (by decide) (by decide) (by omega) hrest]
        simp

/-! ### Whole instants -/

theorem atSecond_seconds (t : TimeOfDay) : t.atSecond t.seconds = t := by
  obtain ⟨hour, minute, second, nanosecond, htime⟩ := t
  have ⟨hhour, hminute, hsecond, _⟩ := htime
  have hday : ((((hour * 60 + minute) * 60 + second : Nat) : Int) % 86400).toNat
      = (hour * 60 + minute) * 60 + second := by omega
  have h₁ : ((hour * 60 + minute) * 60 + second) / 3600 = hour := by omega
  have h₂ : ((hour * 60 + minute) * 60 + second) / 60 % 60 = minute := by omega
  have h₃ : ((hour * 60 + minute) * 60 + second) % 60 = second := by omega
  simp only [TimeOfDay.atSecond, TimeOfDay.seconds, hday, h₁, h₂, h₃]

/-- A clock of universal time shows the instant itself. -/
theorem ofLocal?_zero (t : DateTime) : ofLocal? t 0 = some ⟨t⟩ := by
  have hday : t.time.seconds < 86400 := by
    obtain ⟨hhour, hminute, hsecond, _⟩ := t.time.isTime
    rw [TimeOfDay.seconds]
    omega
  have hstart : ¬ (t.time.seconds : Int) < 0 := by omega
  have hend : ¬ 86400 ≤ (t.time.seconds : Int) := by omega
  simp only [ofLocal?, Int.sub_zero, if_neg hstart, if_neg hend, atSecond_seconds, Option.map_some]

theorem read?_text (t : Instant) : read? t.text = some t.settled := by
  have hgap : ∀ c cs, isBlank c = false → trimStart (c :: cs) = c :: cs := by
    intro c cs h
    simp [trimStart, h]
  have htext : t.text.toList = t.utc.date.chars ++ 'T' :: (t.utc.time.chars ++
      (fractionChars t.utc.time.writtenNanosecond ++ ['Z'])) := by
    simp [text, chars, DateTime.chars]
  have hzulu : ∀ c ∈ ['Z'].head?, isDigit c = false := by
    intro c hc
    cases hc
    decide
  have hfraction := fraction?_fractionChars (writtenNanosecond_lt t.utc.time) hzulu (by decide)
  have hoffset : offset? (trimStart ['Z']) = some (0, []) := by decide
  have hend : trimStart [] = [] := rfl
  simp [read?, htext, readChars?, afterMark?, dateFields?_chars hgap, timeFields?_chars hgap,
    hfraction, hoffset, hend, assemble?_written, ofLocal?_zero, settled]

/-! ### What is read at all -/

theorem dvd_of_offsetSize? {cs rest : List Char} {n : Nat} (h : offsetSize? cs = some (n, rest)) :
    60 ∣ n := by
  unfold offsetSize? at h
  split at h
  case h_1 =>
    split at h
    case isTrue =>
      obtain ⟨⟨m, _⟩, _, hn⟩ := Option.map_eq_some_iff.mp h
      cases hn
      omega
    case isFalse => cases h
  case h_2 => cases h

theorem dvd_of_map_offsetSize? {cs rest : List Char} {n : Int}
    {f : Nat × List Char → Int × List Char} (hf : ∀ m rest, 60 ∣ m → 60 ∣ (f (m, rest)).1)
    (h : (offsetSize? cs).map f = some (n, rest)) : 60 ∣ n := by
  obtain ⟨⟨m, behind⟩, hm, hn⟩ := Option.map_eq_some_iff.mp h
  have hdvd := hf m behind (dvd_of_offsetSize? hm)
  rw [hn] at hdvd
  exact hdvd

/-- An offset is made of whole minutes. -/
theorem dvd_of_offset? {cs rest : List Char} {n : Int} (h : offset? cs = some (n, rest)) :
    60 ∣ n := by
  unfold offset? at h
  split at h
  case h_1 =>
    cases h
    exact Int.dvd_zero 60
  case h_2 =>
    split at h
    case h_1 =>
      split at h
      case isTrue =>
        cases h
        exact Int.dvd_zero 60
      case isFalse =>
        split at h
        case isTrue =>
          refine dvd_of_map_offsetSize? ?_ h
          intro m _ hm
          exact Int.natCast_dvd_natCast.mpr hm
        case isFalse =>
          split at h
          case isTrue =>
            refine dvd_of_map_offsetSize? ?_ h
            intro m _ hm
            exact Int.dvd_neg.mpr (Int.natCast_dvd_natCast.mpr hm)
          case isFalse => cases h
    case h_2 => cases h

/-- Taking off whole minutes leaves a second at its place in the minute. -/
theorem regular_of_ofLocal? {t : DateTime} {offset : Int} {i : Instant} (hminutes : 60 ∣ offset)
    (ht : t.time.Regular) (h : ofLocal? t offset = some i) : i.Regular := by
  obtain ⟨_, _, rfl⟩ := Option.map_eq_some_iff.mp h
  obtain ⟨k, rfl⟩ := hminutes
  have hsecond := t.time.isTime.2.2.1
  have hsame : ((t.time.seconds - 60 * k : Int) % 86400).toNat % 60 = t.time.second := by
    rw [TimeOfDay.seconds]
    omega
  intro hlong
  exact hsame.trans (ht hlong)

theorem regular_of_read? {s : String} {i : Instant} (h : read? s = some i) : i.Regular := by
  simp only [read?, readChars?, Option.bind_eq_bind, Option.bind_eq_some_iff] at h
  obtain ⟨_, _, _, _, _, _, _, _, ⟨offset, _⟩, hoffset, h⟩ := h
  split at h
  case isTrue =>
    obtain ⟨t, ht, h⟩ := Option.bind_eq_some_iff.mp h
    split at h
    case isTrue => exact regular_of_ofLocal? (dvd_of_offset? hoffset) (regular_of_assemble? ht) h
    case isFalse => cases h
  case isFalse => cases h

end Datebook.Instant
