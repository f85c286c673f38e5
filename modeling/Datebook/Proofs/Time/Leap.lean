/-
  Datebook/Proofs/Time/Leap.lean
  ==============================
  **What is written of a leap second.**

  A time that lasts beyond its second is written with the number of the second behind
  it.  At the end of a minute that is 60, a number no other time has.  Anywhere else
  it is the number of an ordinary second, and the text does not tell the two apart:
  it is the text of the ordinary one (`text_settled`), and that is the one that is
  read.  `settled` is what a time becomes in this way, and it changes exactly the leap
  seconds that do not end a minute (`settled_eq_self_iff`).
-/
import Datebook.Time.Instant

namespace Datebook

namespace TimeOfDay

/-- No leap second, or one that ends a minute. -/
def Regular (t : TimeOfDay) : Prop := nanosPerSecond ≤ t.nanosecond → t.second = 59

instance (t : TimeOfDay) : Decidable t.Regular := inferInstanceAs (Decidable (_ → _))

variable {t : TimeOfDay}

theorem not_regular_iff : ¬ t.Regular ↔ nanosPerSecond ≤ t.nanosecond ∧ t.second ≠ 59 := by
  rw [Regular, Classical.not_imp]

theorem regular_of_ordinary (h : t.nanosecond < nanosPerSecond) : t.Regular :=
  fun hlong => absurd h (Nat.not_lt.mpr hlong)

theorem exists_behind (h : ¬ t.Regular) :
    Exists t.hour t.minute (t.second + 1) (t.nanosecond - nanosPerSecond) := by
  obtain ⟨hhour, hminute, hsecond, hnano⟩ := t.isTime
  obtain ⟨_, hmiddle⟩ := not_regular_iff.mp h
  exact ⟨hhour, hminute, by omega, by omega⟩

/-- The second behind a leap second that does not end a minute; of any other time, the
    time itself. -/
def settled (t : TimeOfDay) : TimeOfDay :=
  if h : t.Regular then t
  else ⟨t.hour, t.minute, t.second + 1, t.nanosecond - nanosPerSecond, exists_behind h⟩

theorem settled_of_regular (h : t.Regular) : t.settled = t := dif_pos h

theorem settled_of_not_regular (h : ¬ t.Regular) :
    t.settled = ⟨t.hour, t.minute, t.second + 1, t.nanosecond - nanosPerSecond, exists_behind h⟩ :=
  dif_neg h

theorem settled_eq_self_iff : t.settled = t ↔ t.Regular := by
  constructor
  · intro h
    by_cases hregular : t.Regular
    · exact hregular
    · rw [settled_of_not_regular hregular] at h
      have hsecond : t.second + 1 = t.second := congrArg TimeOfDay.second h
      omega
  · exact settled_of_regular

/-- What a leap second lasts beyond its second is less than another one. -/
theorem not_long_behind (t : TimeOfDay) :
    ¬ nanosPerSecond ≤ t.nanosecond - nanosPerSecond := by
  have hnano := t.isTime.2.2.2
  have hsecond : 0 < nanosPerSecond := by decide
  omega

theorem writtenSecond_settled (t : TimeOfDay) : t.settled.writtenSecond = t.writtenSecond := by
  by_cases h : t.Regular
  · rw [settled_of_regular h]
  · have hlong := (not_regular_iff.mp h).1
    simp only [settled_of_not_regular h, writtenSecond, if_pos hlong, if_neg (not_long_behind t)]

theorem writtenNanosecond_settled (t : TimeOfDay) :
    t.settled.writtenNanosecond = t.writtenNanosecond := by
  by_cases h : t.Regular
  · rw [settled_of_regular h]
  · have hlong := (not_regular_iff.mp h).1
    simp only [settled_of_not_regular h, writtenNanosecond, if_pos hlong,
      if_neg (not_long_behind t)]

theorem chars_settled (t : TimeOfDay) : t.settled.chars = t.chars := by
  have hclock : t.settled.hour = t.hour ∧ t.settled.minute = t.minute := by
    by_cases h : t.Regular
    · rw [settled_of_regular h]
      exact ⟨rfl, rfl⟩
    · rw [settled_of_not_regular h]
      exact ⟨rfl, rfl⟩
  rw [chars, chars, writtenSecond_settled, hclock.1, hclock.2]

end TimeOfDay

namespace Instant

variable {t : Instant}

def Regular (t : Instant) : Prop := t.utc.time.Regular

instance (t : Instant) : Decidable t.Regular := inferInstanceAs (Decidable t.utc.time.Regular)

def settled (t : Instant) : Instant := ⟨{ t.utc with time := t.utc.time.settled }⟩

theorem settled_eq_self_iff : t.settled = t ↔ t.Regular := by
  rw [Regular, ← TimeOfDay.settled_eq_self_iff]
  constructor
  · exact congrArg fun i : Instant => i.utc.time
  · intro h
    rw [settled, h]

/-- The text of an instant is that of the one that is read. -/
theorem text_settled (t : Instant) : t.settled.text = t.text := by
  simp only [text, chars, DateTime.chars, settled, TimeOfDay.chars_settled,
    TimeOfDay.writtenNanosecond_settled]

/-- Of two regular instants the later one is regular. -/
theorem Regular.latest {a b : Instant} (ha : a.Regular) (hb : b.Regular) :
    (latest a b).Regular := by
  rw [Instant.latest]
  split
  · exact hb
  · exact ha

end Instant

end Datebook
