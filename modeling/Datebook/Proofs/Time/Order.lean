/-
  Datebook/Proofs/Time/Order.lean
  ===============================
  **The order of instants is that of their fields**, from the year down to the
  nanosecond.

  `DateTime.rank` packs the fields into one number, with more room for each field
  than it needs: 31 days for every month, and two thousand million nanoseconds for
  every second, since a leap second lasts that long.  So ranks compare like the
  lists of fields (`rank_lt_iff`), and the later of two instants is their maximum
  in the order of the fields (`latest_eq_max`).
-/
import Datebook.Proofs.Time.Scan
import Datebook.Time.Instant
import Mathlib.Data.Int.Order.Basic
import Mathlib.Data.List.Lex
import Mathlib.Order.Lattice

namespace Datebook

namespace DateTime

/-- The fields of a date-time, the greatest unit first. -/
def fields (t : DateTime) : List Int :=
  [t.date.year, t.date.month, t.date.day, t.time.hour, t.time.minute, t.time.second,
    t.time.nanosecond]

theorem fields_injective : Function.Injective fields := by
  rintro ⟨⟨_, _, _, _⟩, _, _, _, _, _⟩ ⟨⟨_, _, _, _⟩, _, _, _, _, _⟩ h
  simp only [fields, List.cons.injEq, Int.ofNat_inj, and_true] at h
  obtain ⟨rfl, rfl, rfl, rfl, rfl, rfl, rfl⟩ := h
  rfl

theorem rank_lt_of_fields {a b : DateTime} (h : a.fields < b.fields) : a.rank < b.rank := by
  -- the bounds of all fields but the year are what keeps one from spilling into the next
  obtain ⟨_, _, amonth, amonth', aday, aday'⟩ := a.date.isDay
  obtain ⟨_, _, bmonth, bmonth', bday, bday'⟩ := b.date.isDay
  obtain ⟨ahour, aminute, asecond, anano⟩ := a.time.isTime
  obtain ⟨bhour, bminute, bsecond, bnano⟩ := b.time.isTime
  have alast := Time.daysInMonth_le a.date.year a.date.month
  have blast := Time.daysInMonth_le b.date.year b.date.month
  simp only [fields, List.cons_lt_cons_iff, List.not_lt_nil, and_false, or_false] at h
  simp only [rank, nanosPerSecond] at *
  omega

theorem rank_lt_iff {a b : DateTime} : a.rank < b.rank ↔ a.fields < b.fields := by
  constructor
  · intro h
    rcases lt_trichotomy a.fields b.fields with hlt | heq | hgt
    · exact hlt
    · rw [fields_injective heq] at h
      exact absurd h (Int.lt_irrefl _)
    · have hback := rank_lt_of_fields hgt
      omega
  · exact rank_lt_of_fields

end DateTime

namespace Instant

theorem utc_fields_injective : Function.Injective fun t : Instant => t.utc.fields := by
  rintro ⟨a⟩ ⟨b⟩ h
  exact congrArg Instant.mk (DateTime.fields_injective h)

/-- Instants in the order of their fields. -/
instance : LinearOrder Instant := LinearOrder.lift' (fun t => t.utc.fields) utc_fields_injective

theorem rank_lt_rank_iff {a b : Instant} : a.rank < b.rank ↔ a < b := DateTime.rank_lt_iff

theorem latest_eq_max (a b : Instant) : latest a b = max a b := by
  rw [latest]
  split
  · rename_i h
    exact (max_eq_right (rank_lt_rank_iff.mp h).le).symm
  · rename_i h
    exact (max_eq_left (not_lt.mp fun hlt => h (rank_lt_rank_iff.mpr hlt))).symm

end Instant

end Datebook
