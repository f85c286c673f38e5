/-
  Datebook/Proofs/Calendar/Reference.lean
  =======================================
  **What a reference means to the calendar in memory.**

  While the calendar is available, `No.` with a number behind it means the event
  at that place, whatever stands behind the number, as long as it is no further
  digit (`resolve_reference`).
-/
import Datebook.Calendar.Memory
import Datebook.Proofs.Calendar.Effect
import Datebook.Proofs.Resolution

namespace Datebook

open Datebook.Text

/-- A reference as people and the model write it. -/
def ordinalReference (n : Nat) (suffix : String) : String := "No." ++ natText n ++ suffix

theorem targetOrdinal?_ordinalReference (n : Nat) {suffix : String}
    (h : ∀ c ∈ suffix.toList.head?, isDigit c = false) :
    targetOrdinal? (ordinalReference n suffix) = some (natText n) := by
  have hlead : ∀ c ∈ ['N', 'o', '.'], isDigit c = false := by simp [isDigit]
  have hchars : (ordinalReference n suffix).toList =
      ['N', 'o', '.'] ++ (numeral n ++ suffix.toList) := by
    simp [ordinalReference, natText]
  rw [targetOrdinal?, hchars, firstDigits?_append_of_not_isDigit hlead, firstDigits?_numeral n h]
  rfl

namespace MemoryCalendar

/-- What a command is resolved to against the calendar. -/
def resolve (m : MemoryCalendar) (c : Command) : Except Failure Resolution :=
  match c.scheduleId?.bind targetOrdinal? with
  | none => .ok ⟨c, none⟩
  | some no => (m.store.list.mapError .calendar).map fun l => Resolution.against l c no

variable {m : MemoryCalendar} {c d : Command} {n : Nat} {reference suffix : String} {e : Event}

/-- The ordinal of a reference means the event at that place. -/
theorem resolve_of_targetOrdinal? (havailable : m.store.available = true)
    (he : m.events[n]? = some e) (hordinal : targetOrdinal? reference = some (natText n))
    (hc : c.scheduleId? = some reference) (hd : c.withScheduleId? e.id = some d) :
    m.resolve c = .ok ⟨d, some e.id⟩ := by
  have hlist : m.store.list = .ok (listing m.events) := Store.list_eq_ok_iff.mpr ⟨havailable, rfl⟩
  have hlookup : lookupOrdinal? (listing m.events) (natText n) = some e.id := by
    rw [lookupOrdinal?_listing, he, Option.map_some]
  have hagainst : Resolution.against (listing m.events) c (natText n) = ⟨d, some e.id⟩ := by
    simp only [Resolution.against, hlookup, hd]
  rw [resolve, hc, Option.bind_some, hordinal, hlist, ← hagainst]
  rfl

theorem resolve_reference (havailable : m.store.available = true) (he : m.events[n]? = some e)
    (hsuffix : ∀ c ∈ suffix.toList.head?, isDigit c = false)
    (hc : c.scheduleId? = some (ordinalReference n suffix))
    (hd : c.withScheduleId? e.id = some d) : m.resolve c = .ok ⟨d, some e.id⟩ :=
  resolve_of_targetOrdinal? havailable he (targetOrdinal?_ordinalReference n hsuffix) hc hd

end MemoryCalendar

end Datebook
