/-
  Datebook/Calendar/Memory.lean
  =============================
  **The calendar in memory as a service**: a store together with the ids that its
  next events get.

  Only an event that was added uses an id up.  `CalendarService.lift` carries a
  calendar from the monad it works in to a larger one, so that the same calendar
  serves a rehearsal, where it is a part of the stage, and a running program.
-/
import Datebook.Calendar.Store
import Datebook.Supply

namespace Datebook

/-- A calendar that works in `m`, as one that works in `n`. -/
def CalendarService.lift {m n : Type → Type} (run : {α : Type} → m α → n α)
    (c : CalendarService m) : CalendarService n where
  list := run c.list
  add := fun d => run (c.add d)
  update := fun id d => run (c.update id d)
  delete := fun id => run (c.delete id)

structure MemoryCalendar where
  store : Store
  /-- The ids of the events to come. -/
  ids : Supply String

namespace MemoryCalendar

def list : StateM MemoryCalendar (Except Failure Listing) := fun c =>
  (c.store.list.mapError .calendar, c)

/-- Put an event under the next id. -/
def add (d : EventDetails) : StateM MemoryCalendar (Except Failure String) := fun c =>
  let (id, ids) := c.ids.take
  match c.store.add id d with
  | .ok store => (.ok id, { store, ids })
  | .error fault => (.error (.calendar fault), c)

/-- Do something to the store; a failure leaves it as it was. -/
def change (act : Store → Except CalendarFault Store) :
    StateM MemoryCalendar (Except Failure Unit) := fun c =>
  match act c.store with
  | .ok store => (.ok (), { c with store })
  | .error fault => (.error (.calendar fault), c)

def service : CalendarService (StateM MemoryCalendar) where
  list := list
  add := add
  update := fun id d => change (·.update id d)
  delete := fun id => change (·.delete id)

end MemoryCalendar

end Datebook
