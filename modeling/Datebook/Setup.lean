/-
  Datebook/Setup.lean
  ===================
  **From settings to the assistant's two partners**: the model behind an endpoint,
  and a calendar.

  What is missing for the model is reported before what is missing for the
  calendar.  Nothing is contacted here; the same setup works over any transport
  and beside any calendar in memory.
-/
import Datebook.Calendar.Graph
import Datebook.Completion

namespace Datebook

/-- The calendar that was chosen. -/
inductive CalendarChoice where
  /-- The calendar of the running program. -/
  | memory
  | graph (calendar : GraphCalendar)
  deriving DecidableEq, Repr

structure Setup where
  endpoint : Endpoint
  calendar : CalendarChoice
  deriving DecidableEq, Repr

namespace Setup

/-- The calendar that settings choose. -/
def calendarOfSettings (s : CalendarSettings) : Except Failure CalendarChoice :=
  match s.kind with
  | .memory => .ok .memory
  | .graph => (GraphCalendar.ofSettings s).map .graph

def ofSettings (s : Settings) : Except Failure Setup := do
  let endpoint ← Endpoint.ofSettings s.model
  let calendar ← calendarOfSettings s.calendar
  return { endpoint, calendar }

variable {m : Type → Type} [Monad m]

/-- The calendar to work with. -/
def calendarService (s : Setup) (net : Http.Transport m) (inMemory : CalendarService m) :
    CalendarService m :=
  match s.calendar with
  | .memory => inMemory
  | .graph calendar => calendar.service net

end Setup

end Datebook
