/-
  Datebook/Calendar/Service.lean
  ==============================
  **The four things a calendar does**, in any monad.

  Whoever uses a calendar — the resolver, the executor, a session — sees this
  interface and nothing behind it.  An operation runs once; nobody retries it.
-/
import Datebook.Calendar.Event
import Datebook.Failure

namespace Datebook

structure CalendarService (m : Type → Type) where
  /-- The current listing, freshly numbered. -/
  list : m (Except Failure Listing)
  /-- Create an event; its new id. -/
  add : EventDetails → m (Except Failure String)
  update : String → EventDetails → m (Except Failure Unit)
  delete : String → m (Except Failure Unit)

end Datebook
