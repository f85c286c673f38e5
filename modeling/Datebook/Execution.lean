/-
  Datebook/Execution.lean
  =======================
  **Carrying out a command** against a calendar.

  Both times of a command are read before the calendar hears of it, the start
  first; a time that cannot be read leaves the calendar alone.  The placeholder
  for an unknown date means the day given as `today`.
-/
import Datebook.Calendar.Service
import Datebook.Command.Basic
import Datebook.Time.Written

namespace Datebook

/-- Read a date-time as commands write it. -/
def DateTime.parse (text : String) : Except Failure DateTime :=
  match Time.read? text with
  | some t => .ok t
  | none => .error (.dateTime text)

/-- Put the day in the place of the placeholder, then read. -/
def DateTime.normalize (text : String) (today : Date) : Except Failure DateTime :=
  DateTime.parse (Time.fillPlaceholder text today)

/-- What a command has done. -/
inductive Outcome where
  | added (id : String)
  | updated (id : String)
  | removed (id : String)
  | listed (l : Listing)
  deriving DecidableEq, Repr

namespace Execution

/-- The details a command gives to an event. -/
def details (description startTime endTime : String) (today : Date) :
    Except Failure EventDetails := do
  let start ← DateTime.normalize startTime today
  let finish ← DateTime.normalize endTime today
  return { description, start, finish }

variable {m : Type → Type} [Monad m] (calendar : CalendarService m)

/-- Carry out a command. -/
def run (today : Date) : Command → m (Except Failure Outcome)
  | .add description startTime endTime => do
    match details description startTime endTime today with
    | .error failure => return .error failure
    | .ok d => return (← calendar.add d).map .added
  | .modify id description startTime endTime => do
    match details description startTime endTime today with
    | .error failure => return .error failure
    | .ok d => return (← calendar.update id d).map fun _ => .updated id
  | .remove id => return (← calendar.delete id).map fun _ => .removed id
  | .list => return (← calendar.list).map .listed

end Execution

end Datebook
