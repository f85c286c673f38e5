/-
  Datebook/Proofs/Execution.lean
  ==============================
  **Carrying out a command is one call on the calendar, or none.**

  Which call it is hangs on the command and the day alone, and so does the failure where
  there is none (`Execution.call`).  `run_eq` is all that is needed to go through what
  `Execution.run` can do: a call that fails to come about, or one of the four.
-/
import Datebook.Execution

namespace Datebook

/-- A call on a calendar. -/
inductive CalendarCall where
  | add (d : EventDetails)
  | update (id : String) (d : EventDetails)
  | delete (id : String)
  | list

variable {m : Type → Type} [Monad m]

/-- Make a call, for the sake of a command. -/
def CalendarCall.perform (calendar : CalendarService m) :
    CalendarCall → m (Except Failure Outcome)
  | .add d => return (← calendar.add d).map .added
  | .update id d => return (← calendar.update id d).map fun _ => .updated id
  | .delete id => return (← calendar.delete id).map fun _ => .removed id
  | .list => return (← calendar.list).map .listed

namespace Execution

/-- The call that a command makes, or why it makes none. -/
def call (today : Date) : Command → Except Failure CalendarCall
  | .add description startTime endTime => (details description startTime endTime today).map .add
  | .modify id description startTime endTime =>
    (details description startTime endTime today).map (.update id)
  | .remove id => .ok (.delete id)
  | .list => .ok .list

theorem run_eq (calendar : CalendarService m) (today : Date) (c : Command) :
    run calendar today c =
      match call today c with
      | .error failure => pure (.error failure)
      | .ok call => call.perform calendar := by
  -- by `delta`, since the equation lemmas would evaluate the reading of the times
  delta run
  cases c with
  | add description startTime endTime =>
    dsimp only [call]
    cases details description startTime endTime today <;> rfl
  | modify id description startTime endTime =>
    dsimp only [call]
    cases details description startTime endTime today <;> rfl
  | remove id => rfl
  | list => rfl

end Execution

end Datebook
