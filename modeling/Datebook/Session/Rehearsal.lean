/-
  Datebook/Session/Rehearsal.lean
  ===============================
  **A session without the world**: a calendar in memory and a model that follows
  a script.

  The model gives its prepared replies in order, one for each call, and fails when
  there are none left.  Every call is kept, with what the model was given.  Ids
  and times come from supplies.  Everything a rehearsed session touches is in one
  `Stage`, so runs can be compared as values.
-/
import Datebook.Calendar.Memory
import Datebook.Session.Basic

namespace Datebook

/-- What a model was given in one call. -/
structure ModelCall where
  instructions : String
  history : List ChatMessage
  user : String
  deriving DecidableEq, Repr

/-- Everything around a rehearsed session. -/
structure Stage where
  memory : MemoryCalendar
  stamps : Supply Stamp
  today : Date
  /-- The model's replies to come. -/
  replies : List (Except Failure String)
  /-- The calls the model has had, oldest first. -/
  calls : List ModelCall

namespace Stage

/-- What the model says when its script is over. -/
def scriptOver : Failure := .model (.described "script exhausted")

/-- The scripted model. -/
def complete (instructions : String) (history : List ChatMessage) (user : String) :
    StateM Stage (Except Failure String) := fun stage =>
  let calls := stage.calls ++ [⟨instructions, history, user⟩]
  match stage.replies with
  | [] => (.error scriptOver, { stage with calls })
  | reply :: replies => (reply, { stage with calls, replies })

def model : LanguageModel (StateM Stage) := ⟨complete⟩

/-- Do something with the calendar of the stage. -/
def onMemory {α : Type} (act : StateM MemoryCalendar α) : StateM Stage α := fun stage =>
  let (a, memory) := act stage.memory
  (a, { stage with memory })

def calendar : CalendarService (StateM Stage) := MemoryCalendar.service.lift onMemory

def takeStamp : StateM Stage Stamp := fun stage =>
  let (stamp, stamps) := stage.stamps.take
  (stamp, { stage with stamps })

/-- All that a rehearsed session needs. -/
def services : Services (StateM Stage) where
  model := model
  calendar := calendar
  stamp := takeStamp
  today := fun stage => (stage.today, stage)

end Stage

end Datebook
