/-
  Datebook/Session/Basic.lean
  ===========================
  **One user's conversation with the assistant.**

  A turn asks the model for the intent first.  Then either the calendar is shown,
  or the model is asked for a command; a reply that is one whole command, markup
  aside, is resolved and carried out, and the reply in the transcript gives way to
  the text of the command that was carried out.  Any other reply is an answer in
  words, and nothing happens.

  A turn that fails keeps what it had recorded before, and the session goes on.

  Turns are written against `Services` in any monad.  A turn's state is a value:
  `Session.send` takes the session before the turn and gives the one after it.
-/
import Datebook.Command.Markup
import Datebook.Command.Reader
import Datebook.Execution
import Datebook.Resolution
import Datebook.Transcript.Basic

namespace Datebook

/-- What a session needs from outside. -/
structure Services (m : Type → Type) where
  model : LanguageModel m
  calendar : CalendarService m
  /-- A fresh id and the time. -/
  stamp : m Stamp
  /-- The day that the placeholder for an unknown date means. -/
  today : m Date

structure Session where
  transcript : Transcript
  /-- The listing that was shown last. -/
  lastListing : Listing
  /-- The texts of the commands that were carried out, oldest first. -/
  executed : List String
  deriving DecidableEq, Repr

namespace Session

def empty : Session := ⟨.empty, [], []⟩

/-- Forget everything. -/
def clear (_ : Session) : Session := empty

/-- What a turn answers, and the session after it. -/
abbrev Turn := Except Failure String × Session

variable {m : Type → Type} [Monad m] (services : Services m)

/-- The session with something said just now; the id of the new entry is with it. -/
def record (s : Session) (intent : IntentCode) (speaker : Speaker) (message : String) :
    m (Uuid × Session) := do
  let stamp ← services.stamp
  return (stamp.id, { s with transcript := s.transcript.append stamp intent speaker message })

/-- Show the calendar. -/
def showCalendar (s : Session) (intent : IntentCode) : m Turn := do
  match ← services.calendar.list with
  | .error failure => return (.error failure, s)
  | .ok l =>
    let reply := showListing l
    let (_, s) ← { s with lastListing := l }.record services intent .assistant reply
    return (.ok reply, s)

/-- The command a reply consists of, if it is one. -/
def commandOf? (reply : String) : Option Command :=
  if Command.mentionsVerb reply then (Command.read (Command.stripMarkup reply)).toOption
  else none

/-- Note that a command was carried out: its text is logged, and stands in the
    transcript instead of the reply with this id. -/
def noteExecuted (s : Session) (replyId : Uuid) (reply : String) (command : Command)
    (outcome : Outcome) : Session :=
  let text := command.render
  { transcript := if text = reply then s.transcript else s.transcript.replaceLast replyId text
    executed := s.executed ++ [text]
    lastListing :=
      match outcome with
      | .listed l => l
      | _ => s.lastListing }

/-- Resolve a command and carry it out. -/
def perform (s : Session) (replyId : Uuid) (reply : String) (command : Command) : m Turn := do
  match ← Resolution.ofCommand services.calendar command with
  | .error failure => return (.error failure, s)
  | .ok resolution =>
    let today ← services.today
    match ← Execution.run services.calendar today resolution.command with
    | .error failure => return (.error failure, s)
    | .ok outcome =>
      return (.ok resolution.command.render,
        s.noteExecuted replyId reply resolution.command outcome)

/-- Ask for a command, and carry it out if one comes back. -/
def askForCommand (s : Session) (intent : IntentCode) (prior : List ChatMessage)
    (question : String) : m Turn := do
  match ← generateReply services.model prior question with
  | .error failure => return (.error failure, s)
  | .ok reply =>
    let (replyId, s) ← s.record services intent .assistant reply
    match commandOf? reply with
    | none => return (.ok reply, s)
    | some command => s.perform services replyId reply command

/-- Handle what the user says; failures as they come. -/
def handle (s : Session) (question : String) : m Turn := do
  let prior := s.transcript.messages
  match ← classify services.model prior question with
  | .error failure =>
    let (_, s) ← s.record services unclassified .user question
    return (.error failure, s)
  | .ok intent =>
    let (_, s) ← s.record services intent .user question
    if (Strategy.ofCode intent).asksForCommand then s.askForCommand services intent prior question
    else s.showCalendar services intent

/-- Handle what the user says. -/
def send (s : Session) (question : String) : m Turn := do
  let (answer, s) ← s.handle services question
  return (answer.mapError Failure.ofTurn, s)

end Session

end Datebook
