/-
  Datebook/Dialogue.lean
  ======================
  **Who speaks, and what a language model is asked.**

  A conversation is had by the user and the assistant; `system` is the voice that
  instructs the model.  A model is given instructions, the conversation so far and
  what the user says now, and replies with a text or fails.

  The three fixed instructions are here word for word, since a model's behaviour
  hangs on every word of them.
-/
import Datebook.Failure

namespace Datebook

inductive Speaker where
  | user
  | assistant
  | system
  deriving DecidableEq, Repr

namespace Speaker

def all : List Speaker := [.user, .assistant, .system]

/-- The name of the role a speaker has towards a model. -/
def role : Speaker → String
  | .user => "user"
  | .assistant => "assistant"
  | .system => "system"

def ofRole? (s : String) : Option Speaker := all.find? fun p => p.role == s

theorem ofRole?_role (p : Speaker) : ofRole? p.role = some p := by
  cases p <;> decide

end Speaker

/-- Something that was said. -/
structure ChatMessage where
  role : Speaker
  content : String
  deriving DecidableEq, Repr

/-- A language model, in any monad: instructions, what was said so far, and what
    the user says now. -/
structure LanguageModel (m : Type → Type) where
  complete : String → List ChatMessage → String → m (Except Failure String)

/-- What a model is asked for. -/
inductive Purpose where
  /-- The number of the user's intent. -/
  | intent
  /-- One command. -/
  | command
  /-- The reference in a command. -/
  | reference
  deriving DecidableEq, Repr

/-- The instructions for each purpose. -/
def Purpose.instructions : Purpose → String
  | .intent =>
    "You detect what a user wants to do with their Outlook calendar.\n" ++
    "Decide from the LAST user message only and reply with a single intent number.\n" ++
    "\n" ++
    "INTENTS:\n" ++
    "1 - add a schedule\n" ++
    "2 - modify a schedule\n" ++
    "3 - remove a schedule\n" ++
    "4 - list, show or display schedules\n" ++
    "5 - anything else, or you cannot tell\n" ++
    "\n" ++
    "OUTPUT FORMAT:\n" ++
    "The number only, no words, no punctuation. Valid replies: 1, 2, 3, 4, 5.\n" ++
    "\n" ++
    "Examples:\n" ++
    "\"book a design review tomorrow at 3pm\" -> 1\n" ++
    "\"move No.2 to 4pm\" -> 2\n" ++
    "\"cancel the H2 goals meeting\" -> 3\n" ++
    "\"what's on my calendar?\" -> 4\n" ++
    "\"what can you do?\" -> 5\n"
  | .command =>
    "You are an Outlook calendar agent. Turn the user's request into exactly one command.\n" ++
    "\n" ++
    "COMMANDS:\n" ++
    "add_outlook_schedule(\"description\", \"start_time\", \"end_time\")\n" ++
    "modify_outlook_schedule(\"schedule_id\", \"description\", \"start_time\", \"end_time\")\n" ++
    "remove_outlook_schedule(\"schedule_id\")\n" ++
    "list_outlook_schedule()\n" ++
    "\n" ++
    "RULES:\n" ++
    "- Every argument is a double-quoted string.\n" ++
    "- Times use the format \"YYYY-MM-DD HH:MM:SS\", for example \"2023-11-16 09:00:00\".\n" ++
    "- If you do not know the date, write the literal YYYY-MM-DD in place of it, for example \"YYYY-MM-DD 09:00:00\".\n" ++
    "- Schedules are shown to the user as \"No.N subject start-end\". To refer to one, pass \"No.N\" followed by its subject as the schedule_id, for example \"No.4 H2 Goals\".\n" ++
    "- Reply with the command only. No explanation, no code block.\n" ++
    "- If you cannot build a command, ask the user for the missing details in plain text.\n" ++
    "\n" ++
    "Examples:\n" ++
    "add_outlook_schedule(\"Project Meeting\", \"2023-11-16 09:00:00\", \"2023-11-16 10:00:00\")\n" ++
    "add_outlook_schedule(\"Project Meeting\", \"YYYY-MM-DD 09:00:00\", \"YYYY-MM-DD 10:00:00\")\n" ++
    "modify_outlook_schedule(\"No.4 H2 Goals\", \"H2 Goals review\", \"YYYY-MM-DD 14:00:00\", \"YYYY-MM-DD 15:00:00\")\n" ++
    "remove_outlook_schedule(\"No.2 Lunch\")\n" ++
    "list_outlook_schedule()\n"
  | .reference =>
    "You extract the schedule id from a calendar command call.\n" ++
    "\n" ++
    "The commands that carry a schedule id are:\n" ++
    "modify_outlook_schedule(\"schedule_id\", \"description\", \"start_time\", \"end_time\")\n" ++
    "remove_outlook_schedule(\"schedule_id\")\n" ++
    "\n" ++
    "Reply with the schedule id only, without quotes.\n" ++
    "\n" ++
    "Examples:\n" ++
    "modify_outlook_schedule(\"5678\", \"Updated Project Meeting\", \"2023-11-16 09:00:00\", \"2023-11-16 10:00:00\") -> 5678\n" ++
    "remove_outlook_schedule(\"5678\") -> 5678\n"

end Datebook
