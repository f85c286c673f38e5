/-
  Datebook/Console/Screen.lean
  ============================
  **What the console shows**, text by text.

  Every text here ends with a line feed, the prompt apart: the user's line stands
  behind it.  Messages are shown without the white space at their ends; the blanks
  inside them stay, so a message of several lines takes several lines.
-/
import Datebook.Session.Basic

namespace Datebook.Console

/-- What is shown first. -/
def banner : String :=
  "\n=== MINI COPILOT ===\n" ++
  "Ask about your calendar in plain language.\n" ++
  "\n" ++
  "Commands:\n" ++
  "  /clear          - Start a new conversation\n" ++
  "  /history        - Show the conversation so far\n" ++
  "  /odsl           - Show executed commands\n" ++
  "  /save <path>    - Write the conversation to a JSON file\n" ++
  "  quit / q        - Exit\n" ++
  "\n"

def prompt : String := "> "

/-- The answer to a message: a reply between empty lines, or what went wrong, with
    a request to rephrase where that may help. -/
def answerText : Except Failure String → String
  | .ok reply => "\n" ++ trimTextEnd reply ++ "\n\n"
  | .error failure =>
    if failure.isCorrectable then
      "I couldn't act on that (" ++ failure.message ++ "). Please rephrase.\n"
    else "Error: " ++ failure.message ++ "\n"

def clearedText : String := "Conversation cleared.\n"

/-- A text with blanks behind it, up to a width. -/
def padEnd (width : Nat) (s : String) : String :=
  s ++ String.ofList (List.replicate (width - s.length) ' ')

/-- A text with blanks in front of it, up to a width. -/
def padStart (width : Nat) (s : String) : String :=
  String.ofList (List.replicate (width - s.length) ' ') ++ s

/-- One thing that was said, with the time of day, the speaker and the intent. -/
def entryText (e : Entry) : String :=
  "[" ++ e.time.utc.time.text ++ "] " ++ padEnd 9 e.speaker.role ++ " intent=" ++
    intText e.intent ++ " " ++ trimTextEnd e.message ++ "\n"

def historyText (t : Transcript) : String :=
  if t.entries.isEmpty then "(no messages)\n" else String.join (t.entries.map entryText)

/-- The commands that were carried out, numbered from `n` on. -/
def journalFrom (n : Nat) : List String → String
  | [] => ""
  | command :: rest =>
    padStart 3 (natText n) ++ ". " ++ command ++ "\n" ++ journalFrom (n + 1) rest

def journalText (executed : List String) : String :=
  if executed.isEmpty then "(no commands executed)\n" else journalFrom 1 executed

def saveUsage : String := "Usage: /save <path>\n"

def savedText (path : String) : Except FileFault Unit → String
  | .ok () => "Saved conversation to " ++ path ++ "\n"
  | .error fault => "Could not save conversation: " ++ (Failure.file fault).message ++ "\n"

end Datebook.Console
