/-
  Datebook/Console/Basic.lean
  ===========================
  **The conversation on the console**, line by line.

  `react` is all that a line does: only a message calls on the model and the
  calendar, only a message and `/clear` change the session, and only `/save`
  writes a file.  `converse` does this for a list of lines, up to the first that
  asks to quit; a turn that fails is shown and does not end it.
-/
import Datebook.Console.Line
import Datebook.Console.Screen
import Datebook.Transcript.Json

namespace Datebook.Console

/-- What the console needs from outside. -/
structure Desk (m : Type → Type) where
  services : Services m
  /-- Write a text to a file. -/
  save : String → String → m (Except FileFault Unit)

variable {m : Type → Type} [Monad m] (desk : Desk m)

/-- What a line shows, and the session after it.  A request to quit shows nothing. -/
def react (s : Session) : Line → m (String × Session)
  | .blank | .quit => return ("", s)
  | .clear => return (clearedText, s.clear)
  | .history => return (historyText s.transcript, s)
  | .journal => return (journalText s.executed, s)
  | .save none => return (saveUsage, s)
  | .save (some path) => return (savedText path (← desk.save path s.transcript.jsonText), s)
  | .message text => do
    let (answer, s) ← s.send desk.services text
    return (answerText answer, s)

/-- Everything that is shown from the first prompt on, and the session at the end. -/
def converse (s : Session) : List String → m (String × Session)
  | [] => return (prompt, s)
  | input :: inputs =>
    match Line.read input with
    | .quit => return (prompt, s)
    | line => do
      let (shown, s) ← react desk s line
      let (rest, s) ← converse s inputs
      return (prompt ++ shown ++ rest, s)

end Datebook.Console
