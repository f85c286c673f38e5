/-
  Datebook/Console/Line.lean
  ==========================
  **What a line on the console asks for.**

  A line is read without the white space at its ends.  The fixed words are
  compared exactly, so `/CLEAR` and `quit now` are messages.  Saving is recognised
  by its lead alone: what follows the lead, blanks or none between them, names the
  file, and `/savefoo` saves to `foo`.
-/
import Datebook.Text.Blank
import Datebook.Text.Search

namespace Datebook.Console

/-- What the user asks for with one line. -/
inductive Line where
  | blank
  | quit
  | clear
  /-- Show the conversation. -/
  | history
  /-- Show the commands that were carried out. -/
  | journal
  /-- Save the conversation; without a path there is nothing to save to. -/
  | save (path : Option String)
  /-- Everything else is for the assistant. -/
  | message (text : String)
  deriving DecidableEq, Repr

namespace Line

/-- The path behind the lead of a request to save. -/
def savePath (rest : String) : Option String :=
  let path := trimText rest
  if path.isEmpty then none else some path

def ofTrimmed (text : String) : Line :=
  if text = "" then .blank
  else if text = "quit" ∨ text = "q" then .quit
  else if text = "/clear" then .clear
  else if text = "/history" then .history
  else if text = "/odsl" then .journal
  else match afterLead? "/save" text with
    | some rest => .save (savePath rest)
    | none => .message text

def read (input : String) : Line := ofTrimmed (trimText input)

end Line

/-- Cut a text into lines behind its line feeds, which go; a text that ends with
    one has no empty line behind it. -/
def linesOf : List Char → List (List Char)
  | [] => []
  | '\n' :: cs => [] :: linesOf cs
  | c :: cs =>
    match linesOf cs with
    | [] => [[c]]
    | line :: lines => (c :: line) :: lines

end Datebook.Console
