/-
  Datebook/Command/Markup.lean
  ============================
  **The markup around a command in a model's reply.**

  A model is told to answer with the command alone, and still wraps it: white
  space, inline backticks, a fenced block with an info text.  `stripMarkup` takes
  all of that off and nothing else.  `mentionsVerb` is the cheap question asked
  first: does the reply name any command at all?

  The first line of a fenced block counts as an info text only if it holds no
  parenthesis: a call that starts right behind the fence is not thrown away.
-/
import Datebook.Command.Verb
import Datebook.Text.Blank
import Datebook.Text.Search

namespace Datebook.Command

open Datebook.Text

/-- The backtick, which marks code in a reply. -/
def tick : Char := '\x60'

def fence : List Char := [tick, tick, tick]

/-- Whether the text names any verb, anywhere in it. -/
def mentionsVerb (text : String) : Bool := Verb.all.any fun v => textContains text v.word

/-- Drop an info text: a first line without a parenthesis. -/
def dropInfo (cs : List Char) : List Char :=
  match splitFirst? '\n' cs with
  | some (line, rest) => if line.contains '(' then cs else rest
  | none => cs

/-- Drop a closing fence, if the text ends with one. -/
def dropClosingFence (cs : List Char) : List Char :=
  match dropLead? fence cs.reverse with
  | some rest => rest.reverse
  | none => cs

def stripMarkupChars (cs : List Char) : List Char :=
  let cs := trim cs
  let cs :=
    match dropLead? fence cs with
    | some fenced => trim (dropClosingFence (dropInfo fenced))
    | none => cs
  trim (trimChar tick cs)

/-- The reply without the markup around it. -/
def stripMarkup (reply : String) : String := String.ofList (stripMarkupChars reply.toList)

end Datebook.Command
