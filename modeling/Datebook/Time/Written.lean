/-
  Datebook/Time/Written.lean
  ==========================
  **The date-times of command arguments.**

  Two forms are read, and nothing may follow either:

    * plain: `2024-03-01 09:00:00`, with any run of white space, or none, where
      the blank stands;
    * with a fraction: `2024-03-01T09:00:00.5`, where the fraction may not be
      left out.  The gate is `endsWithFraction`: a point and then digits to the
      end of the text.

  The model writes `YYYY-MM-DD` for a date it does not know; `fillPlaceholder`
  puts the date of the day in every such place before the text is read.
-/
import Datebook.Time.Scan
import Datebook.Text.Search

namespace Datebook.Time

open Datebook.Text

/-- What stands in a command for a date that is not known. -/
def placeholder : String := "YYYY-MM-DD"

/-- `2024-03-01 09:00:00` -/
def plain? (cs : List Char) : Option DateTime := do
  let (date, cs) ← dateFields? id cs
  let (time, cs) ← timeFields? id (trimStart cs)
  if cs.isEmpty then assemble? date time 0 else none

/-- `2024-03-01T09:00:00`, with or without a fraction of a second. -/
def marked? (cs : List Char) : Option DateTime := do
  let (date, cs) ← dateFields? id cs
  let cs ← mark? 'T' cs
  let (time, cs) ← timeFields? id cs
  let (nanosecond, cs) ← fraction? cs
  if cs.isEmpty then assemble? date time nanosecond else none

/-- Whether the text ends with a point and one or more digits behind it. -/
def endsWithFraction (cs : List Char) : Bool :=
  match afterLast? '.' cs with
  | some ds => !ds.isEmpty && ds.all isDigit
  | none => false

def readChars? (cs : List Char) : Option DateTime :=
  match plain? cs with
  | some t => some t
  | none => if endsWithFraction cs then marked? cs else none

/-- Read a date-time in one of the two forms. -/
def read? (s : String) : Option DateTime := readChars? s.toList

/-- Put a date in the place of every placeholder. -/
def fillPlaceholder (s : String) (today : Date) : String :=
  String.ofList (replaceAll placeholder.toList today.chars s.toList)

end Datebook.Time
