/-
  Datebook/Resolution.lean
  ========================
  **From "No.4" to an event's id.**

  People and the model refer to an event by the ordinal of a listing.  The
  ordinal of a reference is its first run of digits; it is looked up in a listing
  made for the purpose, by comparing texts, and the first entry that has it wins.

  Resolving gives advice only: a reference without digits, or whose ordinal no
  entry has, stays as it is, and then counts as an id.  Commands without a
  reference do not ask the calendar at all.
-/
import Datebook.Calendar.Service
import Datebook.Command.Basic
import Datebook.Command.Pieces

namespace Datebook

open Datebook.Text

/-- The first run of digits in a text. -/
def firstDigits? (cs : List Char) : Option (List Char) :=
  let run := (cs.dropWhile fun c => !isDigit c).takeWhile isDigit
  if run.isEmpty then none else some run

/-- The ordinal a reference names. -/
def targetOrdinal? (reference : String) : Option String :=
  (firstDigits? reference.toList).map String.ofList

/-- The id of the first entry with this ordinal. -/
def lookupOrdinal? (l : Listing) (no : String) : Option String :=
  (l.find? fun e => e.no == no).map (·.id)

/-- A command whose reference has been resolved as far as possible. -/
structure Resolution where
  command : Command
  /-- The id that was put in, if one was found. -/
  resolvedId : Option String
  deriving DecidableEq, Repr

namespace Resolution

variable {m : Type → Type} [Monad m] (calendar : CalendarService m)

/-- The id that the first argument of a call refers to, read off the call's text. -/
def idOfCall (text : String) : m (Except Failure (Option String)) := do
  match ((Command.splitArguments? text).bind List.head?).bind targetOrdinal? with
  | none => return .ok none
  | some no =>
    match ← calendar.list with
    | .error failure => return .error failure
    | .ok l => return .ok (lookupOrdinal? l no)

/-- Resolve a command's reference. -/
def ofCommand (c : Command) : m (Except Failure Resolution) := do
  if c.verb.takesReference then
    match ← idOfCall calendar c.render with
    | .error failure => return .error failure
    | .ok none => return .ok ⟨c, none⟩
    | .ok (some id) =>
      match c.withScheduleId? id with
      | some command => return .ok ⟨command, some id⟩
      | none => return .ok ⟨c, none⟩
  else return .ok ⟨c, none⟩

end Resolution

end Datebook
