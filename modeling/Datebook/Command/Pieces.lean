/-
  Datebook/Command/Pieces.lean
  ============================
  **Splitting a call into the source texts of its arguments**, without checking
  them.

  The pieces stand between the first `(` and the last `)` and are separated by
  the commas outside quotes; quotes stay on the pieces, white space around them
  goes.  A call without arguments has no piece, so a single empty piece counts
  as none.
-/
import Datebook.Text.Blank
import Datebook.Text.Search

namespace Datebook.Command

open Datebook.Text

/-- Where the splitter stands: outside quotes, inside the given quotes, or behind
    a backslash inside them. -/
inductive QuoteState where
  | outside
  | inside (quote : Char)
  | escaped (quote : Char)
  deriving DecidableEq, Repr

def QuoteState.next : QuoteState → Char → QuoteState
  | .outside, c => if c = '"' ∨ c = '\x27' then .inside c else .outside
  | .inside q, c => if c = '\\' then .escaped q else if c = q then .outside else .inside q
  | .escaped q, _ => .inside q

/-- Cut at the commas outside quotes: the first piece and the others. -/
def cutAtCommas : QuoteState → List Char → List Char × List (List Char)
  | _, [] => ([], [])
  | state, c :: cs =>
    if state = .outside ∧ c = ',' then
      let (first, others) := cutAtCommas .outside cs
      ([], first :: others)
    else
      let (first, others) := cutAtCommas (state.next c) cs
      (c :: first, others)

/-- The text between the first `(` and the last `)`, if they stand in this order. -/
def betweenParentheses? (cs : List Char) : Option (List Char) := do
  let (_, inside) ← splitFirst? '(' cs
  let (inside, _) ← splitLast? ')' inside
  some inside

/-- The source texts of the arguments of a call. -/
def pieces? (cs : List Char) : Option (List (List Char)) := do
  let inside ← betweenParentheses? cs
  let (first, others) := cutAtCommas .outside inside
  let trimmed := trim first :: others.map trim
  some (if trimmed = [[]] then [] else trimmed)

/-- The source texts of the arguments of a call. -/
def splitArguments? (text : String) : Option (List String) :=
  (pieces? text.toList).map (·.map String.ofList)

end Datebook.Command
