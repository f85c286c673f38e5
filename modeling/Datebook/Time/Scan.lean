/-
  Datebook/Time/Scan.lean
  =======================
  **Reading the parts of a written date and time**, from the front of a text.

  Every reader gives back its value and the text behind it.  White space is
  skipped before each number and nowhere else, except where a format itself asks
  for a blank; signs are read before years only.  A year without a sign has at
  most four digits, a year with one has as many as are there.
-/
import Datebook.Time.DateTime
import Datebook.Text.Blank

namespace Datebook.Time

open Datebook.Text

/-- Up to `limit` leading digits of a text, at least one, and what follows them. -/
def digits? (limit : Nat) (cs : List Char) : Option (List Char × List Char) :=
  let ds := (cs.take limit).takeWhile isDigit
  if ds.isEmpty then none else some (ds, cs.drop ds.length)

/-- A number of at most `limit` digits, behind any white space. -/
def number? (limit : Nat) (cs : List Char) : Option (Nat × List Char) :=
  (digits? limit (trimStart cs)).map fun (ds, rest) => (value ds, rest)

/-- A number of any length. -/
def anyNumber? (cs : List Char) : Option (Nat × List Char) :=
  let ds := cs.takeWhile isDigit
  if ds.isEmpty then none else some (value ds, cs.dropWhile isDigit)

/-- A year, behind any white space. -/
def year? (cs : List Char) : Option (Int × List Char) :=
  match trimStart cs with
  | '+' :: rest => (anyNumber? rest).map fun (n, rest) => ((n : Int), rest)
  | '-' :: rest => (anyNumber? rest).map fun (n, rest) => (-(n : Int), rest)
  | rest => (digits? 4 rest).map fun (ds, rest) => ((value ds : Int), rest)

/-- The text behind one given character. -/
def mark? (c : Char) : List Char → Option (List Char)
  | d :: rest => if d = c then some rest else none
  | [] => none

/-- A fraction of a second in nanoseconds, from the digits behind the point: the
    first nine count, the others are dropped. -/
def fractionValue (ds : List Char) : Nat :=
  let nine := ds.take 9
  value nine * Nat.pow 10 (9 - nine.length)

/-- A fraction of a second, if a point stands there; a point needs a digit. -/
def fraction? (cs : List Char) : Option (Nat × List Char) :=
  match cs with
  | '.' :: rest =>
    let ds := rest.takeWhile isDigit
    if ds.isEmpty then none else some (fractionValue ds, rest.dropWhile isDigit)
  | _ => some (0, cs)

/-! ### Dates and times of day

The readers below do not yet ask whether the day exists: the text is read to its
end first. -/

/-- Year, month and day, with `gap` skipped before the marks between them. -/
def dateFields? (gap : List Char → List Char) (cs : List Char) :
    Option ((Int × Nat × Nat) × List Char) := do
  let (y, cs) ← year? cs
  let cs ← mark? '-' (gap cs)
  let (m, cs) ← number? 2 cs
  let cs ← mark? '-' (gap cs)
  let (d, cs) ← number? 2 cs
  some ((y, m, d), cs)

/-- Hour, minute and second, with `gap` skipped before the marks between them. -/
def timeFields? (gap : List Char → List Char) (cs : List Char) :
    Option ((Nat × Nat × Nat) × List Char) := do
  let (h, cs) ← number? 2 cs
  let cs ← mark? ':' (gap cs)
  let (m, cs) ← number? 2 cs
  let cs ← mark? ':' (gap cs)
  let (s, cs) ← number? 2 cs
  some ((h, m, s), cs)

/-- The date-time of the fields that were read. -/
def assemble? (date : Int × Nat × Nat) (time : Nat × Nat × Nat) (nanosecond : Nat) :
    Option DateTime := do
  let date ← Date.ofYMD? date.1 date.2.1 date.2.2
  let time ← TimeOfDay.ofFields? time.1 time.2.1 time.2.2 nanosecond
  some ⟨date, time⟩

end Datebook.Time
