/-
  Datebook/Time/Instant.lean
  ==========================
  **Points in time**, as date-times of universal time.

  Instants are written `2020-01-01T00:00:00.500Z`, with 0, 3, 6 or 9 digits of
  fraction: the fewest that lose nothing.  They are read from the same form, and
  from looser ones: a blank or a small `t` between date and time, white space
  around the numbers, and any offset below a day, with or without a colon.  An
  offset is taken off, so the written form is always universal time.

  `latest` is how a clock that ran backwards is corrected; it is a maximum for
  the order of `DateTime.rank`.
-/
import Datebook.Time.Scan

namespace Datebook

structure Instant where
  utc : DateTime
  deriving DecidableEq, Repr

namespace Instant

open Datebook.Text Datebook.Time

/-- The order of instants as a number. -/
def rank (t : Instant) : Int := t.utc.rank

/-- The later of two instants; the first where neither is earlier. -/
def latest (a b : Instant) : Instant := if a.rank < b.rank then b else a

/-! ### Writing -/

/-- The shortest fraction with a multiple of three digits that shows `n`
    nanoseconds. -/
def fractionChars (n : Nat) : List Char :=
  if n = 0 then []
  else if n % 1000000 = 0 then '.' :: padded 3 (n / 1000000)
  else if n % 1000 = 0 then '.' :: padded 6 (n / 1000)
  else '.' :: padded 9 n

def chars (t : Instant) : List Char :=
  t.utc.chars ++ fractionChars t.utc.time.writtenNanosecond ++ ['Z']

def text (t : Instant) : String := String.ofList t.chars

/-! ### Reading -/

/-- The text behind `UTC`, in any case. -/
def afterUTC? : List Char → Option (List Char)
  | u :: t :: c :: rest =>
    if u.toUpper = 'U' ∧ t.toUpper = 'T' ∧ c.toUpper = 'C' then some rest else none
  | _ => none

/-- The minutes of an offset: two digits below 60. -/
def offsetMinutes? : List Char → Option (Nat × List Char)
  | a :: b :: rest =>
    if isDigit a ∧ isDigit b ∧ value [a, b] < 60 then some (value [a, b], rest) else none
  | _ => none

/-- The hours of an offset, colons or white space, and its minutes. -/
def offsetSize? : List Char → Option (Nat × List Char)
  | a :: b :: rest =>
    if isDigit a ∧ isDigit b then
      let rest := rest.dropWhile fun c => c == ':' || isBlank c
      (offsetMinutes? rest).map fun (m, rest) => (value [a, b] * 3600 + m * 60, rest)
    else none
  | _ => none

/-- An offset from universal time, in seconds. -/
def offset? (cs : List Char) : Option (Int × List Char) :=
  match afterUTC? cs with
  | some rest => some (0, rest)
  | none =>
    match cs with
    | c :: rest =>
      if c = 'Z' ∨ c = 'z' then some (0, rest)
      else if c = '+' then (offsetSize? rest).map fun (n, rest) => ((n : Int), rest)
      else if c = '-' ∨ c = '\u2212' then
        (offsetSize? rest).map fun (n, rest) => (-(n : Int), rest)
      else none
    | [] => none

/-- The instant at which a clock with this offset shows `t`; the calendar may end
    before it. -/
def ofLocal? (t : DateTime) (offset : Int) : Option Instant :=
  let seconds : Int := t.time.seconds - offset
  let date :=
    if seconds < 0 then t.date.previous?
    else if 86400 ≤ seconds then t.date.next?
    else some t.date
  date.map fun date => ⟨date, t.time.atSecond seconds⟩

/-- The text behind the mark between date and time. -/
def afterMark? : List Char → Option (List Char)
  | c :: rest => if c = 'T' ∨ c = 't' ∨ c = ' ' then some rest else none
  | [] => none

def readChars? (cs : List Char) : Option Instant := do
  let (date, cs) ← dateFields? trimStart cs
  let cs ← afterMark? cs
  let (time, cs) ← timeFields? trimStart cs
  let (nanosecond, cs) ← fraction? cs
  let (offset, cs) ← offset? (trimStart cs)
  if (trimStart cs).isEmpty then
    let local_ ← assemble? date time nanosecond
    if offset.natAbs < 86400 then ofLocal? local_ offset else none
  else none

/-- Read an instant. -/
def read? (s : String) : Option Instant := readChars? s.toList

end Instant

end Datebook
