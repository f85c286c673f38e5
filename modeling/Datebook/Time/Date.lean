/-
  Datebook/Time/Date.lean
  =======================
  **Calendar dates** of the proleptic Gregorian calendar.

  A `Date` carries the proof that its day exists and that its year lies in
  `minYear..maxYear`, so every date that can be named is a real one.  Years are
  counted astronomically: year 0 exists and is a leap year.

  Dates are written `YYYY-MM-DD`; a year outside `0..9999` gets a sign, and at
  least four digits (`-0001-12-31`, `+10000-01-01`).
-/
import Datebook.Text.Digits

namespace Datebook

namespace Date

def minYear : Int := -262143
def maxYear : Int := 262142

def isLeapYear (y : Int) : Bool := y % 4 == 0 && (y % 100 != 0 || y % 400 == 0)

def daysInMonth (y : Int) (m : Nat) : Nat :=
  if m = 2 then (if isLeapYear y then 29 else 28)
  else if m = 4 ∨ m = 6 ∨ m = 9 ∨ m = 11 then 30
  else 31

/-- Whether year, month and day name a day in range. -/
def Exists (y : Int) (m d : Nat) : Prop :=
  minYear ≤ y ∧ y ≤ maxYear ∧ 1 ≤ m ∧ m ≤ 12 ∧ 1 ≤ d ∧ d ≤ daysInMonth y m

instance (y : Int) (m d : Nat) : Decidable (Exists y m d) := by
  unfold Exists; infer_instance

end Date

/-- A day of the calendar. -/
structure Date where
  year : Int
  month : Nat
  day : Nat
  isDay : Date.Exists year month day
  deriving DecidableEq, Repr

namespace Date

/-- The date with this year, month and day, if there is one. -/
def ofYMD? (y : Int) (m d : Nat) : Option Date :=
  if h : Exists y m d then some ⟨y, m, d, h⟩ else none

theorem ofYMD?_eq_some {y : Int} {m d : Nat} (h : Exists y m d) :
    ofYMD? y m d = some ⟨y, m, d, h⟩ := by
  simp [ofYMD?, h]

/-- The first day of the month after that of `d`. -/
def firstOfNextMonth? (d : Date) : Option Date :=
  if d.month = 12 then ofYMD? (d.year + 1) 1 1 else ofYMD? d.year (d.month + 1) 1

/-- The day after `d`; none at the end of the calendar. -/
def next? (d : Date) : Option Date :=
  if d.day < daysInMonth d.year d.month then ofYMD? d.year d.month (d.day + 1)
  else firstOfNextMonth? d

/-- The day before `d`; none at the start of the calendar. -/
def previous? (d : Date) : Option Date :=
  if 1 < d.day then ofYMD? d.year d.month (d.day - 1)
  else if 1 < d.month then
    ofYMD? d.year (d.month - 1) (daysInMonth d.year (d.month - 1))
  else ofYMD? (d.year - 1) 12 31

/-- The text of a year: four digits, with a sign outside `0..9999`. -/
def yearChars (y : Int) : List Char :=
  if 0 ≤ y ∧ y ≤ 9999 then Text.padded 4 y.natAbs
  else (if y < 0 then '-' else '+') :: Text.padded 4 y.natAbs

def chars (d : Date) : List Char :=
  yearChars d.year ++ '-' :: Text.padded 2 d.month ++ '-' :: Text.padded 2 d.day

/-- The date as `YYYY-MM-DD`. -/
def text (d : Date) : String := String.ofList d.chars

end Date

end Datebook
