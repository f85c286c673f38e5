/-
  Datebook/Time/DateTime.lean
  ===========================
  **Dates with a time of day**, in no particular time zone.

  A leap second is a second that lasts beyond its end: it is kept as the second
  before it with a nanosecond of a thousand million or more.  Any second may last
  that long, but only at the end of a minute does a leap second have a number of
  its own when it is written, 60; elsewhere it is written as the second behind it,
  and read as that one.  This keeps the order of instants the lexicographic order
  of the fields, which `DateTime.rank` turns into one number.
-/
import Datebook.Time.Date

namespace Datebook

/-- A thousand million nanoseconds make a second. -/
def nanosPerSecond : Nat := 1000000000

namespace TimeOfDay

/-- The fields of a time of day; a second may last for two. -/
def Exists (hour minute second nanosecond : Nat) : Prop :=
  hour < 24 ∧ minute < 60 ∧ second < 60 ∧ nanosecond < 2 * nanosPerSecond

instance (h m s n : Nat) : Decidable (Exists h m s n) := by
  unfold Exists; infer_instance

end TimeOfDay

structure TimeOfDay where
  hour : Nat
  minute : Nat
  second : Nat
  nanosecond : Nat
  isTime : TimeOfDay.Exists hour minute second nanosecond
  deriving DecidableEq, Repr

namespace TimeOfDay

/-- The time that is written with these fields: a second 60 is a leap second, and no
    other is written as longer than a second. -/
def ofFields? (hour minute second nanosecond : Nat) : Option TimeOfDay :=
  let (kept, lasting) :=
    if second = 60 then (59, nanosecond + nanosPerSecond) else (second, nanosecond)
  if h : nanosecond < nanosPerSecond ∧ Exists hour minute kept lasting then
    some ⟨hour, minute, kept, lasting, h.2⟩
  else none

/-- The second as it is written: in a leap second the number behind its own. -/
def writtenSecond (t : TimeOfDay) : Nat :=
  if nanosPerSecond ≤ t.nanosecond then t.second + 1 else t.second

/-- The nanoseconds of the written second. -/
def writtenNanosecond (t : TimeOfDay) : Nat :=
  if nanosPerSecond ≤ t.nanosecond then t.nanosecond - nanosPerSecond else t.nanosecond

/-- Seconds since midnight. -/
def seconds (t : TimeOfDay) : Nat := (t.hour * 60 + t.minute) * 60 + t.second

/-- The same nanosecond of another second of the day, this many seconds behind midnight;
    the seconds go on around the day. -/
def atSecond (t : TimeOfDay) (seconds : Int) : TimeOfDay :=
  let ofDay := (seconds % 86400).toNat
  have hday : ofDay < 86400 := by omega
  ⟨ofDay / 3600, ofDay / 60 % 60, ofDay % 60, t.nanosecond,
    by omega, by omega, by omega, t.isTime.2.2.2⟩

def chars (t : TimeOfDay) : List Char :=
  Text.padded 2 t.hour ++ ':' :: Text.padded 2 t.minute ++ ':' :: Text.padded 2 t.writtenSecond

/-- The time as `HH:MM:SS`. -/
def text (t : TimeOfDay) : String := String.ofList t.chars

end TimeOfDay

structure DateTime where
  date : Date
  time : TimeOfDay
  deriving DecidableEq, Repr

namespace DateTime

def chars (t : DateTime) : List Char := t.date.chars ++ 'T' :: t.time.chars

/-- The date and time as `YYYY-MM-DDTHH:MM:SS`, to the second. -/
def text (t : DateTime) : String := String.ofList t.chars

/-- A number that orders date-times as they follow each other. -/
def rank (t : DateTime) : Int :=
  let days := (t.date.year * 12 + t.date.month) * 31 + t.date.day
  let seconds := ((days * 24 + t.time.hour) * 60 + t.time.minute) * 60 + t.time.second
  seconds * (2 * nanosPerSecond) + t.time.nanosecond

end DateTime

end Datebook
