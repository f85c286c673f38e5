/-
  Datebook/Json/Record.lean
  =========================
  **Taking records out of JSON values.**

  A record with the fields `f₁ … fₙ` stands as an object with these names, or as
  an array of exactly `n` values in this order.  An object may have other members
  besides, which are passed over; it may not name a field twice.  Whether a field
  may be missing is up to its reader: in an object an absent field is `none`.
-/
import Datebook.Json.Reader

namespace Datebook.Json

open Datebook.Text

/-- The values of the fields of a record, `none` for those an object leaves out. -/
def fields? (names : List String) : Json → Option (List (Option Json))
  | .object members =>
    if names.all fun n => (members.filter fun m => m.1 == n).length ≤ 1 then
      some (names.map fun n => members.lookup n)
    else none
  | .array items => if items.length = names.length then some (items.map some) else none
  | _ => none

def asString? : Json → Option String
  | .string s => some s
  | _ => none

/-- The items of an array, each read by `f`. -/
def list? {α : Type} (f : Json → Option α) : Json → Option (List α)
  | .array items => items.mapM f
  | _ => none

/-- A field that may be missing or null. -/
def optional? {α : Type} (f : Json → Option α) : Option Json → Option (Option α)
  | none => some none
  | some .null => some none
  | some v => (f v).map some

/-- The integer a number denotes.  A fraction or an exponent makes a number no
    integer, and so does the sign of `-0`. -/
def integer? : Json → Option Int
  | .number t =>
    match t.toList with
    | '-' :: ds =>
      if ds.all isDigit then
        if value ds = 0 then none else some (-(value ds : Int))
      else none
    | ds => if ds.all isDigit then some (value ds) else none
  | _ => none

/-- An integer of 64 bits with a sign. -/
def int64? (v : Json) : Option Int := do
  let n ← integer? v
  if -9223372036854775808 ≤ n ∧ n < 9223372036854775808 then some n else none

/-- One of a set of words: written as a string, or as the only name of an object
    whose value is null. -/
def asWord? {α : Type} (ofWord : String → Option α) : Json → Option α
  | .string s => ofWord s
  | .object [(s, .null)] => ofWord s
  | _ => none

end Datebook.Json
