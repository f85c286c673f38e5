/-
  Datebook/Toml/Value.lean
  ========================
  **TOML values**, and how tables come to be.

  A table remembers its origin, because the rules of the format hang on it: a
  table with a header of its own is closed to dotted keys and to a second header,
  a table that only another table's header implies may still get one, and a table
  made by dotted keys never may.  A table written in braces is complete and open
  to nobody; in it, too, dotted keys make tables that more dotted keys may extend.

  Dates are checked when they are read and not kept: no setting here is a date.
-/
import Datebook.Decimal.Binary

namespace Datebook

namespace Toml

/-- How a table came to be. -/
inductive Origin where
  /-- It has a header of its own, or is the whole document. -/
  | header
  /-- It was named on the way to another table's header. -/
  | implied
  /-- It was named on the way of a dotted key. -/
  | dotted
  /-- It is written in braces. -/
  | braces
  deriving DecidableEq, Repr

end Toml

inductive Toml where
  | string (s : String)
  | integer (n : Int)
  | float (x : Binary)
  | boolean (b : Bool)
  /-- A date, a time, or both. -/
  | moment
  | array (items : List Toml)
  | table (origin : Toml.Origin) (entries : List (String × Toml))
  /-- The tables under one double header, in order. -/
  | tables (items : List (List (String × Toml)))
  deriving Repr

namespace Toml

abbrev Entries := List (String × Toml)

/-- Put a value in the place of the one under the same key. -/
def replace (key : String) (v : Toml) : Entries → Entries
  | [] => []
  | (k, w) :: rest => if k = key then (k, v) :: rest else (k, w) :: replace key v rest

/-! ### Paths

`descend` goes down a path of keys, makes the tables that are missing, and hands
the one at its end to `act`.  What the path meets must be a table it may enter;
of the tables under a double header it enters the last. -/

/-- Whether a path may enter a table of this origin. -/
def Origin.mayEnter (making origin : Origin) : Bool :=
  match making, origin with
  | .dotted, .header => false
  | .dotted, .braces => false
  | _, .braces => false
  | _, _ => true

def descend (making : Origin) (act : Origin → Entries → Option Entries) :
    List String → Origin → Entries → Option Entries
  | [], origin, entries => act origin entries
  | k :: path, _, entries =>
    match entries.lookup k with
    | none => do
      let inner ← descend making act path making []
      some (entries ++ [(k, .table making inner)])
    | some (.table origin inner) =>
      if making.mayEnter origin then do
        let inner ← descend making act path origin inner
        some (replace k (.table origin inner) entries)
      else none
    | some (.tables items) =>
      match items.getLast? with
      | some last => do
        let last ← descend making act path .header last
        some (replace k (.tables (items.dropLast ++ [last])) entries)
      | none => none
    | some _ => none

/-- Put a value under a key that is not there yet.  A table made by dotted keys
    takes only what a dotted key brings, and any other table only what a plain key
    brings. -/
def insertNew (viaPath : Bool) (key : String) (v : Toml) (origin : Origin)
    (entries : Entries) : Option Entries :=
  if (origin == .dotted) != viaPath then none
  else if (entries.lookup key).isSome then none
  else some (entries ++ [(key, v)])

/-- Put a value under a key, plain or dotted. -/
def assign (keys : List String) (v : Toml) (origin : Origin) (entries : Entries) :
    Option Entries :=
  match keys.getLast? with
  | some key =>
    let path := keys.dropLast
    descend .dotted (insertNew (!path.isEmpty) key v) path origin entries
  | none => none

/-- Open the table of a header: new, or one that another header has implied. -/
def openTable (keys : List String) (document : Entries) : Option Entries :=
  match keys.getLast? with
  | some key =>
    let act := fun (_ : Origin) (entries : Entries) =>
      match entries.lookup key with
      | none => some (entries ++ [(key, .table .header [])])
      | some (.table .implied inner) => some (replace key (.table .header inner) entries)
      | some _ => none
    descend .implied act keys.dropLast .header document
  | none => none

/-- Open one more table under a double header. -/
def openItem (keys : List String) (document : Entries) : Option Entries :=
  match keys.getLast? with
  | some key =>
    let act := fun (_ : Origin) (entries : Entries) =>
      match entries.lookup key with
      | none => some (entries ++ [(key, .tables [[]])])
      | some (.tables items) => some (replace key (.tables (items ++ [[]])) entries)
      | some _ => none
    descend .implied act keys.dropLast .header document
  | none => none

/-- Assign in the table of a header, which is already open. -/
def assignUnder (header keys : List String) (v : Toml) (document : Entries) : Option Entries :=
  descend .implied (fun origin entries => assign keys v origin entries) header .header document

end Toml

end Datebook
