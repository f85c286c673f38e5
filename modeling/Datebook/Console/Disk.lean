/-
  Datebook/Console/Disk.lean
  ==========================
  **A tree of files**, for rehearsals.

  A path is walked from the root or from the working folder, part by part, over
  folders that are there; only its last part may name something new.  `.` and
  empty parts stay where they are, `..` goes up, and goes nowhere at the root.  A
  path that ends with a slash, a `.` or a `..` names a folder, and a folder can
  neither be read nor written.
-/
import Datebook.Failure
import Datebook.Text.Search

namespace Datebook.Console

/-- Where something lies: the names from the root on. -/
abbrev Place := List String

structure Disk where
  folders : List Place
  files : List (Place × String)
  workingFolder : Place
  deriving DecidableEq, Repr

namespace Disk

/-- The bytes a name may have. -/
def nameLimit : Nat := 255

/-- The bytes a path may have. -/
def pathLimit : Nat := 4095

def isHere (part : String) : Bool := part == "" || part == "."

/-- One step down, into a folder that is there. -/
def enter (d : Disk) (place : Place) (part : String) : Except FileFault Place :=
  let next := place ++ [part]
  if isHere part then .ok place
  else if part = ".." then .ok place.dropLast
  else if nameLimit < part.utf8ByteSize then .error .nameTooLong
  else if next ∈ d.folders then .ok next
  else if (d.files.lookup next).isSome then .error .notDirectory
  else .error .notFound

/-- Where a path leads from a place, part by part; it must lead to a file, or to
    where a file could be. -/
def walk (d : Disk) (place : Place) : List String → Except FileFault Place
  | [] => .error .isDirectory
  | part :: rest =>
    if rest.all (· == "") then
      if isHere part ∨ part = ".." then .error .isDirectory
      else if nameLimit < part.utf8ByteSize then .error .nameTooLong
      else if rest ≠ [] ∨ place ++ [part] ∈ d.folders then .error .isDirectory
      else .ok (place ++ [part])
    else
      match d.enter place part with
      | .ok place => walk d place rest
      | .error fault => .error fault

/-- Where a path leads. -/
def locate (d : Disk) (path : String) : Except FileFault Place :=
  if path.toList.contains '\x00' then .error .zeroByte
  else if path.isEmpty then .error .notFound
  else if pathLimit < path.utf8ByteSize then .error .nameTooLong
  else
    let parts := (Text.splitAt '/' path.toList).map String.ofList
    d.walk (if path.toList.head? = some '/' then [] else d.workingFolder) parts

def read (path : String) (d : Disk) : Except FileFault String × Disk :=
  match d.locate path with
  | .error fault => (.error fault, d)
  | .ok place =>
    match d.files.lookup place with
    | some text => (.ok text, d)
    | none => (.error .notFound, d)

/-- Write a text to the file at a place, in the place of what is there. -/
def put (d : Disk) (place : Place) (text : String) : Disk :=
  { d with files := (place, text) :: d.files.filter fun f => f.1 ≠ place }

def write (path text : String) (d : Disk) : Except FileFault Unit × Disk :=
  match d.locate path with
  | .error fault => (.error fault, d)
  | .ok place => (.ok (), d.put place text)

end Disk

end Datebook.Console
