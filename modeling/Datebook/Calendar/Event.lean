/-
  Datebook/Calendar/Event.lean
  ============================
  **Events, and listings of them.**

  A listing numbers the events from 0 in the order the calendar gives them.  The
  number, `no`, is what people and the model see; it means something only for the
  listing it stands in.  `showListing` writes one line for each entry.
-/
import Datebook.Time.DateTime

namespace Datebook

/-- An event as a calendar stores it. -/
structure Event where
  id : String
  subject : String
  start : String
  finish : String
  deriving DecidableEq, Repr

/-- An event in a listing, with its ordinal. -/
structure ListingEntry where
  no : String
  id : String
  subject : String
  start : String
  finish : String
  deriving DecidableEq, Repr

abbrev Listing := List ListingEntry

/-- What a new or changed event is to hold. -/
structure EventDetails where
  description : String
  start : DateTime
  finish : DateTime
  deriving DecidableEq, Repr

/-- An event with new details, under its old id. -/
def Event.withDetails (e : Event) (d : EventDetails) : Event :=
  { e with subject := d.description, start := d.start.text, finish := d.finish.text }

/-- The event of these details under an id. -/
def EventDetails.event (d : EventDetails) (id : String) : Event :=
  { id, subject := d.description, start := d.start.text, finish := d.finish.text }

def Event.entry (e : Event) (n : Nat) : ListingEntry :=
  { no := natText n, id := e.id, subject := e.subject, start := e.start, finish := e.finish }

/-- Number the events from `n` on. -/
def listingFrom (n : Nat) : List Event → Listing
  | [] => []
  | e :: es => e.entry n :: listingFrom (n + 1) es

/-- The listing of events in the given order. -/
def listing (events : List Event) : Listing := listingFrom 0 events

/-- An entry as it is shown. -/
def ListingEntry.text (e : ListingEntry) : String :=
  "No." ++ e.no ++ " " ++ e.subject ++ " " ++ e.start ++ "-" ++ e.finish

/-- The answer when the calendar is empty. -/
def noScheduleFound : String := "No schedule found"

/-- A listing as it is shown: each entry, and a line feed behind it. -/
def showListing (l : Listing) : String :=
  if l.isEmpty then noScheduleFound
  else l.foldr (fun e text => e.text ++ "\n" ++ text) ""

end Datebook
