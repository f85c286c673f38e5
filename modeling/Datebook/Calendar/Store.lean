/-
  Datebook/Calendar/Store.lean
  ============================
  **A calendar in memory**: events in the order they were added.

  Ids are handed in by the caller, who makes fresh ones.  They need not be
  distinct: changing an event changes the first one with its id, in place, and
  removing takes away every event with the id.  A store can be switched to be
  unavailable; then nothing works, and nothing changes.
-/
import Datebook.Calendar.Service

namespace Datebook

structure Store where
  events : List Event
  available : Bool
  deriving DecidableEq, Repr

namespace Store

def empty : Store := ⟨[], true⟩

def ofEvents (events : List Event) : Store := ⟨events, true⟩

def setAvailable (s : Store) (available : Bool) : Store := { s with available }

/-- The first event with this id gets new details; none if there is no such event. -/
def updateFirst? (id : String) (d : EventDetails) : List Event → Option (List Event)
  | [] => none
  | e :: es =>
    if e.id = id then some (e.withDetails d :: es) else (updateFirst? id d es).map (e :: ·)

/-- The events, unless the store is unavailable. -/
def contents (s : Store) : Except CalendarFault (List Event) :=
  if s.available then .ok s.events else .error .unavailable

def list (s : Store) : Except CalendarFault Listing := s.contents.map listing

def add (s : Store) (id : String) (d : EventDetails) : Except CalendarFault Store := do
  let events ← s.contents
  return { s with events := events ++ [d.event id] }

def update (s : Store) (id : String) (d : EventDetails) : Except CalendarFault Store := do
  let events ← s.contents
  match updateFirst? id d events with
  | some events => return { s with events }
  | none => throw (.notFound id)

def delete (s : Store) (id : String) : Except CalendarFault Store := do
  let events ← s.contents
  if events.any (·.id == id) then return { s with events := events.filter (·.id != id) }
  else throw (.notFound id)

end Store

end Datebook
