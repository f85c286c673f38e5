/-
  Datebook/Transcript/Basic.lean
  ==============================
  **The record of a conversation**: what was said, by whom, when.

  Entries are only ever added at the end; of what is there, only the words of the
  last entry may be replaced, and only by someone who names its id.  A time
  earlier than that of the entry before is moved up to it, so a clock that runs
  backwards cannot disturb the order (`lastTime_push`).
-/
import Datebook.Dialogue
import Datebook.Intent
import Datebook.Time.Instant
import Datebook.Uuid

namespace Datebook

/-- A fresh id, and what the clock shows. -/
structure Stamp where
  id : Uuid
  time : Instant
  deriving DecidableEq, Repr

/-- One thing that was said. -/
structure Entry where
  id : Uuid
  intent : IntentCode
  speaker : Speaker
  message : String
  time : Instant
  deriving DecidableEq, Repr

structure Transcript where
  entries : List Entry
  deriving DecidableEq, Repr

namespace Transcript

def empty : Transcript := ⟨[]⟩

def last? (t : Transcript) : Option Entry := t.entries.getLast?

def length (t : Transcript) : Nat := t.entries.length

/-- An entry with its time moved up to that of the last one, if that is later. -/
def clamp (t : Transcript) (e : Entry) : Entry :=
  match t.last? with
  | some previous => { e with time := Instant.latest e.time previous.time }
  | none => e

/-- Add an entry at the end. -/
def push (t : Transcript) (e : Entry) : Transcript := ⟨t.entries ++ [t.clamp e]⟩

/-- Add what was said just now. -/
def append (t : Transcript) (stamp : Stamp) (intent : IntentCode) (speaker : Speaker)
    (message : String) : Transcript :=
  t.push { id := stamp.id, intent, speaker, message, time := stamp.time }

/-- Whether the last entry has this id. -/
def endsWith (t : Transcript) (id : Uuid) : Bool :=
  match t.last? with
  | some e => e.id == id
  | none => false

/-- Replace the words of the last entry, if it has this id. -/
def replaceLast (t : Transcript) (id : Uuid) (message : String) : Transcript :=
  match t.last? with
  | some e =>
    if e.id = id then ⟨t.entries.dropLast ++ [{ e with message }]⟩ else t
  | none => t

/-- The conversation as a model is given it. -/
def messages (t : Transcript) : List ChatMessage :=
  t.entries.map fun e => ⟨e.speaker, e.message⟩

/-! ### Times never go back -/

@[simp] theorem entries_push (t : Transcript) (e : Entry) :
    (t.push e).entries = t.entries ++ [t.clamp e] := rfl

@[simp] theorem last?_push (t : Transcript) (e : Entry) : (t.push e).last? = some (t.clamp e) := by
  simp [last?]

theorem lastTime_push {t : Transcript} {e previous : Entry} (h : t.last? = some previous) :
    previous.time.rank ≤ (t.clamp e).time.rank := by
  simp only [clamp, h, Instant.latest]
  split <;> omega

end Transcript

end Datebook
