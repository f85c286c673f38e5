/-
  Datebook/Command/Verb.lean
  ==========================
  **The four verbs of the command language** and the parameters each one takes.

      add_outlook_schedule(description, start_time, end_time)
      modify_outlook_schedule(schedule_id, description, start_time, end_time)
      remove_outlook_schedule(schedule_id)
      list_outlook_schedule()

  The set is closed.  A verb is written by exactly one word (`ofWord?_word`), and
  words are compared exactly: there is no other spelling, case or abbreviation.
-/
namespace Datebook

inductive Verb where
  | add
  | modify
  | remove
  | list
  deriving DecidableEq, Repr

namespace Verb

def all : List Verb := [.add, .modify, .remove, .list]

/-- The word that names the verb in a call. -/
def word : Verb → String
  | .add => "add_outlook_schedule"
  | .modify => "modify_outlook_schedule"
  | .remove => "remove_outlook_schedule"
  | .list => "list_outlook_schedule"

/-- The names of the positional parameters, in order. -/
def parameterNames : Verb → List String
  | .add => ["description", "start_time", "end_time"]
  | .modify => ["schedule_id", "description", "start_time", "end_time"]
  | .remove => ["schedule_id"]
  | .list => []

def arity (v : Verb) : Nat := v.parameterNames.length

/-- Whether the first parameter refers to an event, and so may have to be
    resolved from the ordinal of a listing. -/
def takesReference (v : Verb) : Bool := v.parameterNames.head? == some "schedule_id"

/-- Whether carrying the verb out may change the calendar. -/
def changesCalendar : Verb → Bool
  | .list => false
  | _ => true

/-- The verb a word names. -/
def ofWord? (w : String) : Option Verb := all.find? fun v => v.word == w

theorem ofWord?_word (v : Verb) : ofWord? v.word = some v := by
  cases v <;> decide

theorem word_of_ofWord? {w : String} {v : Verb} (h : ofWord? w = some v) : v.word = w := by
  simpa using List.find?_some h

theorem mem_all (v : Verb) : v ∈ all := by cases v <;> decide

end Verb

end Datebook
