/-
  Datebook/Intent.lean
  ====================
  **What the user wants**, as a number.

  The model is asked for one of five numbers and may answer anything.  An answer
  that is an integer of 64 bits is kept as it is, also outside the five; any other
  text means that the intent is not known.  Only one question depends on it:
  whether the calendar is shown, or a command asked for.
-/
import Datebook.Dialogue
import Datebook.Text.Blank

namespace Datebook

open Datebook.Text

/-- The number of an intent, an integer of 64 bits with a sign. -/
abbrev IntentCode := Int

/-- The number kept for a turn whose intent could not be asked for. -/
def unclassified : IntentCode := 0

inductive Intent where
  | addSchedule
  | modifySchedule
  | removeSchedule
  | listSchedule
  | other
  deriving DecidableEq, Repr

namespace Intent

def all : List Intent := [.addSchedule, .modifySchedule, .removeSchedule, .listSchedule, .other]

def code : Intent → IntentCode
  | .addSchedule => 1
  | .modifySchedule => 2
  | .removeSchedule => 3
  | .listSchedule => 4
  | .other => 5

def ofCode? (n : IntentCode) : Option Intent := all.find? fun i => i.code == n

theorem ofCode?_code (i : Intent) : ofCode? i.code = some i := by
  cases i <;> decide

end Intent

/-- How a turn is handled. -/
inductive Strategy where
  | modify
  | remove
  | list
  /-- The command that the model writes decides, also on adding. -/
  | command
  deriving DecidableEq, Repr

namespace Strategy

def ofCode (n : IntentCode) : Strategy :=
  match Intent.ofCode? n with
  | some .modifySchedule => .modify
  | some .removeSchedule => .remove
  | some .listSchedule => .list
  | some .addSchedule | some .other | none => .command

/-- Whether the model is asked for a command. -/
def asksForCommand : Strategy → Bool
  | .list => false
  | _ => true

/-- The calendar is shown for exactly one number. -/
theorem asksForCommand_ofCode (n : IntentCode) :
    (ofCode n).asksForCommand = false ↔ n = Intent.listSchedule.code := by
  constructor
  · intro h
    unfold ofCode at h
    split at h <;> simp [asksForCommand] at h
    rename_i hf
    have hcode := List.find?_some hf
    simp only [beq_iff_eq] at hcode
    exact hcode.symm
  · rintro rfl; decide

theorem asksForCommand_iff (n : IntentCode) :
    (ofCode n).asksForCommand = true ↔ n ≠ Intent.listSchedule.code := by
  rw [← Bool.not_eq_false, asksForCommand_ofCode]

end Strategy

/-! ### Reading a reply -/

/-- The integer that a sign, if there is one, and digits denote. -/
def signedNumeral? : List Char → Option Int
  | '+' :: ds => if !ds.isEmpty && ds.all isDigit then some (value ds) else none
  | '-' :: ds => if !ds.isEmpty && ds.all isDigit then some (-(value ds : Int)) else none
  | ds => if !ds.isEmpty && ds.all isDigit then some (value ds) else none

/-- Whether an integer has 64 bits. -/
def isInt64 (n : Int) : Bool := -9223372036854775808 ≤ n && n < 9223372036854775808

theorem isInt64_iff {n : Int} :
    isInt64 n = true ↔ -9223372036854775808 ≤ n ∧ n < 9223372036854775808 := by
  simp [isInt64]

/-- The number a reply gives. -/
def interpretReply (reply : String) : IntentCode :=
  match signedNumeral? (trim reply.toList) with
  | some n => if isInt64 n then n else Intent.other.code
  | none => Intent.other.code

/-! ### Asking -/

section

variable {m : Type → Type} [Monad m] (model : LanguageModel m)

/-- Ask for the intent of what the user says now. -/
def classify (prior : List ChatMessage) (question : String) : m (Except Failure IntentCode) := do
  match ← model.complete Purpose.intent.instructions prior question with
  | .error failure => return .error (.classification failure.message)
  | .ok reply => return .ok (interpretReply reply)

/-- Ask for a command, or for words where no command can be made. -/
def generateReply (prior : List ChatMessage) (question : String) : m (Except Failure String) :=
  model.complete Purpose.command.instructions prior question

end

end Datebook
