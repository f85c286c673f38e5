/-
  Datebook/Command/Basic.lean
  ===========================
  **Commands**: a verb with its arguments, and their canonical text.

  Each constructor of `Command` carries exactly the arguments of its verb, so a
  command of the wrong arity cannot be written down; `ofParameters` is where a
  list of arguments of unknown length is checked (`ofParameters_parameters`).

  `render` writes `verb("a", "b")`.  An argument is put between double quotes,
  and a backslash goes before each double quote and each backslash in it — the
  two characters that the reader of quoted text treats specially there.
-/
import Datebook.Command.Fault

namespace Datebook

inductive Command where
  | add (description startTime endTime : String)
  | modify (scheduleId description startTime endTime : String)
  | remove (scheduleId : String)
  | list
  deriving DecidableEq, Repr

namespace Command

def verb : Command → Verb
  | .add .. => .add
  | .modify .. => .modify
  | .remove .. => .remove
  | .list => .list

/-- The arguments, in the order of `Verb.parameterNames`. -/
def parameters : Command → List String
  | .add description startTime endTime => [description, startTime, endTime]
  | .modify scheduleId description startTime endTime =>
    [scheduleId, description, startTime, endTime]
  | .remove scheduleId => [scheduleId]
  | .list => []

theorem length_parameters (c : Command) : c.parameters.length = c.verb.arity := by
  cases c <;> rfl

/-- The command of a verb and its arguments; any other number of arguments than
    the verb takes is refused. -/
def ofParameters : Verb → List String → Except CommandCause Command
  | .add, [description, startTime, endTime] => .ok (.add description startTime endTime)
  | .modify, [scheduleId, description, startTime, endTime] =>
    .ok (.modify scheduleId description startTime endTime)
  | .remove, [scheduleId] => .ok (.remove scheduleId)
  | .list, [] => .ok .list
  | verb, arguments => .error (.arity verb arguments.length)

theorem ofParameters_parameters (c : Command) : ofParameters c.verb c.parameters = .ok c := by
  cases c <;> rfl

/-- Arguments are accepted only in the number the verb takes, and then kept as given. -/
theorem parameters_of_ofParameters {v : Verb} {ps : List String} {c : Command}
    (h : ofParameters v ps = .ok c) : c.verb = v ∧ c.parameters = ps := by
  unfold ofParameters at h
  split at h
  case h_5 => cases h
  all_goals cases h; exact ⟨rfl, rfl⟩

/-- The same check outside any text, where there is no place to point at. -/
def checked (v : Verb) (ps : List String) : Except CommandFault Command :=
  match ofParameters v ps with
  | .ok c => .ok c
  | .error cause => .error ⟨cause, 0⟩

/-- The argument with a parameter's name. -/
def parameter? (c : Command) (name : String) : Option String :=
  (c.verb.parameterNames.zip c.parameters).lookup name

/-- The reference to an event, for the verbs that take one. -/
def scheduleId? : Command → Option String
  | .modify scheduleId .. => some scheduleId
  | .remove scheduleId => some scheduleId
  | _ => none

/-- The command with its reference replaced; none where there is no reference. -/
def withScheduleId? (c : Command) (id : String) : Option Command :=
  match c with
  | .modify _ description startTime endTime => some (.modify id description startTime endTime)
  | .remove _ => some (.remove id)
  | _ => none

/-! ### The canonical text -/

/-- A character as it stands between double quotes. -/
def escapeChar (c : Char) : List Char :=
  if c = '"' ∨ c = '\\' then ['\\', c] else [c]

/-- An argument between double quotes. -/
def quote (s : List Char) : List Char := '"' :: s.flatMap escapeChar ++ ['"']

/-- Arguments with a comma and a space between neighbours. -/
def renderArguments : List String → List Char
  | [] => []
  | [a] => quote a.toList
  | a :: b :: rest => quote a.toList ++ ',' :: ' ' :: renderArguments (b :: rest)

def renderChars (c : Command) : List Char :=
  c.verb.word.toList ++ '(' :: renderArguments c.parameters ++ [')']

/-- The canonical text of a command. -/
def render (c : Command) : String := String.ofList c.renderChars

end Command

end Datebook
