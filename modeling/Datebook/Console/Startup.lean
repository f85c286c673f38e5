/-
  Datebook/Console/Startup.lean
  =============================
  **Starting the program**: from arguments and environment to a desk.

  Settings are read and checked before a partner is looked for; whatever fails
  there ends the program before anything is shown.
-/
import Datebook.Console.Arguments
import Datebook.Console.Basic
import Datebook.Settings.Reader
import Datebook.Setup

namespace Datebook.Console

/-- What the program finds around it. -/
structure Surroundings (m : Type → Type) where
  net : Http.Transport m
  /-- The calendar of this process. -/
  inMemory : CalendarService m
  stamp : m Stamp
  today : m Date
  environment : String → Option String
  readFile : String → m (Except FileFault String)
  /-- Write a text to a file. -/
  writeFile : String → String → m (Except FileFault Unit)

variable {m : Type → Type} [Monad m] (around : Surroundings m)

/-- The source of the settings that the arguments name. -/
def settingsSource (a : Arguments) : m Settings.Source :=
  match a.settingsFile with
  | none => return .none
  | some path => do
    match ← around.readFile path with
    | .ok text => return .file text
    | .error fault => return .unreadable fault

/-- The partners that settings describe. -/
def deskFor (setup : Setup) : Desk m where
  services :=
    { model := setup.endpoint.languageModel around.net
      calendar := setup.calendarService around.net around.inMemory
      stamp := around.stamp
      today := around.today }
  save := around.writeFile

/-- Make everything ready for the first line. -/
def start (a : Arguments) : m (Except Failure (Desk m)) := do
  let source ← settingsSource around a
  return do
    let settings ← Settings.prepare source a.isOffline around.environment
    return deskFor around (← Setup.ofSettings settings)

/-- How a run of the program ends. -/
inductive Ending where
  | refused (fault : ArgumentFault)
  | failed (failure : Failure)
  /-- Everything that was shown. -/
  | finished (shown : String)
  deriving DecidableEq, Repr

/-- Run the program on the given lines. -/
def run (arguments inputs : List String) : m Ending :=
  match Arguments.read arguments with
  | .error fault => return .refused fault
  | .ok a => do
    match ← start around a with
    | .error failure => return .failed failure
    | .ok desk =>
      let (shown, _) ← converse desk .empty inputs
      return .finished (banner ++ shown)

end Datebook.Console
