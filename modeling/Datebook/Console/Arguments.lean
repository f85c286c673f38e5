/-
  Datebook/Console/Arguments.lean
  ===============================
  **The arguments the program is started with.**

  Two options take a value, as the next argument or behind an equals sign; one
  switch takes none.  Nothing may be given twice, and nothing else is understood.
  The name of the settings file must not be empty.
-/
import Datebook.Text.Search

namespace Datebook

structure Arguments where
  settingsFile : Option String
  isOffline : Bool
  logFilter : Option String
  deriving DecidableEq, Repr

/-- Why the arguments are not followed. -/
inductive ArgumentFault where
  /-- The user asks what can be given. -/
  | helpWanted
  | unexpected (argument : String)
  | valueMissing (option : String)
  | valueUnwanted (option : String)
  | repeated (option : String)
  deriving DecidableEq, Repr

namespace ArgumentFault

/-- What can be given. -/
def usage : String :=
  "Manage an Outlook calendar by chatting with it\n\n" ++
  "Usage: datebook [--config <FILE>] [--offline] [--log-filter <FILTER>]\n\n" ++
  "Options:\n" ++
  "      --config <FILE>        TOML file with settings\n" ++
  "      --offline              Keep the calendar in memory\n" ++
  "      --log-filter <FILTER>  What is logged\n" ++
  "  -h, --help                 Show this text\n"

def message : ArgumentFault → String
  | .helpWanted => usage
  | .unexpected argument => "error: unexpected argument '" ++ argument ++ "'\n\n" ++ usage
  | .valueMissing option => "error: a value is required for '" ++ option ++ "'\n\n" ++ usage
  | .valueUnwanted option => "error: '" ++ option ++ "' takes no value\n\n" ++ usage
  | .repeated option => "error: '" ++ option ++ "' cannot be given twice\n\n" ++ usage

/-- The status the program ends with: to ask for help is no mistake. -/
def status : ArgumentFault → UInt32
  | .helpWanted => 0
  | _ => 2

end ArgumentFault

namespace Arguments

def none : Arguments := ⟨.none, false, .none⟩

def configOption : String := "--config"
def offlineOption : String := "--offline"
def logFilterOption : String := "--log-filter"

def withSettingsFile (a : Arguments) (path : String) : Except ArgumentFault Arguments :=
  if a.settingsFile.isSome then .error (.repeated configOption)
  else if path.isEmpty then .error (.valueMissing configOption)
  else .ok { a with settingsFile := some path }

def withLogFilter (a : Arguments) (filter : String) : Except ArgumentFault Arguments :=
  if a.logFilter.isSome then .error (.repeated logFilterOption)
  else .ok { a with logFilter := some filter }

def withOffline (a : Arguments) : Except ArgumentFault Arguments :=
  if a.isOffline then .error (.repeated offlineOption) else .ok { a with isOffline := true }

/-- Whether an argument is an option, so that it is no value of the one before it. -/
def looksLikeOption (argument : String) : Bool :=
  match argument.toList with
  | '-' :: _ :: _ => true
  | _ => false

/-- The option an argument names, and the value behind its equals sign. -/
def cutValue (argument : String) : String × Option String :=
  match Text.splitFirst? '=' argument.toList with
  | some (option, value) => (String.ofList option, some (String.ofList value))
  | .none => (argument, .none)

/-- Whether an argument asks for help; the short form may have more letters behind it. -/
def asksForHelp (argument : String) : Bool :=
  argument == "--help" || (afterLead? "-h" argument).isSome

/-- Read the arguments behind those that gave `a`. -/
def readFrom (a : Arguments) : List String → Except ArgumentFault Arguments
  | [] => .ok a
  | argument :: rest =>
    if asksForHelp argument then .error .helpWanted else
    match cutValue argument with
    | ("--offline", .none) =>
      match a.withOffline with
      | .ok a => readFrom a rest
      | .error fault => .error fault
    | ("--offline", some _) => .error (.valueUnwanted offlineOption)
    | ("--config", some value) =>
      match a.withSettingsFile value with
      | .ok a => readFrom a rest
      | .error fault => .error fault
    | ("--log-filter", some value) =>
      match a.withLogFilter value with
      | .ok a => readFrom a rest
      | .error fault => .error fault
    | ("--config", .none) =>
      match rest with
      | [] => .error (.valueMissing configOption)
      | value :: rest =>
        if looksLikeOption value then .error (.valueMissing configOption)
        else match a.withSettingsFile value with
          | .ok a => readFrom a rest
          | .error fault => .error fault
    | ("--log-filter", .none) =>
      match rest with
      | [] => .error (.valueMissing logFilterOption)
      | value :: rest =>
        if looksLikeOption value then .error (.valueMissing logFilterOption)
        else match a.withLogFilter value with
          | .ok a => readFrom a rest
          | .error fault => .error fault
    | ("--", .none) =>
      match rest with
      | [] => .ok a
      | argument :: _ => .error (.unexpected argument)
    | _ => .error (.unexpected argument)

/-- Read all arguments. -/
def read (arguments : List String) : Except ArgumentFault Arguments := readFrom none arguments

end Arguments

end Datebook
