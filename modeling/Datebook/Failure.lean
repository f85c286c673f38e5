/-
  Datebook/Failure.lean
  =====================
  **Everything that can go wrong**, as causes.

  Each part of the assistant has its own causes; `Failure` collects them.  The
  words for people are made here and nowhere else, by the `message` functions.

  `Failure.isCorrectable` separates what the user can mend by asking differently
  from what only an operator can: a wrapper around a failure (`turn`) is as
  correctable as what it wraps.
-/
import Datebook.Command.Fault
import Datebook.Http.Message
import Datebook.Http.Status
import Datebook.Settings.Basic

namespace Datebook

/-- Why a calendar did not do what it was asked. -/
inductive CalendarFault where
  | unavailable
  /-- No event has this id. -/
  | notFound (id : String)
  /-- The service answered with a failure. -/
  | refused (status : Nat) (body : String)
  | exchange (fault : Http.Fault)
  /-- A fault that a calendar describes in its own words. -/
  | described (text : String)
  deriving DecidableEq, Repr

def CalendarFault.message : CalendarFault → String
  | .unavailable => "calendar service unavailable"
  | .notFound id => "event " ++ id ++ " not found"
  | .refused status body => "Graph API error (" ++ Http.statusText status ++ "): " ++ body
  | .exchange fault => fault.message
  | .described text => text

/-- Why a language model gave no reply. -/
inductive ModelFault where
  /-- The endpoint answered with a failure. -/
  | refused (body : String)
  /-- The answer holds no text. -/
  | empty
  | exchange (fault : Http.Fault)
  /-- A fault that a model describes in its own words. -/
  | described (text : String)
  deriving DecidableEq, Repr

def ModelFault.message : ModelFault → String
  | .refused body => "API error: " ++ body
  | .empty => "Empty response"
  | .exchange fault => fault.message
  | .described text => text

/-- Why settings cannot be used. -/
inductive SettingsFault where
  | blankApiUrl
  | temperature (value : Binary)
  | topP (value : Binary)
  | maxTokens
  /-- The Graph calendar lacks these settings. -/
  | missing (names : List String)
  | noApiKey
  | noClientSecret
  /-- A fault described in words. -/
  | described (text : String)
  deriving DecidableEq, Repr

def SettingsFault.message : SettingsFault → String
  | .blankApiUrl => "llm.api_url must not be empty"
  | .temperature value => "llm.temperature (" ++ value.text ++ ") must be within 0.0..=2.0"
  | .topP value => "llm.top_p (" ++ value.text ++ ") must be within (0.0, 1.0]"
  | .maxTokens => "llm.max_tokens must be positive"
  | .missing names => "graph calendar backend requires " ++ ", ".intercalate names
  | .noApiKey => "LLM_API_KEY not set"
  | .noClientSecret => "calendar.client_secret not set"
  | .described text => text

/-- Why a file could not be used. -/
inductive FileFault where
  | notFound
  | isDirectory
  /-- The path leads through something that is no directory. -/
  | notDirectory
  | nameTooLong
  /-- The path holds a character that no path can hold. -/
  | zeroByte
  /-- A fault that the system describes in its own words. -/
  | described (text : String)
  deriving DecidableEq, Repr

def FileFault.message : FileFault → String
  | .notFound => "No such file or directory (os error 2)"
  | .isDirectory => "Is a directory (os error 21)"
  | .notDirectory => "Not a directory (os error 20)"
  | .nameTooLong => "File name too long (os error 36)"
  | .zeroByte => "file name contained an unexpected NUL byte"
  | .described text => text

inductive Failure where
  /-- The user's intent could not be asked for. -/
  | classification (reason : String)
  | command (fault : CommandFault)
  /-- A text is no date-time in a form that commands use. -/
  | dateTime (text : String)
  | unknownVerb (word : String)
  | calendar (fault : CalendarFault)
  | model (fault : ModelFault)
  /-- A failure while a message was being handled. -/
  | turn (cause : Failure)
  | settings (fault : SettingsFault)
  | file (fault : FileFault)
  /-- A text is no transcript. -/
  | transcript (text : String)
  /-- A text holds no settings. -/
  | settingsText (text : String)
  deriving DecidableEq, Repr

namespace Failure

def message : Failure → String
  | .classification reason => "Failed to classify intent: " ++ reason
  | .command fault => fault.message
  | .dateTime text => "Invalid datetime format: " ++ text
  | .unknownVerb word => "Command not found: " ++ word
  | .calendar fault => "Calendar backend error: " ++ fault.message
  | .model fault => "LLM error: " ++ fault.message
  | .turn cause => "Failed to send message: " ++ cause.message
  | .settings fault => "Configuration error: " ++ fault.message
  | .file fault => "IO error: " ++ fault.message
  | .transcript text => "Serialization error: " ++ text
  | .settingsText text => "TOML error: " ++ text

/-- Wrap a failure of a turn, once. -/
def ofTurn : Failure → Failure
  | .turn cause => .turn cause
  | cause => .turn cause

/-- Whether the user can mend the failure by asking differently. -/
def isCorrectable : Failure → Bool
  | .command _ | .dateTime _ | .unknownVerb _ => true
  | .turn cause => cause.isCorrectable
  | _ => false

theorem ofTurn_ofTurn (f : Failure) : f.ofTurn.ofTurn = f.ofTurn := by
  cases f <;> rfl

theorem isCorrectable_ofTurn (f : Failure) : f.ofTurn.isCorrectable = f.isCorrectable := by
  cases f <;> rfl

end Failure

/-- The verb a word names, for those who need to say that there is none. -/
def Verb.named (word : String) : Except Failure Verb :=
  match Verb.ofWord? word with
  | some v => .ok v
  | none => .error (.unknownVerb word)

end Datebook
