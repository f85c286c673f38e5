/-
  Datebook/Settings/Basic.lean
  ============================
  **What can be set**, with the values that hold when nothing is said.

  There are three sections: the language model's endpoint and sampling, the
  calendar behind the assistant, and logging.  Secrets may be missing; they are
  usually given through the environment.  Sampling values are binary32, exactly
  as the endpoint receives them.
-/
import Datebook.Decimal.Shortest

namespace Datebook

/-- Where events are kept. -/
inductive CalendarKind where
  /-- A mailbox behind the Graph interface. -/
  | graph
  /-- This process; nothing leaves the machine. -/
  | memory
  deriving DecidableEq, Repr

def CalendarKind.word : CalendarKind → String
  | .graph => "graph"
  | .memory => "memory"

def CalendarKind.ofWord? (s : String) : Option CalendarKind :=
  [CalendarKind.graph, CalendarKind.memory].find? fun k => k.word == s

/-- The `[llm]` section. -/
structure ModelSettings where
  apiUrl : String
  model : String
  apiKey : Option String
  /-- Sent to deployments that are versioned by a query parameter. -/
  apiVersion : String
  temperature : Binary
  topP : Binary
  maxTokens : Nat
  deriving DecidableEq, Repr

/-- The `[calendar]` section. -/
structure CalendarSettings where
  kind : CalendarKind
  tenant : String
  clientId : String
  clientSecret : Option String
  user : String
  graphUrl : String
  authorityUrl : String
  /-- The zone that start and end times are sent in. -/
  timeZone : String
  deriving DecidableEq, Repr

/-- The `[logging]` section. -/
structure LoggingSettings where
  filter : String
  deriving DecidableEq, Repr

structure Settings where
  model : ModelSettings
  calendar : CalendarSettings
  logging : LoggingSettings
  deriving DecidableEq, Repr

/-- The binary32 value nearest to a decimal that was read as binary64 first. -/
def samplingValue (digits : Nat) (exponent : Int) : Binary :=
  BinaryFormat.binary32.round (BinaryFormat.binary64.ofDecimal false digits exponent)

def ModelSettings.initial : ModelSettings where
  apiUrl := "https://api.openai.com/v1/chat/completions"
  model := "gpt-4o-mini"
  apiKey := none
  apiVersion := "2024-02-01"
  temperature := samplingValue 7 (-1)
  topP := samplingValue 95 (-2)
  maxTokens := 800

def CalendarSettings.initial : CalendarSettings where
  kind := .graph
  tenant := ""
  clientId := ""
  clientSecret := none
  user := ""
  graphUrl := "https://graph.microsoft.com/v1.0"
  authorityUrl := "https://login.microsoftonline.com"
  timeZone := "UTC"

def LoggingSettings.initial : LoggingSettings where
  filter := "mini_copilot=info"

/-- The settings when nothing is said. -/
def Settings.initial : Settings where
  model := .initial
  calendar := .initial
  logging := .initial

end Datebook
