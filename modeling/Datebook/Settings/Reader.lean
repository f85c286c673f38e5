/-
  Datebook/Settings/Reader.lean
  =============================
  **Settings from a TOML document.**

  Every section and every setting may be left out, and then its initial value
  holds; keys that are not known are passed over.  A section stands as a table, or
  as an array of its settings in their order, where the end may be missing and
  what is too much is passed over.  A date in the place of a section says nothing
  about it.

  Both sampling values may be written as integers, which go to binary32 in one
  step; a float goes through binary64.
-/
import Datebook.Settings.Validation
import Datebook.Toml.Reader

namespace Datebook

namespace Toml

/-- The settings of a section, `none` for those it leaves out. -/
def settings? (names : List String) : Toml → Option (List (Option Toml))
  | .table _ entries => some (names.map fun n => entries.lookup n)
  | .array items => some ((List.range names.length).map fun i => items[i]?)
  | .tables items =>
    some ((List.range names.length).map fun i => items[i]?.map (.table .header))
  | .moment => some (names.map fun _ => none)
  | _ => none

/-- A setting, or what holds when it is left out. -/
def orElse {α : Type} (initial : α) (read : Toml → Option α) : Option Toml → Option α
  | none => some initial
  | some v => read v

def asString? : Toml → Option String
  | .string s => some s
  | _ => none

/-- A sampling value. -/
def asSampling? : Toml → Option Binary
  | .integer n => some (BinaryFormat.binary32.ofInt n)
  | .float x => some (BinaryFormat.binary32.round x)
  | _ => none

/-- A natural number of 32 bits. -/
def asNat32? : Toml → Option Nat
  | .integer n => if 0 ≤ n ∧ n < 4294967296 then some n.toNat else none
  | _ => none

/-- Whether a value holds nothing: an empty table or array. -/
def holdsNothing : Toml → Bool
  | .table _ entries => entries.isEmpty
  | .array items => items.isEmpty
  | .tables items => items.isEmpty
  | _ => false

/-- One of a set of words: written as a string, or as the only key of a table whose
    value holds nothing. -/
def asWord? {α : Type} (ofWord : String → Option α) : Toml → Option α
  | .string s => ofWord s
  | .table _ [(k, v)] => if v.holdsNothing then ofWord k else none
  | _ => none

end Toml

open Toml

def ModelSettings.names : List String :=
  ["api_url", "model", "api_key", "api_version", "temperature", "top_p", "max_tokens"]

def ModelSettings.ofToml? (v : Toml) : Option ModelSettings := do
  match ← v.settings? names with
  | [apiUrl, model, apiKey, apiVersion, temperature, topP, maxTokens] =>
    let apiUrl ← orElse initial.apiUrl asString? apiUrl
    let model ← orElse initial.model asString? model
    let apiKey ← orElse initial.apiKey (fun v => v.asString?.map some) apiKey
    let apiVersion ← orElse initial.apiVersion asString? apiVersion
    let temperature ← orElse initial.temperature asSampling? temperature
    let topP ← orElse initial.topP asSampling? topP
    let maxTokens ← orElse initial.maxTokens asNat32? maxTokens
    some { apiUrl, model, apiKey, apiVersion, temperature, topP, maxTokens }
  | _ => none

def CalendarSettings.names : List String :=
  ["backend", "tenant", "client_id", "client_secret", "user", "graph_url", "authority_url",
    "time_zone"]

def CalendarSettings.ofToml? (v : Toml) : Option CalendarSettings := do
  match ← v.settings? names with
  | [kind, tenant, clientId, clientSecret, user, graphUrl, authorityUrl, timeZone] =>
    let kind ← orElse initial.kind (asWord? CalendarKind.ofWord?) kind
    let tenant ← orElse initial.tenant asString? tenant
    let clientId ← orElse initial.clientId asString? clientId
    let clientSecret ← orElse initial.clientSecret (fun v => v.asString?.map some) clientSecret
    let user ← orElse initial.user asString? user
    let graphUrl ← orElse initial.graphUrl asString? graphUrl
    let authorityUrl ← orElse initial.authorityUrl asString? authorityUrl
    let timeZone ← orElse initial.timeZone asString? timeZone
    some { kind, tenant, clientId, clientSecret, user, graphUrl, authorityUrl, timeZone }
  | _ => none

def LoggingSettings.ofToml? (v : Toml) : Option LoggingSettings := do
  match ← v.settings? ["filter"] with
  | [filter] =>
    let filter ← orElse initial.filter asString? filter
    some { filter }
  | _ => none

namespace Settings

def ofEntries? (entries : Entries) : Option Settings := do
  let model ← orElse ModelSettings.initial ModelSettings.ofToml? (entries.lookup "llm")
  let calendar ← orElse CalendarSettings.initial CalendarSettings.ofToml?
    (entries.lookup "calendar")
  let logging ← orElse LoggingSettings.initial LoggingSettings.ofToml?
    (entries.lookup "logging")
  some { model, calendar, logging }

/-- The settings that a text holds. -/
def ofText (s : String) : Except Failure Settings :=
  match (Toml.read? s).bind ofEntries? with
  | some settings => .ok settings
  | none => .error (.settingsText "not a settings document")

/-- Where settings come from. -/
inductive Source where
  /-- No file is named. -/
  | none
  /-- A file is named and holds this text. -/
  | file (text : String)
  /-- A file is named and cannot be read. -/
  | unreadable (fault : FileFault)
  deriving DecidableEq, Repr

def Source.read : Source → Except Failure Settings
  | .none => .ok .initial
  | .file text => ofText text
  | .unreadable fault => .error (.file fault)

/-- Read the settings, apply the environment and the switch for the calendar in
    memory, and check the result. -/
def prepare (source : Source) (isOffline : Bool) (lookup : String → Option String) :
    Except Failure Settings := do
  let settings := (← source.read).withEnvironment lookup
  let settings := if isOffline then settings.offline else settings
  match settings.validate with
  | .ok () => return settings
  | .error fault => throw (.settings fault)

end Settings

end Datebook
