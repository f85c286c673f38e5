/-
  Datebook/Settings/Validation.lean
  =================================
  **Which settings can be used.**

  Settings come from a file, or are the initial ones; the environment overrides
  four of them; a switch chooses the calendar in memory.  Only then are they
  checked, and the first fault in the fixed order of `validate` is the one that is
  reported.

  The two sampling values are checked differently, and it matters for what is no
  number: the temperature must be shown to lie in its range, the sampling mass
  must not be shown to lie outside of it.
-/
import Datebook.Failure
import Datebook.Text.Blank

namespace Datebook

namespace Settings

/-- The settings with four of them taken from the environment, where it has them. -/
def withEnvironment (s : Settings) (lookup : String → Option String) : Settings :=
  { s with
    model :=
      { s.model with
        apiKey := (lookup "LLM_API_KEY").or s.model.apiKey
        apiUrl := (lookup "LLM_API_URL").getD s.model.apiUrl
        model := (lookup "LLM_MODEL").getD s.model.model }
    calendar :=
      { s.calendar with
        clientSecret := (lookup "GRAPH_CLIENT_SECRET").or s.calendar.clientSecret } }

/-- The settings with the calendar in memory. -/
def offline (s : Settings) : Settings :=
  { s with calendar := { s.calendar with kind := .memory } }

/-- What the Graph calendar needs and does not have. -/
def missingForGraph (c : CalendarSettings) : List String :=
  [ ("calendar.tenant", c.tenant), ("calendar.client_id", c.clientId),
    ("calendar.user", c.user), ("calendar.client_secret", c.clientSecret.getD "") ]
    |>.filterMap fun (name, value) => if value.isEmpty then some name else none

/-- Check the settings. -/
def validate (s : Settings) : Except SettingsFault Unit :=
  if (trimText s.model.apiUrl).isEmpty then .error .blankApiUrl
  else if !(Binary.intLe 0 s.model.temperature && s.model.temperature.leInt 2) then
    .error (.temperature s.model.temperature)
  else if s.model.topP.leInt 0 || s.model.topP.gtInt 1 then .error (.topP s.model.topP)
  else if s.model.maxTokens = 0 then .error .maxTokens
  else if s.calendar.kind = .graph ∧ missingForGraph s.calendar ≠ [] then
    .error (.missing (missingForGraph s.calendar))
  else .ok ()

end Settings

end Datebook
