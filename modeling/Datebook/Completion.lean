/-
  Datebook/Completion.lean
  ========================
  **A language model behind an HTTP endpoint.**

  The endpoint's address tells which of three conventions it speaks.  In two of
  them the instructions are the first message; in the third they are a field of
  their own, and messages of the system are left out of the conversation.  The
  reply is the first piece of text in the answer.

  `Endpoint.ofSettings` refuses settings without a key; every other setting is
  taken as it is.
-/
import Datebook.Dialogue
import Datebook.Http.Exchange
import Datebook.Settings.Basic
import Datebook.Text.Search

namespace Datebook

/-- The conventions of endpoints. -/
inductive Convention where
  /-- Messages with separate instructions. -/
  | anthropic
  /-- Chat completions. -/
  | openai
  /-- Chat completions of a deployment, versioned by a query parameter. -/
  | azure
  deriving DecidableEq, Repr

/-- The convention of an address. -/
def Convention.ofUrl (url : String) : Convention :=
  if textContains url "anthropic.com" then .anthropic
  else if textContains url "openai.azure.com" then .azure
  else .openai

/-- An endpoint, with the settings for its requests. -/
structure Endpoint where
  apiKey : String
  apiUrl : String
  model : String
  apiVersion : String
  temperature : Binary
  topP : Binary
  maxTokens : Nat
  deriving DecidableEq, Repr

namespace Endpoint

/-- An endpoint with the initial settings for everything but key, address and
    model. -/
def simple (apiKey apiUrl model : String) : Endpoint where
  apiKey := apiKey
  apiUrl := apiUrl
  model := model
  apiVersion := ModelSettings.initial.apiVersion
  temperature := ModelSettings.initial.temperature
  topP := ModelSettings.initial.topP
  maxTokens := ModelSettings.initial.maxTokens

/-- The endpoint these settings describe; there is none without a key. -/
def ofSettings (s : ModelSettings) : Except Failure Endpoint :=
  match s.apiKey with
  | none => .error (.settings .noApiKey)
  | some key =>
    if key.isEmpty then .error (.settings .noApiKey)
    else .ok
      { apiKey := key, apiUrl := s.apiUrl, model := s.model, apiVersion := s.apiVersion
        temperature := s.temperature, topP := s.topP, maxTokens := s.maxTokens }

def convention (e : Endpoint) : Convention := .ofUrl e.apiUrl

/-! ### What is sent -/

def messageJson (m : ChatMessage) : Json :=
  .object [("role", .string m.role.role), ("content", .string m.content)]

/-- The conversation with what the user says now. -/
def conversation (history : List ChatMessage) (user : String) : List ChatMessage :=
  history ++ [⟨.user, user⟩]

/-- The body with the instructions in a field of their own. -/
def separateBody (e : Endpoint) (instructions : String) (history : List ChatMessage)
    (user : String) : Json :=
  let spoken := history.filter fun m => m.role ≠ .system
  .object
    [ ("model", .string e.model),
      ("max_tokens", .ofInt e.maxTokens),
      ("temperature", .number e.temperature.jsonText),
      ("system", .string instructions),
      ("messages", .array ((conversation spoken user).map messageJson)) ]

/-- The body with the instructions as the first message. -/
def chatBody (e : Endpoint) (instructions : String) (history : List ChatMessage)
    (user : String) : Json :=
  let messages := ⟨.system, instructions⟩ :: conversation history user
  .object
    [ ("model", .string e.model),
      ("max_tokens", .ofInt e.maxTokens),
      ("temperature", .number e.temperature.jsonText),
      ("top_p", .number e.topP.jsonText),
      ("messages", .array (messages.map messageJson)) ]

/-- The request for a reply. -/
def request (e : Endpoint) (instructions : String) (history : List ChatMessage)
    (user : String) : Except Http.Fault Http.Request :=
  let content := ("content-type", "application/json")
  match e.convention with
  | .anthropic =>
    Http.Request.make? .post e.apiUrl []
      [("x-api-key", e.apiKey), ("anthropic-version", "2023-06-01"), content]
      (e.separateBody instructions history user).text
  | .azure =>
    Http.Request.make? .post e.apiUrl [("api-version", e.apiVersion)] [("api-key", e.apiKey), content]
      (e.chatBody instructions history user).text
  | .openai =>
    Http.Request.make? .post e.apiUrl [] [("authorization", "Bearer " ++ e.apiKey), content]
      (e.chatBody instructions history user).text

/-! ### What comes back -/

def readBlock? (v : Json) : Option String := do
  match ← v.fields? ["text"] with
  | [some text] => text.asString?
  | _ => none

/-- The text of the first block, if there is a block. -/
def readBlocks? (v : Json) : Option (Option String) := do
  match ← v.fields? ["content"] with
  | [some content] =>
    let blocks ← content.list? readBlock?
    some blocks.head?
  | _ => none

def readMessage? (v : Json) : Option (Option String) := do
  match ← v.fields? ["content"] with
  | [content] => Json.optional? Json.asString? content
  | _ => none

def readChoice? (v : Json) : Option (Option String) := do
  match ← v.fields? ["message"] with
  | [some message] => readMessage? message
  | _ => none

/-- The text of the first choice, if there is a choice and it has a text. -/
def readChoices? (v : Json) : Option (Option String) := do
  match ← v.fields? ["choices"] with
  | [some choices] =>
    let choices ← choices.list? readChoice?
    some choices.head?.join
  | _ => none

def readReply? (c : Convention) (v : Json) : Option (Option String) :=
  match c with
  | .anthropic => readBlocks? v
  | .openai | .azure => readChoices? v

section

variable {m : Type → Type} [Monad m] (net : Http.Transport m)

/-- Ask for a reply. -/
def complete (e : Endpoint) (instructions : String) (history : List ChatMessage)
    (user : String) : m (Except Failure String) := do
  match e.request instructions history user with
  | .error fault => return .error (.model (.exchange fault))
  | .ok request =>
    match ← net.send request with
    | .error fault => return .error (.model (.exchange fault))
    | .ok response =>
      if response.isSuccess then
        match response.decode (readReply? e.convention) with
        | .error fault => return .error (.model (.exchange fault))
        | .ok none => return .error (.model .empty)
        | .ok (some reply) => return .ok reply
      else return .error (.model (.refused response.text))

/-- The endpoint as a language model. -/
def languageModel (e : Endpoint) : LanguageModel m := ⟨e.complete net⟩

end

end Endpoint

end Datebook
