/-
  Datebook/Calendar/Graph.lean
  ============================
  **The calendar of a mailbox behind the Graph interface.**

  Every operation first asks the authority for a token, with the client's
  credentials, and then makes its own request under that token; nothing is kept
  between operations and nothing is tried twice.  Listing follows the link from
  page to page until a page has none.

  An event's address is the collection's address with a slash and the id behind
  it, as texts.
-/
import Datebook.Calendar.Service
import Datebook.Http.Exchange

namespace Datebook

/-- A mailbox, and what is needed to reach it. -/
structure GraphCalendar where
  tenant : String
  clientId : String
  clientSecret : String
  user : String
  graphUrl : String
  authorityUrl : String
  timeZone : String
  deriving DecidableEq, Repr

namespace GraphCalendar

def scope : String := "https://graph.microsoft.com/.default"

/-- The body of every event made here. -/
def eventBody : String := "Scheduled by mini-copilot"

/-- The fields a listing asks for. -/
def listFields : String := "id,subject,body,start,end"

/-- An address without the slashes at its end. -/
def withoutSlashes (s : String) : String :=
  String.ofList (s.toList.reverse.dropWhile (· == '/')).reverse

/-- The calendar these settings describe; there is none without a client secret. -/
def ofSettings (s : CalendarSettings) : Except Failure GraphCalendar :=
  match s.clientSecret with
  | none => .error (.settings .noClientSecret)
  | some secret =>
    if secret.isEmpty then .error (.settings .noClientSecret)
    else .ok
      { tenant := s.tenant, clientId := s.clientId, clientSecret := secret, user := s.user
        graphUrl := withoutSlashes s.graphUrl, authorityUrl := withoutSlashes s.authorityUrl
        timeZone := s.timeZone }

/-! ### Addresses -/

def tokenUrl (g : GraphCalendar) : String :=
  g.authorityUrl ++ "/" ++ g.tenant ++ "/oauth2/v2.0/token"

def eventsUrl (g : GraphCalendar) : String :=
  g.graphUrl ++ "/users/" ++ g.user ++ "/calendar/events"

def eventUrl (g : GraphCalendar) (id : String) : String := g.eventsUrl ++ "/" ++ id

/-! ### What is sent -/

def tokenForm (g : GraphCalendar) : String :=
  String.ofList <| Url.formText
    [("client_id", g.clientId), ("client_secret", g.clientSecret), ("scope", scope),
      ("grant_type", "client_credentials")]

/-- A time in the zone of the settings. -/
def timeJson (g : GraphCalendar) (t : DateTime) : Json :=
  .object [("dateTime", .string t.text), ("timeZone", .string g.timeZone)]

def newEventJson (g : GraphCalendar) (d : EventDetails) : Json :=
  .object
    [ ("subject", .string d.description),
      ("body", .object [("contentType", .string "text"), ("content", .string eventBody)]),
      ("start", g.timeJson d.start),
      ("end", g.timeJson d.finish),
      ("attendees", .array
        [.object
          [ ("emailAddress", .object [("address", .string g.user)]),
            ("type", .string "required")]]) ]

def changedEventJson (g : GraphCalendar) (d : EventDetails) : Json :=
  .object
    [("subject", .string d.description), ("start", g.timeJson d.start),
      ("end", g.timeJson d.finish)]

def bearer (token : String) : String × String := ("authorization", "Bearer " ++ token)

def jsonContent : String × String := ("content-type", "application/json")

/-! ### What comes back -/

def readToken? (v : Json) : Option String := do
  match ← v.fields? ["access_token"] with
  | [some token] => token.asString?
  | _ => none

/-- The date-time of a time with its zone; both must be there. -/
def readTime? (v : Json) : Option String := do
  match ← v.fields? ["dateTime", "timeZone"] with
  | [some dateTime, some zone] =>
    let _ ← zone.asString?
    dateTime.asString?
  | _ => none

def readEvent? (v : Json) : Option Event := do
  match ← v.fields? ["id", "subject", "start", "end"] with
  | [some id, subject, some start, some finish] =>
    let id ← id.asString?
    let subject ← Json.optional? Json.asString? subject
    let start ← readTime? start
    let finish ← readTime? finish
    some { id, subject := subject.getD "", start, finish }
  | _ => none

/-- A page of events, and the link to the next one. -/
structure Page where
  events : List Event
  next : Option String
  deriving DecidableEq, Repr

def readPage? (v : Json) : Option Page := do
  match ← v.fields? ["value", "@odata.nextLink"] with
  | [some events, next] =>
    let events ← events.list? readEvent?
    let next ← Json.optional? Json.asString? next
    some { events, next }
  | _ => none

def readCreated? (v : Json) : Option String := do
  match ← v.fields? ["id"] with
  | [some id] => id.asString?
  | _ => none

/-! ### Exchanges -/

section

variable {m : Type → Type} [Monad m] (net : Http.Transport m)

/-- Send a request and take a successful answer. -/
def exchange (request : Except Http.Fault Http.Request) : m (Except Failure Http.Response) := do
  match request with
  | .error fault => return .error (.calendar (.exchange fault))
  | .ok request =>
    match ← net.send request with
    | .error fault => return .error (.calendar (.exchange fault))
    | .ok response =>
      if response.isSuccess then return .ok response
      else return .error (.calendar (.refused response.status response.text))

/-- Send a request and read the record its answer holds. -/
def fetch {α : Type} (request : Except Http.Fault Http.Request) (read : Json → Option α) :
    m (Except Failure α) := do
  match ← exchange net request with
  | .error failure => return .error failure
  | .ok response =>
    match response.decode read with
    | .ok v => return .ok v
    | .error fault => return .error (.calendar (.exchange fault))

def acquireToken (g : GraphCalendar) : m (Except Failure String) :=
  fetch net
    (Http.Request.make? .post g.tokenUrl [] [("content-type", "application/x-www-form-urlencoded")]
      g.tokenForm)
    readToken?

/-- Do something under a fresh token. -/
def withToken {α : Type} (g : GraphCalendar) (act : String → m (Except Failure α)) :
    m (Except Failure α) := do
  match ← g.acquireToken net with
  | .error failure => return .error failure
  | .ok token => act token

/-- The events of a page and of all pages it leads to, `fuel` pages at most. -/
def pagesFrom (token : String) : (fuel : Nat) → Except Http.Fault Http.Request →
    m (Except Failure (List Event))
  | 0, _ => return .error (.calendar (.exchange .unanswered))
  | fuel + 1, request => do
    match ← fetch net request readPage? with
    | .error failure => return .error failure
    | .ok page =>
      match page.next with
      | none => return .ok page.events
      | some link =>
        match ← pagesFrom token fuel (Http.Request.make? .get link [] [bearer token] "") with
        | .error failure => return .error failure
        | .ok events => return .ok (page.events ++ events)

def list (g : GraphCalendar) : m (Except Failure Listing) :=
  g.withToken net fun token => do
    let first := Http.Request.make? .get g.eventsUrl [("$select", listFields)] [bearer token] ""
    match ← pagesFrom net token (← net.patience) first with
    | .error failure => return .error failure
    | .ok events => return .ok (listing events)

def add (g : GraphCalendar) (d : EventDetails) : m (Except Failure String) :=
  g.withToken net fun token =>
    fetch net
      (Http.Request.make? .post g.eventsUrl [] [bearer token, jsonContent] (g.newEventJson d).text)
      readCreated?

def update (g : GraphCalendar) (id : String) (d : EventDetails) : m (Except Failure Unit) :=
  g.withToken net fun token => do
    let request := Http.Request.make? .patch (g.eventUrl id) [] [bearer token, jsonContent]
      (g.changedEventJson d).text
    return (← exchange net request).map fun _ => ()

def delete (g : GraphCalendar) (id : String) : m (Except Failure Unit) :=
  g.withToken net fun token => do
    return (← exchange net (Http.Request.make? .delete (g.eventUrl id) [] [bearer token] "")).map fun _ => ()

/-- The mailbox as a calendar. -/
def service (g : GraphCalendar) : CalendarService m where
  list := g.list net
  add := g.add net
  update := g.update net
  delete := g.delete net

end

end GraphCalendar

end Datebook
