/-
  Datebook/Transcript/Json.lean
  =============================
  **Transcripts as JSON**: an array of entries, on several lines.

  An entry is a record of `id`, `intent`, `speaker`, `message` and `timestamp`, in
  this order.  Reading accepts whatever `Json.fields?` takes for such a record,
  and every form of id and time that `Uuid.read?` and `Instant.read?` take;
  writing has one form for each.
-/
import Datebook.Json.Record
import Datebook.Transcript.Basic

namespace Datebook

def Entry.fieldNames : List String := ["id", "intent", "speaker", "message", "timestamp"]

def Entry.json (e : Entry) : Json :=
  .object
    [ ("id", .string e.id.text),
      ("intent", .ofInt e.intent),
      ("speaker", .string e.speaker.role),
      ("message", .string e.message),
      ("timestamp", .string e.time.text) ]

def Entry.ofJson? (v : Json) : Option Entry := do
  match ← v.fields? fieldNames with
  | [some id, some intent, some speaker, some message, some time] =>
    let id ← id.asString?.bind Uuid.read?
    let intent ← intent.int64?
    let speaker ← speaker.asWord? Speaker.ofRole?
    let message ← message.asString?
    let time ← time.asString?.bind Instant.read?
    some { id, intent, speaker, message, time }
  | _ => none

namespace Transcript

/-- The transcript as text. -/
def jsonText (t : Transcript) : String := (Json.array (t.entries.map Entry.json)).prettyText

def ofJson? (v : Json) : Option Transcript := (v.list? Entry.ofJson?).map Transcript.mk

/-- The transcript that a text holds. -/
def ofJsonText (s : String) : Except Failure Transcript :=
  match (Json.read? s).bind ofJson? with
  | some t => .ok t
  | none => .error (.transcript "not a transcript")

end Transcript

end Datebook
