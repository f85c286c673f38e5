/-
  Datebook/Proofs/Transcript/Json.lean
  ====================================
  **The text of a transcript holds the whole transcript**, whatever it went
  through: everything said is read back with its id, its intent, its speaker, its
  words and its time.

  One time is another after this, and one only: a leap second that does not end a
  minute has no number of its own, and is read back as the second behind it, a
  thousand million nanoseconds less into it (`Entry.settled`).  No clock shows such a
  time and no text holds one, so it can only be handed in.

  One thing has to be kept up for the rest.  An intent is read as an integer of 64
  bits, so the intents of all entries must have 64 bits.  This and that the times are
  regular are conditions which last (`Lasting`): a transcript never loses them by what
  may happen to it, if what is added meets them.
-/
import Datebook.Proofs.Json.Pretty
import Datebook.Proofs.Time.Instant
import Datebook.Proofs.Transcript
import Datebook.Proofs.Uuid
import Datebook.Transcript.Json
import Mathlib.Data.List.Forall2

namespace Datebook

/-! ### Entries -/

/-- The entry that is read where `e` was written. -/
def Entry.settled (e : Entry) : Entry := { e with time := e.time.settled }

theorem Entry.settled_eq_self_iff {e : Entry} : e.settled = e ↔ e.time.Regular := by
  rw [← Instant.settled_eq_self_iff]
  constructor
  · exact congrArg Entry.time
  · intro h
    rw [settled, h]

theorem Entry.plain_json (e : Entry) : e.json.Plain := by
  apply Json.Plain.object
  intro m hm
  simp only [List.mem_cons, List.not_mem_nil, or_false] at hm
  rcases hm with rfl | rfl | rfl | rfl | rfl
  · exact .string _
  · exact .int _
  · exact .string _
  · exact .string _
  · exact .string _

theorem Entry.fields?_json (e : Entry) :
    e.json.fields? fieldNames
      = some [some (.string e.id.text), some (.ofInt e.intent), some (.string e.speaker.role),
          some (.string e.message), some (.string e.time.text)] := by
  simp [json, Json.fields?, fieldNames, List.lookup_cons]

/-- All but the time is read as it was written, and so is a regular time. -/
theorem Entry.ofJson?_json {e : Entry} (h : isInt64 e.intent = true) :
    ofJson? e.json = some e.settled := by
  obtain ⟨hlow, hhigh⟩ := isInt64_iff.mp h
  simp [ofJson?, fields?_json, Json.asString?, Json.asWord?, Uuid.read?_text,
    Json.int64?_ofInt hlow hhigh, Speaker.ofRole?_role, Instant.read?_text, settled]

/-- What is read has an intent of 64 bits and a regular time. -/
theorem Entry.isInt64_regular_of_ofJson? {v : Json} {e : Entry} (h : ofJson? v = some e) :
    isInt64 e.intent = true ∧ e.time.Regular := by
  simp only [ofJson?, Option.bind_eq_bind, Option.bind_eq_some_iff] at h
  obtain ⟨fields, -, h⟩ := h
  split at h
  · simp only [Option.bind_eq_some_iff, Option.some.injEq] at h
    obtain ⟨id, -, intent, hintent, speaker, -, message, -, time, ⟨text, -, htime⟩, rfl⟩ := h
    refine ⟨?_, Instant.regular_of_read? htime⟩
    simp only [Json.int64?, Option.bind_eq_bind, Option.bind_eq_some_iff] at hintent
    obtain ⟨n, -, hn⟩ := hintent
    split at hn
    · cases hn
      exact isInt64_iff.mpr ‹_›
    · cases hn
  · cases h

namespace Transcript

/-! ### Transcripts -/

/-- The intents have 64 bits. -/
def Fits (t : Transcript) : Prop := ∀ e ∈ t.entries, isInt64 e.intent = true

/-- The times are regular. -/
def Regular (t : Transcript) : Prop := ∀ e ∈ t.entries, e.time.Regular

/-- The transcript that is read where `t` was written. -/
def settled (t : Transcript) : Transcript := ⟨t.entries.map Entry.settled⟩

theorem settled_eq_self_iff {t : Transcript} : t.settled = t ↔ t.Regular := by
  obtain ⟨es⟩ := t
  have hmap : es.map Entry.settled = es ↔ ∀ e ∈ es, e.settled = e := by
    simpa using List.map_eq_map_iff (f := Entry.settled) (g := id) (l := es)
  rw [settled, Regular, Transcript.mk.injEq, hmap]
  exact forall₂_congr fun _ _ => Entry.settled_eq_self_iff

theorem jsonText_settled (t : Transcript) : t.settled.jsonText = t.jsonText := by
  have hjson : Entry.json ∘ Entry.settled = Entry.json := by
    funext e
    simp [Entry.json, Entry.settled, Instant.text_settled]
  rw [jsonText, jsonText, settled, List.map_map, hjson]

theorem mapM_ofJson?_json {es : List Entry} (h : ∀ e ∈ es, isInt64 e.intent = true) :
    (es.map Entry.json).mapM Entry.ofJson? = some (es.map Entry.settled) := by
  induction es with
  | nil => rfl
  | cons e es ih =>
    have he := Entry.ofJson?_json (h e (by simp))
    have hes := ih fun x hx => h x (by simp [hx])
    simp [he, hes]

theorem ofJsonText_jsonText {t : Transcript} (h : t.Fits) :
    ofJsonText t.jsonText = .ok t.settled := by
  have hplain : (Json.array (t.entries.map Entry.json)).Plain := by
    apply Json.Plain.array
    intro v hv
    obtain ⟨e, -, rfl⟩ := List.mem_map.mp hv
    exact e.plain_json
  simp [ofJsonText, jsonText, Json.read?_prettyText hplain, ofJson?, Json.list?,
    mapM_ofJson?_json h, settled]

theorem isInt64_regular_of_mapM {vs : List Json} {es : List Entry}
    (h : vs.mapM Entry.ofJson? = some es) : ∀ e ∈ es, isInt64 e.intent = true ∧ e.time.Regular := by
  induction vs generalizing es with
  | nil =>
    cases h
    simp
  | cons v vs ih =>
    simp only [List.mapM_cons, Option.pure_def, Option.bind_eq_bind, Option.bind_eq_some_iff,
      Option.some.injEq] at h
    obtain ⟨e, he, rest, hrest, rfl⟩ := h
    intro x hx
    rcases List.mem_cons.mp hx with rfl | hx
    · exact Entry.isInt64_regular_of_ofJson? he
    · exact ih hrest x hx

theorem isInt64_regular_of_ofJsonText {s : String} {t : Transcript} (h : ofJsonText s = .ok t) :
    ∀ e ∈ t.entries, isInt64 e.intent = true ∧ e.time.Regular := by
  rw [ofJsonText] at h
  split at h
  · rename_i loaded hread
    cases h
    obtain ⟨v, -, hv⟩ := Option.bind_eq_some_iff.mp hread
    obtain ⟨es, hes, rfl⟩ := Option.map_eq_some_iff.mp hv
    unfold Json.list? at hes
    split at hes
    · exact isInt64_regular_of_mapM hes
    · cases hes
  · cases h

/-- No other transcript is read back as it was. -/
theorem ofJsonText_jsonText_iff {t : Transcript} :
    ofJsonText t.jsonText = .ok t ↔ t.Fits ∧ t.Regular := by
  constructor
  · intro h
    have hread := isInt64_regular_of_ofJsonText h
    exact ⟨fun e he => (hread e he).1, fun e he => (hread e he).2⟩
  · rintro ⟨hfits, hregular⟩
    rw [ofJsonText_jsonText hfits, settled_eq_self_iff.mpr hregular]

/-! ### Histories -/

/-- What may happen to a transcript. -/
inductive Change where
  | append (stamp : Stamp) (intent : IntentCode) (speaker : Speaker) (message : String)
  | push (e : Entry)
  | replaceLast (id : Uuid) (message : String)
  | clear
  /-- The transcript that a text holds takes the place of this one. -/
  | load (text : String)

/-- What is added has the property; what is replaced or loaded is not asked. -/
def Change.Adds (P : Entry → Prop) : Change → Prop
  | .append stamp intent speaker message =>
    P { id := stamp.id, intent, speaker, message, time := stamp.time }
  | .push e => P e
  | .replaceLast .. | .clear | .load _ => True

def Change.Fits (c : Change) : Prop := c.Adds fun e => isInt64 e.intent = true

def Change.Regular (c : Change) : Prop := c.Adds fun e => e.time.Regular

/-- A text that holds no transcript leaves everything as it was. -/
def apply (t : Transcript) : Change → Transcript
  | .append stamp intent speaker message => t.append stamp intent speaker message
  | .push e => t.push e
  | .replaceLast id message => t.replaceLast id message
  | .clear => empty
  | .load text =>
    match ofJsonText text with
    | .ok loaded => loaded
    | .error _ => t

/-- The transcript at the end of a history. -/
def after (changes : List Change) : Transcript := changes.foldl apply empty

/-- A property of entries that looks neither at the words nor at how times were moved up
    to one another, and that everything read from a text has. -/
structure Lasting (P : Entry → Prop) : Prop where
  later : ∀ {e previous : Entry}, P e → P previous →
    P { e with time := Instant.latest e.time previous.time }
  words : ∀ {e : Entry} (message : String), P e → P { e with message }
  loaded : ∀ {s : String} {t : Transcript}, ofJsonText s = .ok t → ∀ e ∈ t.entries, P e

namespace Lasting

variable {P : Entry → Prop} (h : Lasting P) {t : Transcript} (ht : ∀ e ∈ t.entries, P e)

include h ht

theorem push {e : Entry} (he : P e) : ∀ x ∈ (t.push e).entries, P x := by
  intro x hx
  rw [entries_push, List.mem_append, List.mem_singleton] at hx
  rcases hx with hx | rfl
  · exact ht x hx
  · rw [clamp]
    split
    · rename_i previous hlast
      exact h.later he (ht previous (List.mem_of_getLast? hlast))
    · exact he

theorem replaceLast (id : Uuid) (message : String) :
    ∀ x ∈ (t.replaceLast id message).entries, P x := by
  rw [Transcript.replaceLast]
  split
  · rename_i e hlast
    split
    · intro x hx
      rw [List.mem_append, List.mem_singleton] at hx
      rcases hx with hx | rfl
      · exact ht x (List.dropLast_subset _ hx)
      · exact h.words message (ht e (List.mem_of_getLast? hlast))
    · exact ht
  · exact ht

theorem apply {c : Change} (hc : c.Adds P) : ∀ x ∈ (t.apply c).entries, P x := by
  cases c with
  | append stamp intent speaker message => exact h.push ht hc
  | push e => exact h.push ht hc
  | replaceLast id message => exact h.replaceLast ht id message
  | clear =>
    intro x hx
    cases hx
  | load text =>
    rw [Transcript.apply]
    split
    · rename_i loaded hloaded
      exact h.loaded hloaded
    · exact ht

theorem foldl {changes : List Change} (hchanges : ∀ c ∈ changes, c.Adds P) :
    ∀ x ∈ (changes.foldl Transcript.apply t).entries, P x := by
  induction changes generalizing t with
  | nil => exact ht
  | cons c changes ih =>
    exact ih (h.apply ht (hchanges c (by simp))) fun x hx => hchanges x (by simp [hx])

end Lasting

theorem Lasting.after {P : Entry → Prop} (h : Lasting P) {changes : List Change}
    (hchanges : ∀ c ∈ changes, c.Adds P) : ∀ x ∈ (after changes).entries, P x :=
  h.foldl (by simp [empty]) hchanges

theorem lasting_isInt64 : Lasting fun e => isInt64 e.intent = true where
  later he _ := he
  words _ he := he
  loaded hs e he := (isInt64_regular_of_ofJsonText hs e he).1

theorem lasting_regular : Lasting fun e => e.time.Regular where
  later he hprevious := he.latest hprevious
  words _ he := he
  loaded hs e he := (isInt64_regular_of_ofJsonText hs e he).2

/-- `back` is what was said in `e`; the time is the same, unless it is a leap second that does
    not end a minute: then it is the second behind it. -/
structure ReadBack (e back : Entry) : Prop where
  id : back.id = e.id
  intent : back.intent = e.intent
  speaker : back.speaker = e.speaker
  message : back.message = e.message
  time : e.time.Regular → back.time = e.time
  leap : ¬ e.time.Regular → back.time.utc.date = e.time.utc.date ∧
    back.time.utc.time.hour = e.time.utc.time.hour ∧
    back.time.utc.time.minute = e.time.utc.time.minute ∧
    back.time.utc.time.second = e.time.utc.time.second + 1 ∧
    back.time.utc.time.nanosecond + nanosPerSecond = e.time.utc.time.nanosecond

theorem readBack_settled (e : Entry) : ReadBack e e.settled where
  id := rfl
  intent := rfl
  speaker := rfl
  message := rfl
  time := Instant.settled_eq_self_iff.mpr
  leap hleap := by
    have hlong := (TimeOfDay.not_regular_iff.mp hleap).1
    have htime : e.settled.time.utc.time = _ := TimeOfDay.settled_of_not_regular hleap
    rw [htime]
    exact ⟨rfl, rfl, rfl, rfl, Nat.sub_add_cancel hlong⟩

/-- Whatever was said, replaced, dropped and loaded: the text of the transcript gives
    every entry back, and is the text of what it gives.  It gives the transcript itself
    if and only if no time in it is a leap second that does not end a minute, and
    there is none if none was added. -/
theorem ofJsonText_jsonText_after {changes : List Change} (h : ∀ c ∈ changes, c.Fits) :
    ∃ back, ofJsonText (after changes).jsonText = .ok back ∧
      List.Forall₂ ReadBack (after changes).entries back.entries ∧
      back.jsonText = (after changes).jsonText ∧
      (back = after changes ↔ ∀ e ∈ (after changes).entries, e.time.Regular) ∧
      ((∀ c ∈ changes, c.Regular) → back = after changes) := by
  have hread := ofJsonText_jsonText (lasting_isInt64.after h)
  refine ⟨_, hread, ?_, jsonText_settled _, settled_eq_self_iff, ?_⟩
  · rw [settled, List.forall₂_map_right_iff, List.forall₂_same]
    intro e _
    exact readBack_settled e
  · intro hregular
    exact settled_eq_self_iff.mpr (lasting_regular.after hregular)

/-- A history with both ends of the integers, leap seconds, years with a sign, and
    words that have to be escaped; the text it loads is not one that is written. -/
def oddities : List Change :=
  [ .append ⟨Uuid.random 1, ⟨⟨⟨2024, 2, 29, by decide⟩, ⟨23, 59, 59, 1500000000, by decide⟩⟩⟩⟩
      9223372036854775807 .user "dropped by the next change",
    .load r#"[["00000000000040008000000000000001",-9223372036854775808,"system",
      "\ud83d\ude00\u0001","-1-12-31 23:59:60Z"]]"#,
    .push
      { id := Uuid.random 2, intent := 9223372036854775807, speaker := .assistant,
        message := "\"\\ \x01\x7f\n😀",
        time := ⟨⟨⟨262142, 12, 31, by decide⟩, ⟨23, 59, 59, 1999999999, by decide⟩⟩⟩ },
    .replaceLast (Uuid.random 3) "not the last one" ]

/-- Half a second into a leap second in the middle of a minute. -/
def outOfPlace : Entry where
  id := Uuid.random 4
  intent := 5
  speaker := .user
  message := "What time is it?"
  time := ⟨⟨⟨1998, 12, 31, by decide⟩, ⟨12, 0, 30, 1500000000, by decide⟩⟩⟩

theorem fits_push_outOfPlace : ∀ c ∈ [Change.push outOfPlace], c.Fits := by
  simp [Change.Fits, Change.Adds, outOfPlace, isInt64]

theorem ofJsonText_jsonText_after_oddities :
    (after oddities).entries.map (fun e => (e.intent, e.speaker, e.message, e.time.text))
        = [ (-9223372036854775808, .system, "😀\x01", "-0001-12-31T23:59:60Z"),
            (9223372036854775807, .assistant, "\"\\ \x01\x7f\n😀",
              "+262142-12-31T23:59:60.999999999Z") ] ∧
      ofJsonText (after oddities).jsonText = .ok (after oddities) ∧
      ∃ back, ofJsonText (after [.push outOfPlace]).jsonText = .ok back ∧
        List.Forall₂ ReadBack [outOfPlace] back.entries := by
  have hfits : ∀ c ∈ oddities, c.Fits := by simp [oddities, Change.Fits, Change.Adds, isInt64]
  have hregular : ∀ c ∈ oddities, c.Regular := by
    simp +decide [oddities, Change.Regular, Change.Adds]
  refine ⟨by decide +kernel, ?_, ?_⟩
  · obtain ⟨back, hback, _, _, _, hsame⟩ := ofJsonText_jsonText_after hfits
    rw [hback, hsame hregular]
  · obtain ⟨back, hback, hentries, _⟩ := ofJsonText_jsonText_after fits_push_outOfPlace
    exact ⟨back, hback, hentries⟩

/-- In the middle of a minute a leap second comes back as the second behind it. -/
theorem ofJsonText_jsonText_after_outOfPlace :
    (∀ c ∈ [Change.push outOfPlace], c.Fits) ∧ (after [.push outOfPlace]).entries = [outOfPlace] ∧
      outOfPlace.time.text = "1998-12-31T12:00:31.500Z" ∧
      ofJsonText (after [.push outOfPlace]).jsonText = .ok
        ⟨[{ outOfPlace with
          time := ⟨⟨⟨1998, 12, 31, by decide⟩, ⟨12, 0, 31, 500000000, by decide⟩⟩⟩ }]⟩ ∧
      ofJsonText (after [.push outOfPlace]).jsonText ≠ .ok (after [.push outOfPlace]) := by
  have hread := ofJsonText_jsonText (lasting_isInt64.after fits_push_outOfPlace)
  refine ⟨fits_push_outOfPlace, rfl, by decide +kernel, ?_, ?_⟩
  · rw [hread]
    rfl
  · intro hsame
    have hregular := (ofJsonText_jsonText_iff.mp hsame).2 outOfPlace (List.mem_singleton_self _)
    exact absurd hregular (by decide)

end Transcript

end Datebook
