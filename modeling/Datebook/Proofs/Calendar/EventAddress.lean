/-
  Datebook/Proofs/Calendar/EventAddress.lean
  ==========================================
  **Where the request for an event goes.**

  The address of an event is the address of the collection with a slash and the id
  behind it, and the id is put there as it is.  An id that nobody has listed can be any
  text, as a command that refers to an unknown schedule hands the reference on.

  The request for it always goes to the server of the collection, under the same name and
  password.  It goes to one segment below the collection, and the id is read from that
  segment, if and only if the id is an `IsSegment` and the settings have put neither query
  nor fragment in the collection's address (`event_request_extends_collection_iff`).
  Other ids lead somewhere else, and `event_request_leaves_mailbox` follows one to the
  mailbox of another user.
-/
import Datebook.Proofs.Calendar.Change
import Datebook.Proofs.Url.Segment
import Datebook.Settings.Validation

namespace Datebook

open Http

theorem Http.Request.read?_of_make? {method : Method} {address body : String}
    {headers : List (String × String)} {r : Request}
    (h : Request.make? method address [] headers body = .ok r) :
    Url.read? address = some r.url := by
  rw [Request.make?] at h
  split at h
  · cases h
  · rename_i url hurl
    split at h
    · cases h
      exact hurl
    · cases h

namespace GraphCalendar

namespace Change

/-- The id of the event to change; a new one has none yet. -/
def eventId? : Change → Option String
  | .add _ => none
  | .update id _ | .delete id => some id

variable {g : GraphCalendar} {c : Change} {t r : Request} {token id : String} {n : Network}

theorem address_of_eventId? (h : c.eventId? = some id) : c.address g = g.eventUrl id := by
  cases c with
  | add d => cases h
  | update id' d =>
    cases h
    rfl
  | delete id' =>
    cases h
    rfl

/-- A request goes to the address of its change. -/
theorem read?_of_request (h : c.request g token = .ok r) :
    Url.read? (c.address g) = some r.url := by
  cases c with
  | add d =>
    rw [request] at h
    rw [address, Request.read?_of_make? h]
  | update id d =>
    rw [request] at h
    rw [address, Request.read?_of_make? h]
  | delete id =>
    rw [request] at h
    rw [address, Request.read?_of_make? h]

theorem url_of_request {v : Url} (hc : c.eventId? = some id) (hr : c.request g token = .ok r)
    (hv : Url.read? (g.eventUrl id) = some v) : r.url = v := by
  have hread := read?_of_request hr
  rw [address_of_eventId? hc, hv] at hread
  exact (Option.some.inj hread).symm

/-- Whatever its answer, the request is the last that is sent. -/
theorem sent_perform (ht : g.tokenRequest = .ok t) (htoken : Holds readToken? n.answer token)
    (hr : c.request g token = .ok r) : (c.perform g n).2.sent = n.sent ++ [t, r] := by
  obtain ⟨result, hperform, _⟩ := exists_result ht htoken hr
  rw [hperform]

end Change

variable (g : GraphCalendar)

/-- Nothing of the id is lost or takes effect behind the collection's address. -/
structure OneSegment (id : String) : Prop where
  no_query : '?' ∉ g.eventsUrl.toList
  no_fragment : '#' ∉ g.eventsUrl.toList
  isSegment : Url.IsSegment id.toList

variable {g}

/-- What the address of an event reads as, beside that of the collection. -/
theorem exists_read?_eventUrl {u : Url} (hu : Url.read? g.eventsUrl = some u) (id : String) :
    ∃ v, Url.read? (g.eventUrl id) = some v ∧ Url.SameServer u v ∧
      ((u.Extends id v ∧ '#' ∉ (g.eventUrl id).toList) ↔ g.OneSegment id) := by
  have hevents : g.eventsUrl.toList =
      (g.graphUrl ++ "/users/" ++ g.user ++ "/calenda").toList ++
        'r' :: '/' :: ("event".toList ++ ['s']) := by
    simp [eventsUrl]
  have hevent : (g.eventUrl id).toList =
      ((g.graphUrl ++ "/users/" ++ g.user ++ "/calenda").toList ++ 'r' :: '/' :: "event".toList) ++
        's' :: '/' :: id.toList := by
    simp [eventUrl, eventsUrl]
  rw [Url.read?, hevents] at hu
  obtain ⟨v, hv, hserver, hiff⟩ := Url.extends_iff ⟨by decide, by decide, by decide⟩
    ⟨by decide, by decide, by decide⟩ (by decide) hu id
  rw [← hevent] at hv hiff
  rw [← hevents] at hiff
  refine ⟨v, hv, hserver, hiff.trans ?_⟩
  exact ⟨fun h => ⟨h.1.1, h.1.2, h.2⟩, fun h => ⟨⟨h.no_query, h.no_fragment⟩, h.isSegment⟩⟩

/-- **The request for an event goes one segment below the collection**, and says its id
    there, if and only if nothing in the id is taken for more than a part of a segment.
    It goes to the same server in every case.  Two such ids never share a target. -/
theorem event_request_extends_collection_iff (g : GraphCalendar) {u : Url}
    (hu : Url.read? g.eventsUrl = some u) (htokenUrl : (Url.read? g.tokenUrl).isSome)
    {c : Change} {id : String} (hc : c.eventId? = some id) {n : Network} {token : String}
    (htoken : Holds readToken? n.answer token) (hvalue : isHeaderValue token) :
    ∃ t r, g.tokenRequest = .ok t ∧ c.request g token = .ok r ∧
      (c.perform g n).2.sent = n.sent ++ [t, r] ∧
      Url.SameServer u r.url ∧
      ((u.Extends id r.url ∧ '#' ∉ (g.eventUrl id).toList) ↔ g.OneSegment id) ∧
      ∀ {c' : Change} {id' token' : String} {r' : Request}, c'.eventId? = some id' →
        c'.request g token' = .ok r' → g.OneSegment id → g.OneSegment id' →
        r.url.target = r'.url.target → id = id' := by
  obtain ⟨t, ht⟩ := exists_tokenRequest htokenUrl
  obtain ⟨v, hv, hserver, hiff⟩ := exists_read?_eventUrl hu id
  have haddress : c.address g = g.eventUrl id := Change.address_of_eventId? hc
  obtain ⟨r, hr, _⟩ := Change.exists_request
    (show (Url.read? (c.address g)).isSome by rw [haddress, hv]; rfl) hvalue
  obtain rfl := Change.url_of_request hc hr hv
  refine ⟨t, r, ht, hr, Change.sent_perform ht htoken hr, hserver, hiff, ?_⟩
  intro c' id' token' r' hc' hr' hid hid' htarget
  obtain ⟨v', hv', _, hiff'⟩ := exists_read?_eventUrl hu id'
  obtain rfl := Change.url_of_request hc' hr' hv'
  exact (hiff.mpr hid).1.target_injective (hiff'.mpr hid').1 htarget

/-- An id that must be escaped: a blank, a percent sign that starts no escape, a dot
    at the end and a character of two bytes. -/
theorem event_request_extends_collection_iff_escaped :
    let g : GraphCalendar := ⟨"t", "c", "s", "ada", "http://g/v1.0", "http://a", "UTC"⟩
    let c : Change := .delete "50% für=."
    let n : Network := ⟨[.ok ⟨200, "\x7b\"access_token\":\"t\"\x7d"⟩, .ok ⟨204, ""⟩], []⟩
    ∃ u, Url.read? g.eventsUrl = some u ∧ (Url.read? g.tokenUrl).isSome ∧
      c.eventId? = some "50% für=." ∧ Holds readToken? n.answer "t" ∧ isHeaderValue "t" ∧
      ∃ t r, (c.perform g n).2.sent = [t, r] ∧ u.Extends "50% für=." r.url := by
  intro g c n
  have hevents : (Url.read? g.eventsUrl).isSome := by decide +kernel
  obtain ⟨u, hu⟩ := Option.isSome_iff_exists.mp hevents
  have htokenUrl : (Url.read? g.tokenUrl).isSome := by decide +kernel
  have htoken : Holds readToken? n.answer "t" := ⟨_, rfl, by decide, by decide +kernel⟩
  have hsegment : g.OneSegment "50% für=." :=
    ⟨by decide +kernel, by decide +kernel, by decide +kernel⟩
  obtain ⟨t, r, _, _, hsent, _, hiff, _⟩ :=
    event_request_extends_collection_iff g hu htokenUrl (c := c) rfl htoken (by decide)
  exact ⟨u, hu, htokenUrl, rfl, htoken, by decide, t, r, hsent, (hiff.mpr hsegment).1⟩

/-- **An id can leave the mailbox.**  The settings are accepted and name the mailbox of
    one user.  The deletion of an event whose id goes up to the users is sent to the
    calendar of another. -/
theorem event_request_leaves_mailbox :
    let s : Settings :=
      { Settings.initial with
        calendar :=
          { CalendarSettings.initial with
            tenant := "t", clientId := "c", clientSecret := some "s", user := "ada"
            graphUrl := "http://g/v1.0", authorityUrl := "http://a" } }
    let id := "../../../bob/calendar/events/1"
    let n : Network := ⟨[.ok ⟨200, "\x7b\"access_token\":\"t\"\x7d"⟩, .ok ⟨204, ""⟩], []⟩
    s.validate = .ok () ∧
      ∃ g u t r, ofSettings s.calendar = .ok g ∧ Url.read? g.eventsUrl = some u ∧
        u.target = "/v1.0/users/ada/calendar/events" ∧
        ((Change.delete id).perform g n).2.sent = [t, r] ∧
        r.url.target = "/v1.0/users/bob/calendar/events/1" ∧ ¬ u.Extends id r.url := by
  intro s id n
  have hvalid : s.validate = .ok () := by decide +kernel
  let g : GraphCalendar := ⟨"t", "c", "s", "ada", "http://g/v1.0", "http://a", "UTC"⟩
  have hg : ofSettings s.calendar = .ok g := by decide +kernel
  have htokenUrl : (Url.read? g.tokenUrl).isSome := by decide +kernel
  let ada : Url :=
    ⟨false, ("", ""), .name "g", 80, ["v1.0", "users", "ada", "calendar", "events"], none⟩
  let bob : Url :=
    ⟨false, ("", ""), .name "g", 80, ["v1.0", "users", "bob", "calendar", "events", "1"], none⟩
  have hada : Url.read? g.eventsUrl = some ada := by decide +kernel
  have hbob : Url.read? (g.eventUrl id) = some bob := by decide +kernel
  have htoken : Holds readToken? n.answer "t" := ⟨_, rfl, by decide, by decide +kernel⟩
  obtain ⟨t, ht⟩ := exists_tokenRequest htokenUrl
  obtain ⟨r, hr, _⟩ := Change.exists_request
    (show (Url.read? ((Change.delete id).address g)).isSome by rw [Change.address, hbob]; rfl)
    (show isHeaderValue "t" by decide)
  have hurl : r.url = bob := Change.url_of_request rfl hr hbob
  refine ⟨hvalid, g, ada, t, r, hg, hada, by decide, Change.sent_perform ht htoken hr, ?_, ?_⟩
  · rw [hurl]
    decide
  · rintro ⟨segment, hextends, _⟩
    rw [hurl] at hextends
    have hpath := congrArg Url.path hextends
    simp [bob, ada] at hpath

end GraphCalendar

end Datebook
