/-
  Datebook/Proofs/Calendar/Change.lean
  ====================================
  **A mailbox is asked to change at most once.**

  `Change` has the three operations that change a mailbox as data, each with the one
  request it makes under its token.  The answer to that request decides everything:
  either it says that the change was made (`Made`), or the change is lost
  (`Lost`), and the operation returns accordingly without asking again.  A change
  or deletion is made as soon as the answer is a success, whatever its body; a new
  event must also have an id, the string under `id` in the body.

  The token is the string under `access_token` in the first answer, and the request
  says `Bearer` and the token in its header.  Without a token nothing is asked.  A
  token that no header may carry ends the operation as well, before anything is sent
  under it.
-/
import Datebook.Proofs.Calendar.Exchange

namespace Datebook.GraphCalendar

open Http

/-! ### Changes and their requests -/

inductive Change where
  | add (d : EventDetails)
  | update (id : String) (d : EventDetails)
  | delete (id : String)
  deriving DecidableEq, Repr

namespace Change

variable (g : GraphCalendar)

/-- Where the change is sent. -/
def address : Change → String
  | .add _ => g.eventsUrl
  | .update id _ | .delete id => g.eventUrl id

/-- The request that asks for the change. -/
def request (token : String) : Change → Except Fault Request
  | .add d =>
    Request.make? .post g.eventsUrl [] [bearer token, jsonContent] (g.newEventJson d).text
  | .update id d =>
    Request.make? .patch (g.eventUrl id) [] [bearer token, jsonContent] (g.changedEventJson d).text
  | .delete id => Request.make? .delete (g.eventUrl id) [] [bearer token] ""

/-- Do it, over a network.  A new event has an id, the others return nothing. -/
def perform (c : Change) (n : Network) : Except Failure (Option String) × Network :=
  match c with
  | .add d =>
    let (result, n) := (g.service Network.transport).add d n
    (result.map some, n)
  | .update id d =>
    let (result, n) := (g.service Network.transport).update id d n
    (result.map fun _ => none, n)
  | .delete id =>
    let (result, n) := (g.service Network.transport).delete id n
    (result.map fun _ => none, n)

/-- The answer says that the change was made, and under which id a new event was. -/
inductive Made : Change → Answer → Option String → Prop where
  | added (d : EventDetails) {answer : Answer} {id : String} (h : Brings "id" answer id) :
      Made (.add d) answer (some id)
  | updated (id : String) (d : EventDetails) {response : Response}
      (h : 200 ≤ response.status ∧ response.status < 300) :
      Made (.update id d) (.ok response) none
  | deleted (id : String) {response : Response}
      (h : 200 ≤ response.status ∧ response.status < 300) :
      Made (.delete id) (.ok response) none

/-- Why an answer does not say so. -/
inductive Lost : Change → Answer → CalendarFault → Prop where
  | dropped (c : Change) (fault : Fault) : Lost c (.error fault) (.exchange fault)
  | refused (c : Change) {response : Response}
      (h : ¬ (200 ≤ response.status ∧ response.status < 300)) :
      Lost c (.ok response) (.refused response.status response.text)
  /-- An event without an id. -/
  | undecodable (d : EventDetails) {response : Response}
      (hsuccess : 200 ≤ response.status ∧ response.status < 300)
      (hbody : ∀ id, ¬ Brings "id" (.ok response) id) :
      Lost (.add d) (.ok response) (.exchange .undecodable)

/-- Every answer is one or the other. -/
theorem made_or_lost (c : Change) (answer : Answer) :
    (∃ made, c.Made answer made) ∨ ∃ fault, c.Lost answer fault := by
  cases answer with
  | error fault => exact .inr ⟨_, .dropped c fault⟩
  | ok response =>
    by_cases hsuccess : 200 ≤ response.status ∧ response.status < 300
    · cases c with
      | add d =>
        by_cases hid : ∃ id, Brings "id" (.ok response) id
        · obtain ⟨id, hid⟩ := hid
          exact .inl ⟨_, .added d hid⟩
        · exact .inr ⟨_, .undecodable d hsuccess (not_exists.mp hid)⟩
      | update id d => exact .inl ⟨_, .updated id d hsuccess⟩
      | delete id => exact .inl ⟨_, .deleted id hsuccess⟩
    · exact .inr ⟨_, .refused c hsuccess⟩

/-! ### The request is made once -/

variable {g} {c : Change} {t r : Request} {token : String} {fault : CalendarFault}
  {made : Option String} {n : Network}

theorem exists_request (haddress : (Url.read? (c.address g)).isSome) (htoken : isHeaderValue token) :
    ∃ r, c.request g token = .ok r ∧ ("authorization", "Bearer " ++ token) ∈ r.headers := by
  have hbearer := isHeaderValue_bearer htoken
  have hjson : isHeaderValue jsonContent.2 := by decide
  cases c with
  | add d =>
    obtain ⟨r, hr, hheaders⟩ := Request.exists_make? .post [] [bearer token, jsonContent]
      (g.newEventJson d).text haddress (by simp [hbearer, hjson])
    exact ⟨r, hr, hheaders _ List.mem_cons_self⟩
  | update id d =>
    obtain ⟨r, hr, hheaders⟩ := Request.exists_make? .patch [] [bearer token, jsonContent]
      (g.changedEventJson d).text haddress (by simp [hbearer, hjson])
    exact ⟨r, hr, hheaders _ List.mem_cons_self⟩
  | delete id =>
    obtain ⟨r, hr, hheaders⟩ := Request.exists_make? .delete [] [bearer token] "" haddress
      (by simp [hbearer])
    exact ⟨r, hr, hheaders _ List.mem_cons_self⟩

/-- Without a token nothing is asked. -/
theorem perform_of_token_fails (ht : g.tokenRequest = .ok t)
    (h : Fails readToken? n.answer fault) :
    c.perform g n = (.error (.calendar fault), n.after t) := by
  cases c with
  | add d =>
    simp only [perform, service, GraphCalendar.add, withToken_of_fails _ ht h]
    rfl
  | update id d =>
    simp only [perform, service, GraphCalendar.update, withToken_of_fails _ ht h]
    rfl
  | delete id =>
    simp only [perform, service, GraphCalendar.delete, withToken_of_fails _ ht h]
    rfl

section

variable (ht : g.tokenRequest = .ok t) (htoken : Holds readToken? n.answer token)

include ht htoken

theorem perform_add {d : EventDetails} {request : Except Fault Request} {n' : Network}
    {result : Except Failure String} (hr : (Change.add d).request g token = request)
    (h : fetch Network.transport request readCreated? (n.after t) = (result, n')) :
    (Change.add d).perform g n = (result.map some, n') := by
  subst hr
  simp only [Change.request] at h
  simp only [perform, service, GraphCalendar.add, withToken_of_holds _ ht htoken, h]

theorem perform_update {id : String} {d : EventDetails} {request : Except Fault Request}
    {n' : Network} {result : Except Failure Response}
    (hr : (Change.update id d).request g token = request)
    (h : exchange Network.transport request (n.after t) = (result, n')) :
    (Change.update id d).perform g n = (result.map fun _ => none, n') := by
  subst hr
  simp only [Change.request] at h
  simp only [perform, service, GraphCalendar.update, withToken_of_holds _ ht htoken, bind,
    StateT.bind, h]
  cases result with
  | error failure => rfl
  | ok response => rfl

theorem perform_delete {id : String} {request : Except Fault Request} {n' : Network}
    {result : Except Failure Response} (hr : (Change.delete id).request g token = request)
    (h : exchange Network.transport request (n.after t) = (result, n')) :
    (Change.delete id).perform g n = (result.map fun _ => none, n') := by
  subst hr
  simp only [Change.request] at h
  simp only [perform, service, GraphCalendar.delete, withToken_of_holds _ ht htoken, bind,
    StateT.bind, h]
  cases result with
  | error failure => rfl
  | ok response => rfl

theorem perform_of_made (hr : c.request g token = .ok r) (h : c.Made (n.after t).answer made) :
    c.perform g n = (.ok made, (n.after t).after r) := by
  generalize hanswer : (n.after t).answer = answer at h
  cases h with
  | added d h =>
    rw [← hanswer] at h
    exact perform_add ht htoken hr (fetch_of_holds r (holds_readCreated?_iff.mpr h))
  | updated id d h => exact perform_update ht htoken hr (exchange_of_success r hanswer h)
  | deleted id h => exact perform_delete ht htoken hr (exchange_of_success r hanswer h)

theorem perform_of_lost (hr : c.request g token = .ok r) (h : c.Lost (n.after t).answer fault) :
    c.perform g n = (.error (.calendar fault), (n.after t).after r) := by
  generalize hanswer : (n.after t).answer = answer at h
  cases c with
  | add d =>
    have hfails : Fails readCreated? answer fault := by
      cases h with
      | dropped _ fault => exact .dropped fault
      | refused _ h => exact .refused _ h
      | undecodable _ hsuccess hbody =>
        refine .undecodable _ hsuccess (Option.eq_none_iff_forall_ne_some.mpr ?_)
        intro id hid
        exact hbody id (holds_readCreated?_iff.mp ⟨_, rfl, hsuccess, hid⟩)
    rw [← hanswer] at hfails
    exact perform_add ht htoken hr (fetch_of_fails r hfails)
  | update id d =>
    cases h with
    | dropped _ fault => exact perform_update ht htoken hr (exchange_of_dropped r hanswer)
    | refused _ h => exact perform_update ht htoken hr (exchange_of_refused r hanswer h)
  | delete id =>
    cases h with
    | dropped _ fault => exact perform_delete ht htoken hr (exchange_of_dropped r hanswer)
    | refused _ h => exact perform_delete ht htoken hr (exchange_of_refused r hanswer h)

/-- The answer to the one request decides, and the request is the last that is sent. -/
theorem exists_result (hr : c.request g token = .ok r) :
    ∃ result, c.perform g n = (result, ⟨n.answers.tail.tail, n.sent ++ [t, r]⟩) ∧
      (∀ made, result = .ok made ↔ c.Made (n.after t).answer made) ∧
      ∀ failure, result = .error failure →
        ∃ fault, failure = .calendar fault ∧ c.Lost (n.after t).answer fault := by
  have hsent : (n.after t).after r = ⟨n.answers.tail.tail, n.sent ++ [t, r]⟩ := by
    simp [Network.after]
  have hmade : ∀ {made}, c.Made (n.after t).answer made →
      c.perform g n = (.ok made, ⟨n.answers.tail.tail, n.sent ++ [t, r]⟩) := by
    intro made h
    rw [perform_of_made ht htoken hr h, hsent]
  rcases c.made_or_lost (n.after t).answer with ⟨made, h⟩ | ⟨fault, h⟩
  · refine ⟨.ok made, hmade h, ?_, ?_⟩
    · intro made'
      constructor
      · intro heq
        cases heq
        exact h
      · intro h'
        exact congrArg Prod.fst ((hmade h).symm.trans (hmade h'))
    · intro failure heq
      cases heq
  · have hlost : c.perform g n =
        (.error (.calendar fault), ⟨n.answers.tail.tail, n.sent ++ [t, r]⟩) := by
      rw [perform_of_lost ht htoken hr h, hsent]
    refine ⟨.error (.calendar fault), hlost, ?_, ?_⟩
    · intro made
      constructor
      · intro heq
        cases heq
      · intro h'
        exact congrArg Prod.fst (hlost.symm.trans (hmade h'))
    · intro failure heq
      cases heq
      exact ⟨fault, rfl, h⟩

/-- What cannot be put together is not sent. -/
theorem perform_of_unsendable {fault : Fault} (hr : c.request g token = .error fault) :
    c.perform g n = (.error (.calendar (.exchange fault)), n.after t) := by
  cases c with
  | add d => exact perform_add ht htoken hr rfl
  | update id d => exact perform_update ht htoken hr rfl
  | delete id => exact perform_delete ht htoken hr rfl

end

theorem request_of_not_isHeaderValue (haddress : (Url.read? (c.address g)).isSome)
    (htoken : ¬ isHeaderValue token) : c.request g token = .error .malformed := by
  obtain ⟨url, hurl⟩ := Option.isSome_iff_exists.mp haddress
  have hbearer : isHeaderValue (bearer token).2 = false := by
    rw [Bool.eq_false_iff]
    intro h
    rw [bearer, isHeaderValue, String.toList_append, List.all_append, Bool.and_eq_true] at h
    exact htoken h.2
  cases c with
  | add d =>
    rw [address] at hurl
    simp [request, Request.make?, hurl, hbearer]
  | update id d =>
    rw [address] at hurl
    simp [request, Request.make?, hurl, hbearer]
  | delete id =>
    rw [address] at hurl
    simp [request, Request.make?, hurl, hbearer]

end Change

/-- **A mailbox is asked to change at most once.**  The request for a token comes first.
    If its answer brings no `access_token`, nothing else is sent and the failure is the
    calendar's.  Otherwise one request follows, with that token in its header, and
    whatever the answer, no other: the change succeeds if and only if the answer says
    that it was made, and every other answer is a failure of the calendar.  If no header
    may carry the token, nothing follows. -/
theorem changes_at_most_once (g : GraphCalendar) (c : Change)
    (htokenUrl : (Url.read? g.tokenUrl).isSome) (haddress : (Url.read? (c.address g)).isSome)
    (n : Network) :
    ∃ t, g.tokenRequest = .ok t ∧
      ((¬ ∃ token, Brings "access_token" n.answer token) →
        ∃ fault, Fails readToken? n.answer fault ∧
          c.perform g n = (.error (.calendar fault), ⟨n.answers.tail, n.sent ++ [t]⟩)) ∧
      ∀ token, Brings "access_token" n.answer token →
        (isHeaderValue token →
          ∃ r, c.request g token = .ok r ∧ ("authorization", "Bearer " ++ token) ∈ r.headers ∧
            ∃ result, c.perform g n = (result, ⟨n.answers.tail.tail, n.sent ++ [t, r]⟩) ∧
              (∀ made, result = .ok made ↔ c.Made (n.after t).answer made) ∧
              ∀ failure, result = .error failure →
                ∃ fault, failure = .calendar fault ∧ c.Lost (n.after t).answer fault) ∧
        (¬ isHeaderValue token →
          c.perform g n =
            (.error (.calendar (.exchange .malformed)), ⟨n.answers.tail, n.sent ++ [t]⟩)) := by
  obtain ⟨t, ht⟩ := exists_tokenRequest htokenUrl
  refine ⟨t, ht, ?_, ?_⟩
  · intro hnone
    have hnoToken : ¬ ∃ token, Holds readToken? n.answer token := by
      rintro ⟨token, htoken⟩
      exact hnone ⟨token, holds_readToken?_iff.mp htoken⟩
    obtain ⟨fault, hfails⟩ := (holds_or_fails readToken? n.answer).resolve_left hnoToken
    exact ⟨fault, hfails, Change.perform_of_token_fails ht hfails⟩
  intro token htoken
  rw [← holds_readToken?_iff] at htoken
  constructor
  · intro hvalue
    obtain ⟨r, hr, hbearer⟩ := Change.exists_request haddress hvalue
    exact ⟨r, hr, hbearer, Change.exists_result ht htoken hr⟩
  · intro hvalue
    exact Change.perform_of_unsendable ht htoken
      (Change.request_of_not_isHeaderValue haddress hvalue)

/-- A deletion that the server puts off: the failure is returned, and the success that
    waits behind it is never asked for. -/
theorem changes_at_most_once_put_off :
    let g : GraphCalendar := ⟨"t", "c", "s", "u", "http://g", "http://a", "UTC"⟩
    let tokenAnswer : Answer :=
      .ok ⟨200, "\x7b\"token_type\":\"Bearer\",\"access_token\":\"eyJ0\"\x7d"⟩
    let n : Network := ⟨[tokenAnswer, .ok ⟨503, "later"⟩, .ok ⟨204, ""⟩], []⟩
    (Url.read? g.tokenUrl).isSome ∧ (Url.read? ((Change.delete "5").address g)).isSome ∧
      Brings "access_token" n.answer "eyJ0" ∧
      ∃ t r, (Change.delete "5").perform g n =
          (.error (.calendar (.refused 503 "later")), ⟨[.ok ⟨204, ""⟩], [t, r]⟩) ∧
        ("authorization", "Bearer eyJ0") ∈ r.headers := by
  intro g tokenAnswer n
  have htokenUrl : (Url.read? g.tokenUrl).isSome := by decide +kernel
  have haddress : (Url.read? ((Change.delete "5").address g)).isSome := by decide +kernel
  have htoken : Brings "access_token" n.answer "eyJ0" :=
    holds_readToken?_iff.mp ⟨_, rfl, by decide, by decide +kernel⟩
  obtain ⟨t, _, _, hasked⟩ := changes_at_most_once g (.delete "5") htokenUrl haddress n
  obtain ⟨r, _, hbearer, result, hperform, hok, hfailure⟩ := (hasked "eyJ0" htoken).1 (by decide)
  refine ⟨htokenUrl, haddress, htoken, t, r, ?_, hbearer⟩
  rw [hperform]
  cases result with
  | ok made => cases (hok made).mp rfl with | deleted _ h => exact absurd h.2 (by decide)
  | error failure =>
    obtain ⟨fault, rfl, hlost⟩ := hfailure failure rfl
    cases hlost with
    | refused _ h => rfl

end Datebook.GraphCalendar
