/-
  Datebook/Proofs/Calendar/Exchange.lean
  ======================================
  **One request of a mailbox, over any network.**

  `Network` is the environment: it gives its answers in order, whatever is asked
  and whoever is addressed, and keeps every request.  Any behaviour of servers and
  lines during a run is such a sequence, so what is shown for all networks holds
  against all of them.

  `Holds` and `Fails` say what an answer is worth to a client that wants a record:
  a success whose body reads as the record, or one of three failures.  Every answer
  is one or the other, and `fetch` returns accordingly after a single request.

  A token and the id of a new event are strings in records of one field.  Of these
  `Brings` says the same without a reader, from the body's JSON: which name the string
  stands under (`holds_readToken?_iff`, `holds_readCreated?_iff`).
-/
import Datebook.Calendar.Graph
import Datebook.Proofs.Json.Record

namespace Datebook

namespace Http

/-! ### Networks -/

abbrev Answer : Type := Except Fault Response

/-- The answers still to come, and the requests sent so far. -/
structure Network where
  answers : List Answer
  sent : List Request

namespace Network

/-- The next answer; behind the last one every connection drops. -/
def answer (n : Network) : Answer := n.answers.headD (.error .unanswered)

def after (n : Network) (r : Request) : Network := ⟨n.answers.tail, n.sent ++ [r]⟩

/-- The patience is one more than the answers left, so it never ends a run that
    the network would have gone on with. -/
def transport : Transport (StateM Network) where
  send := fun r n => (n.answer, n.after r)
  patience := fun n => (n.answers.length + 1, n)

end Network

/-! ### Requests that can be put together -/

theorem userInfo_addQuery (u : Url) (pairs : List (String × String)) :
    (u.addQuery pairs).userInfo = u.userInfo := by
  rw [Url.addQuery]
  cases u.query with
  | none => rfl
  | some q => rfl

theorem Request.make?_of_read {address : String} {url : Url} (method : Method)
    (query : List (String × String)) {headers : List (String × String)} (body : String)
    (haddress : Url.read? address = some url) (hheaders : ∀ h ∈ headers, isHeaderValue h.2) :
    Request.make? method address query headers body =
      .ok { method, url := if query.isEmpty then url else url.addQuery query
            headers := credentials url.userInfo ++ headers, body } := by
  have hall : (headers.all fun h => isHeaderValue h.2) = true := List.all_eq_true.mpr hheaders
  rw [Request.make?, haddress]
  simp only [hall, if_true]
  split
  · rfl
  · rw [userInfo_addQuery]

/-- A usable address and usable headers make a request, and it carries the headers. -/
theorem Request.exists_make? (method : Method) {address : String}
    (query headers : List (String × String)) (body : String)
    (haddress : (Url.read? address).isSome) (hheaders : ∀ h ∈ headers, isHeaderValue h.2) :
    ∃ r, Request.make? method address query headers body = .ok r ∧
      ∀ h ∈ headers, h ∈ r.headers := by
  obtain ⟨url, hurl⟩ := Option.isSome_iff_exists.mp haddress
  refine ⟨_, Request.make?_of_read method query body hurl hheaders, ?_⟩
  intro h hmem
  exact List.mem_append_right _ hmem

theorem isHeaderValue_append {s t : String} (hs : isHeaderValue s) (ht : isHeaderValue t) :
    isHeaderValue (s ++ t) := by
  rw [isHeaderValue] at hs ht ⊢
  rw [String.toList_append, List.all_append, hs, ht]
  rfl

end Http

namespace GraphCalendar

open Http

variable {α : Type} {read : Json → Option α} {answer : Answer} {v : α} {fault : CalendarFault}

/-! ### What an answer is worth -/

/-- A success whose body reads as `v`. -/
def Holds (read : Json → Option α) (answer : Answer) (v : α) : Prop :=
  ∃ response, answer = .ok response ∧ (200 ≤ response.status ∧ response.status < 300) ∧
    (Json.read? response.body).bind read = some v

/-- Why an answer holds nothing that `read` can take. -/
inductive Fails (read : Json → Option α) : Answer → CalendarFault → Prop where
  /-- No response came. -/
  | dropped (fault : Fault) : Fails read (.error fault) (.exchange fault)
  | refused (response : Response) (h : ¬ (200 ≤ response.status ∧ response.status < 300)) :
      Fails read (.ok response) (.refused response.status response.text)
  | undecodable (response : Response) (hsuccess : 200 ≤ response.status ∧ response.status < 300)
      (hbody : (Json.read? response.body).bind read = none) :
      Fails read (.ok response) (.exchange .undecodable)

theorem isSuccess_iff {r : Response} : r.isSuccess = true ↔ 200 ≤ r.status ∧ r.status < 300 := by
  rw [Response.isSuccess, Bool.and_eq_true, decide_eq_true_iff, decide_eq_true_iff]

theorem holds_or_fails (read : Json → Option α) (answer : Answer) :
    (∃ v, Holds read answer v) ∨ ∃ fault, Fails read answer fault := by
  cases answer with
  | error fault => exact Or.inr ⟨_, .dropped fault⟩
  | ok response =>
    by_cases hsuccess : 200 ≤ response.status ∧ response.status < 300
    · cases hbody : (Json.read? response.body).bind read with
      | none => exact Or.inr ⟨_, .undecodable response hsuccess hbody⟩
      | some v => exact Or.inl ⟨v, response, rfl, hsuccess, hbody⟩
    · exact Or.inr ⟨_, .refused response hsuccess⟩

/-- A success whose body is a record that gives this field the string `text`. -/
def Brings (name : String) (answer : Answer) (text : String) : Prop :=
  ∃ response record, answer = .ok response ∧ (200 ≤ response.status ∧ response.status < 300) ∧
    Json.read? response.body = some record ∧ Json.Gives name (.string text) record

theorem readToken?_eq_some_iff {record : Json} {token : String} :
    readToken? record = some token ↔ Json.Gives "access_token" (.string token) record :=
  Json.stringField_iff

theorem readCreated?_eq_some_iff {record : Json} {id : String} :
    readCreated? record = some id ↔ Json.Gives "id" (.string id) record :=
  Json.stringField_iff

theorem holds_iff_brings {read : Json → Option String} {name text : String}
    (hread : ∀ {record : Json} {text : String},
      read record = some text ↔ Json.Gives name (.string text) record) :
    Holds read answer text ↔ Brings name answer text := by
  constructor
  · rintro ⟨response, hanswer, hsuccess, hbody⟩
    obtain ⟨record, hrecord, htext⟩ := Option.bind_eq_some_iff.mp hbody
    exact ⟨response, record, hanswer, hsuccess, hrecord, hread.mp htext⟩
  · rintro ⟨response, record, hanswer, hsuccess, hrecord, htext⟩
    exact ⟨response, hanswer, hsuccess,
      Option.bind_eq_some_iff.mpr ⟨record, hrecord, hread.mpr htext⟩⟩

/-- The token is the string under `access_token`. -/
theorem holds_readToken?_iff {token : String} :
    Holds readToken? answer token ↔ Brings "access_token" answer token :=
  holds_iff_brings readToken?_eq_some_iff

/-- The id of a new event is the string under `id`. -/
theorem holds_readCreated?_iff {id : String} :
    Holds readCreated? answer id ↔ Brings "id" answer id :=
  holds_iff_brings readCreated?_eq_some_iff

/-! ### Sending one request -/

section

variable (r : Request) {n : Network} {response : Response}

theorem exchange_of_dropped {fault : Fault} (hanswer : n.answer = .error fault) :
    exchange Network.transport (.ok r) n = (.error (.calendar (.exchange fault)), n.after r) := by
  simp only [exchange, Network.transport, bind, StateT.bind, hanswer]
  rfl

theorem exchange_of_refused (hanswer : n.answer = .ok response)
    (hrefused : ¬ (200 ≤ response.status ∧ response.status < 300)) :
    exchange Network.transport (.ok r) n =
      (.error (.calendar (.refused response.status response.text)), n.after r) := by
  have hsuccess : ¬ response.isSuccess = true := fun h => hrefused (isSuccess_iff.mp h)
  simp only [exchange, Network.transport, bind, StateT.bind, hanswer, hsuccess]
  rfl

theorem exchange_of_success (hanswer : n.answer = .ok response)
    (hsuccess : 200 ≤ response.status ∧ response.status < 300) :
    exchange Network.transport (.ok r) n = (.ok response, n.after r) := by
  simp only [exchange, Network.transport, bind, StateT.bind, hanswer, isSuccess_iff.mpr hsuccess]
  rfl

/-- An answer that holds a record is taken with one request. -/
theorem fetch_of_holds (h : Holds read n.answer v) :
    fetch Network.transport (.ok r) read n = (.ok v, n.after r) := by
  obtain ⟨response, hanswer, hsuccess, hbody⟩ := h
  simp only [fetch, bind, StateT.bind, exchange_of_success r hanswer hsuccess, Response.decode,
    hbody]
  rfl

/-- An answer that fails is not asked for again. -/
theorem fetch_of_fails (h : Fails read n.answer fault) :
    fetch Network.transport (.ok r) read n = (.error (.calendar fault), n.after r) := by
  generalize hanswer : n.answer = answer at h
  cases h with
  | dropped fault =>
    simp only [fetch, bind, StateT.bind, exchange_of_dropped r hanswer]
    rfl
  | refused response hrefused =>
    simp only [fetch, bind, StateT.bind, exchange_of_refused r hanswer hrefused]
    rfl
  | undecodable response hsuccess hbody =>
    simp only [fetch, bind, StateT.bind, exchange_of_success r hanswer hsuccess, Response.decode,
      hbody]
    rfl

end

/-! ### The token in front of every operation -/

section

variable (g : GraphCalendar)

def tokenRequest : Except Fault Request :=
  Request.make? .post g.tokenUrl [] [("content-type", "application/x-www-form-urlencoded")]
    g.tokenForm

variable {g} {r : Request} {n : Network} (act : String → StateM Network (Except Failure α))

theorem exists_tokenRequest (hurl : (Url.read? g.tokenUrl).isSome) :
    ∃ r, g.tokenRequest = .ok r := by
  have hform : ∀ h ∈ [("content-type", "application/x-www-form-urlencoded")],
      isHeaderValue h.2 := by decide
  obtain ⟨r, hr, _⟩ := Request.exists_make? .post [] _ g.tokenForm hurl hform
  exact ⟨r, hr⟩

/-- Without a token nothing is done. -/
theorem withToken_of_fails (hr : g.tokenRequest = .ok r)
    (h : Fails readToken? n.answer fault) :
    g.withToken Network.transport act n = (.error (.calendar fault), n.after r) := by
  rw [tokenRequest] at hr
  simp only [withToken, acquireToken, hr, bind, StateT.bind, fetch_of_fails r h]
  rfl

theorem withToken_of_holds {token : String} (hr : g.tokenRequest = .ok r)
    (h : Holds readToken? n.answer token) :
    g.withToken Network.transport act n = act token (n.after r) := by
  rw [tokenRequest] at hr
  simp only [withToken, acquireToken, hr, bind, StateT.bind, fetch_of_holds r h]

theorem isHeaderValue_bearer {token : String} (h : isHeaderValue token) :
    isHeaderValue (bearer token).2 :=
  isHeaderValue_append (by decide) h

end

end GraphCalendar

end Datebook
