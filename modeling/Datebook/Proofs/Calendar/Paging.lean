/-
  Datebook/Proofs/Calendar/Paging.lean
  ====================================
  **Where pages end cannot be seen in a listing.**

  A run over pages is followed by induction on the pages that have a link: each of
  them costs one request, the events are collected behind it, and what is left is
  the same run from the linked page on.  The answer that ends the run, a last page
  or a failure, is the same for every position, so nothing of the pages in front
  is returned when a later one fails.
-/
import Datebook.Proofs.Calendar.Exchange
import Datebook.Proofs.Calendar.Listing
import Mathlib.Data.List.Forall2

namespace Datebook.GraphCalendar

open Http

variable {token : String} {fault : CalendarFault} {n : Network}

/-! ### The requests of a listing -/

def firstPageRequest (g : GraphCalendar) (token : String) : Except Fault Request :=
  Request.make? .get g.eventsUrl [("$select", listFields)] [bearer token] ""

def linkedPageRequest (token link : String) : Except Fault Request :=
  Request.make? .get link [] [bearer token] ""

theorem exists_pageRequest {address : String} (query : List (String × String))
    (haddress : (Url.read? address).isSome) (htoken : isHeaderValue token) :
    ∃ r, Request.make? .get address query [bearer token] "" = .ok r ∧
      ("authorization", "Bearer " ++ token) ∈ r.headers := by
  have hbearer : ∀ h ∈ [bearer token], isHeaderValue h.2 := by
    intro h hmem
    rw [List.mem_singleton.mp hmem]
    exact isHeaderValue_bearer htoken
  obtain ⟨r, hr, hheaders⟩ := Request.exists_make? .get query [bearer token] "" haddress hbearer
  exact ⟨r, hr, hheaders _ (List.mem_singleton_self _)⟩

/-! ### Pages with a link behind them -/

/-- Pages that are not the last, each with its link. -/
abbrev Linked : Type := List (List Event × String)

def Linked.events (pages : Linked) : List Event := pages.flatMap (·.1)

/-- The answers hold the pages. -/
def Linked.Answered (pages : Linked) (answers : List Answer) : Prop :=
  List.Forall₂ (fun answer page => Holds readPage? answer ⟨page.1, some page.2⟩) answers pages

/-- The requests follow the links. -/
def Linked.Followed (pages : Linked) (token : String) (requests : List Request) : Prop :=
  List.Forall₂ (fun r page => linkedPageRequest token page.2 = .ok r) requests pages

theorem Linked.exists_followed {pages : Linked} (hlinks : ∀ page ∈ pages, (Url.read? page.2).isSome)
    (htoken : isHeaderValue token) :
    ∃ requests, pages.Followed token requests ∧
      ∀ r ∈ requests, ("authorization", "Bearer " ++ token) ∈ r.headers := by
  induction pages with
  | nil => exact ⟨[], .nil, by simp⟩
  | cons page pages ih =>
    obtain ⟨hlink, hlinks⟩ := List.forall_mem_cons.mp hlinks
    obtain ⟨r, hr, hbearer⟩ := exists_pageRequest [] hlink htoken
    obtain ⟨requests, hfollowed, hbearers⟩ := ih hlinks
    exact ⟨r :: requests, .cons hr hfollowed, List.forall_mem_cons.mpr ⟨hbearer, hbearers⟩⟩

/-! ### Following the pages -/

/-- An answer behind which there is nothing to follow, and what the run makes of it. -/
inductive Ends : Answer → Except Failure (List Event) → Prop where
  | last {answer : Answer} {events : List Event} (h : Holds readPage? answer ⟨events, none⟩) :
      Ends answer (.ok events)
  | failed {answer : Answer} {fault : CalendarFault} (h : Fails readPage? answer fault) :
      Ends answer (.error (.calendar fault))

variable {r : Request} {result : Except Failure (List Event)}

theorem pagesFrom_end (fuel : Nat) (h : Ends n.answer result) :
    pagesFrom Network.transport token (fuel + 1) (.ok r) n = (result, n.after r) := by
  generalize hanswer : n.answer = answer at h
  rw [pagesFrom]
  cases h with
  | last h =>
    rw [← hanswer] at h
    simp only [bind, StateT.bind, fetch_of_holds r h]
    rfl
  | failed h =>
    rw [← hanswer] at h
    simp only [bind, StateT.bind, fetch_of_fails r h]
    rfl

/-- A page with a link costs one request; its events stand in front of the others. -/
theorem pagesFrom_link {fuel : Nat} {page : List Event × String} {n' : Network}
    (hpage : Holds readPage? n.answer ⟨page.1, some page.2⟩)
    (hrest : pagesFrom Network.transport token fuel (linkedPageRequest token page.2) (n.after r) =
      (result, n')) :
    pagesFrom Network.transport token (fuel + 1) (.ok r) n = (result.map (page.1 ++ ·), n') := by
  rw [linkedPageRequest] at hrest
  rw [pagesFrom]
  simp only [bind, StateT.bind, fetch_of_holds r hpage, hrest]
  cases result with
  | error failure => rfl
  | ok events => rfl

/-- A run over the pages, up to the answer that ends it.  The induction is on the
    pages; what they contribute is the same for both ends. -/
theorem pagesFrom_linked {pages : Linked} {answers rest : List Answer} {requests : List Request}
    {last : Answer} {fuel : Nat} (first : Request) (sent : List Request)
    (hanswers : pages.Answered answers) (hrequests : pages.Followed token requests)
    (hend : Ends last result) (hfuel : pages.length < fuel) :
    pagesFrom Network.transport token fuel (.ok first) ⟨answers ++ last :: rest, sent⟩ =
      (result.map (pages.events ++ ·), ⟨rest, sent ++ first :: requests⟩) := by
  induction hanswers generalizing fuel first sent requests with
  | nil =>
    cases hrequests
    obtain ⟨fuel, rfl⟩ := Nat.exists_eq_add_one_of_ne_zero (Nat.ne_zero_of_lt hfuel)
    have hmap : result.map (Linked.events [] ++ ·) = result := by
      cases result with
      | error failure => rfl
      | ok events => rfl
    rw [hmap]
    exact pagesFrom_end fuel hend
  | @cons answer page answers pages hpage _ ih =>
    obtain ⟨fuel, rfl⟩ := Nat.exists_eq_add_one_of_ne_zero (Nat.ne_zero_of_lt hfuel)
    rw [List.length_cons, Nat.add_lt_add_iff_right] at hfuel
    cases hrequests with
    | @cons r _ requests _ hr hrequests =>
      have hrest : pagesFrom Network.transport token fuel (linkedPageRequest token page.2)
          ⟨answers ++ last :: rest, sent ++ [first]⟩ =
            (result.map (Linked.events pages ++ ·), ⟨rest, sent ++ first :: r :: requests⟩) := by
        rw [hr, ih r (sent ++ [first]) hrequests hfuel, List.append_assoc, List.singleton_append]
      have hmap : (result.map (Linked.events pages ++ ·)).map (page.1 ++ ·) =
          result.map (Linked.events (page :: pages) ++ ·) := by
        cases result with
        | error failure => rfl
        | ok events => exact congrArg Except.ok (List.append_assoc _ _ _).symm
      rw [← hmap]
      exact pagesFrom_link hpage hrest

/-! ### The listing -/

section

variable {g : GraphCalendar} {tokenAnswer last : Answer} {t first : Request} {pages : Linked}
  {answers rest : List Answer} {requests : List Request} {sent : List Request}

theorem list_of_token_fails (ht : g.tokenRequest = .ok t)
    (htoken : Fails readToken? tokenAnswer fault) :
    g.list Network.transport ⟨tokenAnswer :: rest, sent⟩ =
      (.error (.calendar fault), ⟨rest, sent ++ [t]⟩) :=
  withToken_of_fails _ ht htoken

/-- With a token in hand, a listing is the run over the pages and then the numbering. -/
theorem list_of_token (ht : g.tokenRequest = .ok t) (htoken : Holds readToken? n.answer token)
    {n' : Network}
    (hpages : pagesFrom Network.transport token (n.answers.tail.length + 1)
      (g.firstPageRequest token) (n.after t) = (result, n')) :
    g.list Network.transport n = (result.map listing, n') := by
  have hpatience : Network.transport.patience (n.after t) =
      (n.answers.tail.length + 1, n.after t) := rfl
  rw [firstPageRequest] at hpages
  rw [list, withToken_of_holds _ ht htoken]
  simp only [bind, StateT.bind, hpatience, hpages]
  cases result with
  | error failure => rfl
  | ok events => rfl

theorem list_linked (ht : g.tokenRequest = .ok t) (htoken : Holds readToken? tokenAnswer token)
    (hfirst : g.firstPageRequest token = .ok first) (hanswers : pages.Answered answers)
    (hrequests : pages.Followed token requests) (hend : Ends last result) :
    g.list Network.transport ⟨tokenAnswer :: (answers ++ last :: rest), sent⟩ =
      ((result.map (pages.events ++ ·)).map listing, ⟨rest, sent ++ t :: first :: requests⟩) := by
  have hfuel : pages.length < (answers ++ last :: rest).length + 1 := by
    have hlength : answers.length = pages.length := List.Forall₂.length_eq hanswers
    rw [List.length_append]
    omega
  refine list_of_token (n := ⟨tokenAnswer :: (answers ++ last :: rest), sent⟩) ht htoken ?_
  rw [hfirst, ← List.singleton_append (l := first :: requests), ← List.append_assoc]
  exact pagesFrom_linked first (sent ++ [t]) hanswers hrequests hend hfuel

end

/-- **A listing numbers the concatenation of all pages**, wherever these end, with one
    request for the token and one for each page, all with the `access_token` of the first
    answer in their headers.  If the token or any page fails, the failure is all there
    is, and the failing request is the last. -/
theorem list_ignores_page_ends (g : GraphCalendar) (htokenUrl : (Url.read? g.tokenUrl).isSome)
    (heventsUrl : (Url.read? g.eventsUrl).isSome) :
    ∃ t, g.tokenRequest = .ok t ∧
      (∀ tokenAnswer fault rest sent, Fails readToken? tokenAnswer fault →
        g.list Network.transport ⟨tokenAnswer :: rest, sent⟩ =
          (.error (.calendar fault), ⟨rest, sent ++ [t]⟩)) ∧
      ∀ tokenAnswer token, Brings "access_token" tokenAnswer token → isHeaderValue token →
        ∃ first, g.firstPageRequest token = .ok first ∧
          ("authorization", "Bearer " ++ token) ∈ first.headers ∧
          ∀ pages : Linked, (∀ page ∈ pages, (Url.read? page.2).isSome) →
            ∃ requests, pages.Followed token requests ∧ requests.length = pages.length ∧
              (∀ r ∈ requests, ("authorization", "Bearer " ++ token) ∈ r.headers) ∧
              ∀ answers last rest sent, pages.Answered answers →
                (∀ events, Holds readPage? last ⟨events, none⟩ →
                  g.list Network.transport ⟨tokenAnswer :: (answers ++ last :: rest), sent⟩ =
                      (.ok (listing (pages.events ++ events)),
                        ⟨rest, sent ++ t :: first :: requests⟩) ∧
                    ∀ i : Nat, (listing (pages.events ++ events))[i]? =
                      (pages.events ++ events)[i]?.map (·.entry i)) ∧
                ∀ fault, Fails readPage? last fault →
                  g.list Network.transport ⟨tokenAnswer :: (answers ++ last :: rest), sent⟩ =
                    (.error (.calendar fault), ⟨rest, sent ++ t :: first :: requests⟩) := by
  obtain ⟨t, ht⟩ := exists_tokenRequest htokenUrl
  refine ⟨t, ht, ?_, ?_⟩
  · intro tokenAnswer fault rest sent htoken
    exact list_of_token_fails ht htoken
  · intro tokenAnswer token htoken hvalue
    rw [← holds_readToken?_iff] at htoken
    obtain ⟨first, hfirst, hbearer⟩ := exists_pageRequest [("$select", listFields)] heventsUrl hvalue
    refine ⟨first, hfirst, hbearer, ?_⟩
    intro pages hlinks
    obtain ⟨requests, hrequests, hbearers⟩ := Linked.exists_followed hlinks hvalue
    refine ⟨requests, hrequests, List.Forall₂.length_eq hrequests, hbearers, ?_⟩
    intro answers last rest sent hanswers
    constructor
    · intro events hlast
      refine ⟨list_linked ht htoken hfirst hanswers hrequests (.last hlast), ?_⟩
      intro i
      exact getElem?_listing _ i
    · intro fault hlast
      exact list_linked ht htoken hfirst hanswers hrequests (.failed hlast)

/-- An empty page and the page behind it; then the same with the second one dropped. -/
theorem list_ignores_page_ends_empty_first :
    ∃ g : GraphCalendar, (Url.read? g.tokenUrl).isSome ∧ (Url.read? g.eventsUrl).isSome ∧
      ∃ t first next,
        g.list Network.transport
            ⟨[.ok ⟨200, "\x7b\"access_token\":\"eyJ0\"\x7d"⟩,
              .ok ⟨200, "\x7b\"value\":[],\"@odata.nextLink\":\"http://g/2\"\x7d"⟩,
              .ok ⟨200, "\x7b\"value\":[[\"1\",\"a\",[\"s\",\"z\"],[\"e\",\"z\"]]]\x7d"⟩], []⟩ =
          (.ok [⟨"0", "1", "a", "s", "e"⟩], ⟨[], [t, first, next]⟩) ∧
        g.list Network.transport
            ⟨[.ok ⟨200, "\x7b\"access_token\":\"eyJ0\"\x7d"⟩,
              .ok ⟨200, "\x7b\"value\":[],\"@odata.nextLink\":\"http://g/2\"\x7d"⟩,
              .error .unanswered], []⟩ =
          (.error (.calendar (.exchange .unanswered)), ⟨[], [t, first, next]⟩) ∧
        ("authorization", "Bearer eyJ0") ∈ first.headers ∧
        ("authorization", "Bearer eyJ0") ∈ next.headers := by
  let g : GraphCalendar := ⟨"t", "c", "s", "u", "http://g", "http://a", "UTC"⟩
  have htokenUrl : (Url.read? g.tokenUrl).isSome := by decide +kernel
  have heventsUrl : (Url.read? g.eventsUrl).isSome := by decide +kernel
  have hlinks : ∀ page ∈ [(([] : List Event), "http://g/2")], (Url.read? page.2).isSome := by
    decide +kernel
  have htoken : Brings "access_token"
      (.ok ⟨200, "\x7b\"access_token\":\"eyJ0\"\x7d"⟩) "eyJ0" :=
    holds_readToken?_iff.mp ⟨_, rfl, by decide, by decide +kernel⟩
  have hanswers : Linked.Answered [([], "http://g/2")]
      [.ok ⟨200, "\x7b\"value\":[],\"@odata.nextLink\":\"http://g/2\"\x7d"⟩] :=
    .cons ⟨_, rfl, by decide, by decide +kernel⟩ .nil
  have hlast : Holds readPage?
      (.ok ⟨200, "\x7b\"value\":[[\"1\",\"a\",[\"s\",\"z\"],[\"e\",\"z\"]]]\x7d"⟩)
      ⟨[⟨"1", "a", "s", "e"⟩], none⟩ :=
    ⟨_, rfl, by decide, by decide +kernel⟩
  have hlisting : listing (Linked.events [([], "http://g/2")] ++ [⟨"1", "a", "s", "e"⟩]) =
      [⟨"0", "1", "a", "s", "e"⟩] := by decide +kernel
  obtain ⟨t, _, _, hlists⟩ := list_ignores_page_ends g htokenUrl heventsUrl
  obtain ⟨first, _, hfirst, hlists⟩ := hlists _ _ htoken (by decide)
  obtain ⟨requests, _, hlength, hnext, hlists⟩ := hlists _ hlinks
  obtain ⟨next, rfl⟩ := List.length_eq_one_iff.mp hlength
  refine ⟨g, htokenUrl, heventsUrl, t, first, next, ?_, ?_, hfirst,
    hnext next (List.mem_singleton_self _)⟩
  · rw [← hlisting]
    exact ((hlists _ _ [] [] hanswers).1 _ hlast).1
  · exact (hlists _ _ [] [] hanswers).2 _ (.dropped .unanswered)

end Datebook.GraphCalendar
