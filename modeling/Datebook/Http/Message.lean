/-
  Datebook/Http/Message.lean
  ==========================
  **Requests and responses**, and how an exchange of them fails.

  A request is put together from texts that people wrote — an address, a key —
  and `Request.make?` is where these are checked: the address must be a web
  address, and no header value may hold a control character other than a tab.
  What fails there is never sent.  Name and password in an address turn into a
  header of their own, in front of the others.

  An exchange has three ways to fail, and `Fault` names them: the request cannot
  be put together, it gets no answer, or the answer's body is not what was asked
  for.
-/
import Datebook.Url.Basic
import Datebook.Json.Record

namespace Datebook.Http

inductive Method where
  | get
  | post
  | patch
  | delete
  deriving DecidableEq, Repr

def Method.word : Method → String
  | .get => "GET"
  | .post => "POST"
  | .patch => "PATCH"
  | .delete => "DELETE"

/-- How an exchange fails. -/
inductive Fault where
  /-- The address or a header cannot be used. -/
  | malformed
  /-- No answer came back. -/
  | unanswered
  /-- The answer's body cannot be read. -/
  | undecodable
  deriving DecidableEq, Repr

def Fault.message : Fault → String
  | .malformed => "builder error"
  | .unanswered => "error sending request"
  | .undecodable => "error decoding response body"

structure Request where
  method : Method
  url : Url
  /-- Names in small letters, with their values. -/
  headers : List (String × String)
  body : String
  deriving DecidableEq, Repr

structure Response where
  status : Nat
  body : String
  deriving DecidableEq, Repr

/-! ### Putting a request together -/

/-- Whether a header may carry the value: no control character but the tab. -/
def isHeaderValue (s : String) : Bool :=
  s.toList.all fun c => c == '\t' || !Url.isControl c

/-- The 64 digits of base-64 text, in order. -/
def base64Alphabet : List Char :=
  "ABCDEFGHIJKLMNOPQRSTUVWXYZabcdefghijklmnopqrstuvwxyz0123456789+/".toList

/-- Three bytes make four digits; what is missing of the last three is filled up. -/
def base64 : List Nat → List Char
  | a :: b :: c :: rest =>
    let n := (a * 256 + b) * 256 + c
    let digit := fun (k : Nat) => base64Alphabet.getD (n / Nat.pow 64 k % 64) '='
    digit 3 :: digit 2 :: digit 1 :: digit 0 :: base64 rest
  | [a, b] =>
    let n := (a * 256 + b) * 256
    let digit := fun (k : Nat) => base64Alphabet.getD (n / Nat.pow 64 k % 64) '='
    [digit 3, digit 2, digit 1, '=']
  | [a] =>
    let n := a * 65536
    let digit := fun (k : Nat) => base64Alphabet.getD (n / Nat.pow 64 k % 64) '='
    [digit 3, digit 2, '=', '=']
  | [] => []

/-- The header for the name and password of an address, if it has them.  A name
    whose bytes are no text makes no header, such a password counts as missing. -/
def credentials (userInfo : String × String) : List (String × String) :=
  match Url.textOfBytes? (Url.percentDecode userInfo.1.toList) with
  | none => []
  | some name =>
    let password := (Url.textOfBytes? (Url.percentDecode userInfo.2.toList)).getD ""
    if name.isEmpty && password.isEmpty then []
    else
      let bytes := (name ++ ":" ++ password).toList.flatMap Url.utf8
      [("authorization", "Basic " ++ String.ofList (base64 bytes))]

/-- The request for an address, with pairs added to its query. -/
def Request.make? (method : Method) (address : String) (query : List (String × String))
    (headers : List (String × String)) (body : String) : Except Fault Request :=
  match Url.read? address with
  | none => .error .malformed
  | some url =>
    if headers.all fun h => isHeaderValue h.2 then
      let url := if query.isEmpty then url else url.addQuery query
      .ok { method, url, headers := credentials url.userInfo ++ headers, body }
    else .error .malformed

/-! ### Reading an answer -/

/-- Whether a status ends an exchange.  Below 200 only 101 does: every other one
    announces an answer that is still to come. -/
def isFinalStatus (status : Nat) : Bool :=
  status == 101 || (200 ≤ status && status < 1000)

/-- Whether a response with this status has no body, whatever is sent behind it. -/
def isBodiless (status : Nat) : Bool := status == 101 || status == 204 || status == 304

/-- Whether the status says that the request was carried out. -/
def Response.isSuccess (r : Response) : Bool := 200 ≤ r.status && r.status < 300

/-- The body as text for people: a byte order mark in front is dropped. -/
def Response.text (r : Response) : String :=
  match r.body.toList with
  | '\ufeff' :: rest => String.ofList rest
  | _ => r.body

/-- The body read as JSON and then as a record. -/
def Response.decode {α : Type} (r : Response) (read : Json → Option α) : Except Fault α :=
  match (Json.read? r.body).bind read with
  | some v => .ok v
  | none => .error .undecodable

end Datebook.Http
