/-
  Datebook/Http/Exchange.lean
  ===========================
  **Who answers requests**: the interface, and a server that follows a script.

  Clients are written against `Transport`, in any monad.  `Script` is the
  transport for rehearsals: a server at one address that gives its prepared
  replies in order, and keeps every request it received.  Requests to any other
  address, and encrypted ones, reach nobody and are not recorded.  When the
  replies run out, the server says so with status 500.

  A client that follows links from page to page has to stop some time:
  `Transport.patience` bounds the requests of one operation.  For a script it is
  one more than the replies left, which is never in the way, since the request
  behind the last reply fails anyhow.
-/
import Datebook.Http.Message

namespace Datebook.Http

structure Transport (m : Type → Type) where
  send : Request → m (Except Fault Response)
  patience : m Nat

/-- A transport that works in `m`, as one that works in `n`. -/
def Transport.lift {m n : Type → Type} (run : {α : Type} → m α → n α) (t : Transport m) :
    Transport n where
  send := fun r => run (t.send r)
  patience := run t.patience

/-- What a scripted server does with a request. -/
inductive Reply where
  | answer (response : Response)
  /-- Close the connection without an answer. -/
  | hangUp
  deriving DecidableEq, Repr

/-- A server with prepared replies, and the requests it received, in order. -/
structure Script where
  host : Url.Host
  port : Nat
  replies : List Reply
  received : List Request

/-- The answer when the replies have run out. -/
def exhausted : Response := ⟨500, "script exhausted"⟩

/-- What arrives of a response that a server sends before it closes the connection. -/
def Response.arrived (r : Response) : Except Fault Response :=
  if isFinalStatus r.status then
    .ok (if isBodiless r.status then { r with body := "" } else r)
  else .error .unanswered

/-- Whether a request reaches the server. -/
def Script.isReachedBy (s : Script) (r : Request) : Bool :=
  !r.url.secure && r.url.host == s.host && r.url.port == s.port

def Script.send (r : Request) (s : Script) : Except Fault Response × Script :=
  if s.isReachedBy r then
    let s' := { s with replies := s.replies.tail, received := s.received ++ [r] }
    match s.replies with
    | [] => (.ok exhausted, s')
    | .answer response :: _ => (response.arrived, s')
    | .hangUp :: _ => (.error .unanswered, s')
  else (.error .unanswered, s)

/-- The transport of a script. -/
def Script.transport : Transport (StateM Script) where
  send := Script.send
  patience := fun s => (s.replies.length + 1, s)

end Datebook.Http
