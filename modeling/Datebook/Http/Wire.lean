/-
  Datebook/Http/Wire.lean
  =======================
  **Requests and responses as bytes**, for HTTP/1.1 with one exchange for each
  connection.

  A request announces the length of its body, except where it has none to send
  and its method needs none.  A response ends where its length says, where its
  last chunk ends, or where the connection does; one that ends before that is no
  response.  Responses that only announce another one are passed over.
-/
import Datebook.Http.Message

namespace Datebook.Http

open Datebook.Text

/-! ### Sending -/

def lineEnd : String := "\r\n"

/-- The host of an address, with the port unless it is the usual one. -/
def hostText (u : Url) : String :=
  if u.port = (if u.secure then 443 else 80) then u.host.text
  else u.host.text ++ ":" ++ natText u.port

/-- Whether the length of the body is announced. -/
def announcesLength (r : Request) : Bool :=
  r.method == .post || r.method == .patch || !r.body.isEmpty

def Request.wireText (r : Request) : String :=
  let length :=
    if announcesLength r then [("content-length", natText r.body.utf8ByteSize)] else []
  let headers := ("host", hostText r.url) :: ("accept", "*/*") :: ("connection", "close") ::
    (r.headers ++ length)
  r.method.word ++ " " ++ r.url.target ++ " HTTP/1.1" ++ lineEnd ++
    String.join (headers.map fun h => h.1 ++ ": " ++ h.2 ++ lineEnd) ++ lineEnd ++ r.body

/-! ### Receiving -/

/-- The bytes before the first line end, as characters, and the bytes behind it. -/
def cutLine? : List UInt8 → Option (List Char × List UInt8)
  | 13 :: 10 :: rest => some ([], rest)
  | b :: rest => (cutLine? rest).map fun (line, rest) => (Char.ofNat b.toNat :: line, rest)
  | [] => none

/-- The lines up to the empty one, and the bytes behind that. -/
def cutHead? : (fuel : Nat) → List UInt8 → Option (List (List Char) × List UInt8)
  | 0, _ => none
  | fuel + 1, bytes => do
    let (line, rest) ← cutLine? bytes
    if line.isEmpty then some ([], rest)
    else
      let (lines, rest) ← cutHead? fuel rest
      some (line :: lines, rest)

/-- The status in the first line of a response. -/
def status? (line : List Char) : Option Nat := do
  let (version, rest) ← splitFirst? ' ' line
  let digits := rest.takeWhile isDigit
  if (dropLead? "HTTP/1.".toList version).isSome ∧ digits.length = 3 then some (value digits)
  else none

/-- The value of a header, in small letters; names are told apart without case. -/
def headerValue? (name : String) (lines : List (List Char)) : Option String :=
  lines.findSome? fun line => do
    let (key, v) ← splitFirst? ':' line
    if String.ofList (key.map Char.toLower) = name then
      some (String.ofList ((trimSpace v).map Char.toLower))
    else none
where
  trimSpace (cs : List Char) : List Char :=
    ((cs.dropWhile (· == ' ')).reverse.dropWhile (· == ' ')).reverse

/-- The size a chunk announces. -/
def chunkSize? (line : List Char) : Option Nat :=
  let digits := line.takeWhile fun c => (hexValue? c).isSome
  if digits.isEmpty then none
  else some (digits.foldl (fun n d => 16 * n + (hexValue? d).getD 0) 0)

/-- The bytes that a run of chunks carries. -/
def joinChunks? : (fuel : Nat) → List UInt8 → Option (List UInt8)
  | 0, _ => none
  | fuel + 1, bytes => do
    let (line, rest) ← cutLine? bytes
    let size ← chunkSize? line
    if size = 0 then some []
    else if rest.length < size + 2 then none
    else
      let more ← joinChunks? fuel (rest.drop (size + 2))
      some (rest.take size ++ more)

/-- The bytes of the body behind the head of a response. -/
def body? (headers : List (List Char)) (bytes : List UInt8) : Option (List UInt8) :=
  if headerValue? "transfer-encoding" headers = some "chunked" then
    joinChunks? (bytes.length + 1) bytes
  else
    match headerValue? "content-length" headers with
    | none => some bytes
    | some digits =>
      let length := value digits.toList
      if !digits.isEmpty && digits.toList.all isDigit && length ≤ bytes.length then
        some (bytes.take length)
      else none

/-- The text of a body; bytes that are no text count as one replacement character. -/
def bodyText (bytes : List UInt8) : String :=
  (String.fromUTF8? ⟨bytes.toArray⟩).getD "\ufffd"

/-- The first response that ends the exchange, among `fuel` responses. -/
def finalResponse? : (fuel : Nat) → List UInt8 → Option Response
  | 0, _ => none
  | fuel + 1, bytes => do
    let (lines, rest) ← cutHead? (bytes.length + 1) bytes
    let (first, headers) ← match lines with
      | first :: headers => some (first, headers)
      | [] => none
    let status ← status? first
    if isFinalStatus status then
      let body ← if isBodiless status then some [] else body? headers rest
      some { status, body := bodyText body }
    else finalResponse? fuel rest

/-- The response that all bytes of a connection hold. -/
def Response.ofWire? (bytes : List UInt8) : Option Response :=
  finalResponse? (bytes.length + 1) bytes

end Datebook.Http
