/-
  Datebook/Url/Basic.lean
  =======================
  **Web addresses**, as far as requests need them: `http` and `https`.

  `Url.read?` takes a text apart as browsers do.  Control characters and blanks
  at the ends are dropped, tabs and line ends everywhere; a backslash counts as a
  slash; any number of slashes may follow the scheme.  In the path `.` goes away
  and `..` takes the segment before it along, also when written with escapes.
  What does not stand for itself in its part is percent-encoded.  The fragment is
  dropped: it is never sent.

  `Url.target` is what a request line carries: path and query.
-/
import Datebook.Url.Host

namespace Datebook

structure Url where
  /-- Whether the connection is encrypted. -/
  secure : Bool
  /-- Name and password, with their escapes. -/
  userInfo : String × String
  host : Url.Host
  port : Nat
  /-- The segments of the path, with their escapes; never empty. -/
  path : List String
  query : Option String
  deriving DecidableEq, Repr

namespace Url

open Datebook.Text

/-! ### The path -/

/-- A segment that stays where it is: one dot. -/
def isSingleDot (s : List Char) : Bool :=
  s = ['.'] || s.map Char.toLower = ['%', '2', 'e']

/-- A segment that goes up: two dots, each of them plain or escaped. -/
def isDoubleDot (s : List Char) : Bool :=
  let s := s.map Char.toLower
  s = ['.', '.'] || s = ['.', '%', '2', 'e'] || s = ['%', '2', 'e', '.'] ||
    s = ['%', '2', 'e', '%', '2', 'e']

/-- Put one segment behind the path read so far, which is kept last segment
    first.  A dot segment at the end leaves an empty segment behind. -/
def addSegment (sofar : List (List Char)) (s : List Char) (isLast : Bool) : List (List Char) :=
  if isDoubleDot s then (if isLast then [] :: sofar.tail else sofar.tail)
  else if isSingleDot s then (if isLast then [] :: sofar else sofar)
  else percentEncode keepInPath s :: sofar

def addSegments (sofar : List (List Char)) : List (List Char) → List (List Char)
  | [] => sofar
  | [s] => addSegment sofar s true
  | s :: rest => addSegments (addSegment sofar s false) rest

/-- The segments of a path that was written without its first slash. -/
def readPath (cs : List Char) : List String :=
  let slashed := cs.map fun c => if c = '\\' then '/' else c
  (addSegments [] (splitAt '/' slashed)).reverse.map String.ofList

/-! ### The authority -/

/-- A port: nothing at all, or digits below 65536. -/
def port? (cs : List Char) : Option (Option Nat) :=
  if cs.isEmpty then some none
  else if cs.all isDigit ∧ value cs < 65536 then some (some (value cs))
  else none

/-- Cut a host from its port, at the first colon outside brackets. -/
def cutPort : (inBrackets : Bool) → List Char → List Char × List Char
  | _, [] => ([], [])
  | inBrackets, c :: cs =>
    if c = ':' ∧ inBrackets = false then ([], cs)
    else
      let inBrackets := if c = '[' then true else if c = ']' then false else inBrackets
      let (host, port) := cutPort inBrackets cs
      (c :: host, port)

/-- Name and password: at the first colon, both encoded. -/
def readUserInfo (cs : List Char) : String × String :=
  let encode := fun cs => String.ofList (percentEncode keepInUserInfo cs)
  match splitFirst? ':' cs with
  | some (name, password) => (encode name, encode password)
  | none => (encode cs, "")

/-! ### Whole addresses -/

/-- Whether a character ends the authority. -/
def endsAuthority (c : Char) : Bool := c == '/' || c == '\\' || c == '?' || c == '#'

/-- Drop what an address may be surrounded and interspersed with. -/
def clean (cs : List Char) : List Char :=
  let outer := fun (c : Char) => decide (c.toNat ≤ 32)
  let cs := ((cs.dropWhile outer).reverse.dropWhile outer).reverse
  cs.filter fun c => !(c == '\t' || c == '\n' || c == '\r')

/-- The scheme: whether it is the encrypted one, and the text behind its colon. -/
def scheme? (cs : List Char) : Option (Bool × List Char) := do
  let (scheme, rest) ← splitFirst? ':' cs
  let scheme := scheme.map Char.toLower
  if scheme = ['h', 't', 't', 'p'] then some (false, rest)
  else if scheme = ['h', 't', 't', 'p', 's'] then some (true, rest)
  else none

def readChars? (cs : List Char) : Option Url := do
  let (secure, cs) ← scheme? (clean cs)
  let cs := cs.dropWhile fun c => c == '/' || c == '\\'
  let authority := cs.takeWhile fun c => !endsAuthority c
  let rest := cs.dropWhile fun c => !endsAuthority c
  let (userInfo, hostPort) :=
    match splitLast? '@' authority with
    | some (info, hostPort) => (readUserInfo info, hostPort)
    | none => (("", ""), authority)
  let (hostText, portText) := cutPort false hostPort
  let host ← host? hostText
  let port ← port? portText
  let (beforeFragment) := rest.takeWhile (· != '#')
  let (path, query) :=
    match splitFirst? '?' beforeFragment with
    | some (path, query) => (path, some (String.ofList (percentEncode keepInQuery query)))
    | none => (beforeFragment, none)
  let path := match path with
    | c :: more => if c = '/' ∨ c = '\\' then more else path
    | [] => []
  some
    { secure, userInfo, host, path := readPath path, query
      port := port.getD (if secure then 443 else 80) }

/-- The address a text denotes. -/
def read? (s : String) : Option Url := readChars? s.toList

/-- Put name and value pairs behind the query. -/
def addQuery (u : Url) (pairs : List (String × String)) : Url :=
  let more := String.ofList (formText pairs)
  match u.query with
  | none => { u with query := some more }
  | some q => { u with query := some (if q.isEmpty then more else q ++ "&" ++ more) }

/-- Path and query, as a request line carries them. -/
def target (u : Url) : String :=
  let path := u.path.foldl (fun text segment => text ++ "/" ++ segment) ""
  match u.query with
  | none => path
  | some q => path ++ "?" ++ q

end Url

end Datebook
