/-
  Datebook/Url/Host.lean
  ======================
  **Hosts of web addresses**: names and the two kinds of numeric addresses.

  A host whose last label is a number is an IPv4 address, in one to four parts,
  each decimal, octal (`0…`) or hexadecimal (`0x…`), where the last part fills
  all the bytes that are left; anything wrong with it makes the host invalid, it
  does not turn it into a name.  A host in brackets is an IPv6 address.  Any
  other host is a name: its escapes are undone, capitals become small letters,
  and the delimiters of an address are refused in it.
-/
import Datebook.Text.Search
import Datebook.Url.Escape

namespace Datebook.Url

open Datebook.Text

inductive Host where
  | name (s : String)
  | v4 (address : Nat)
  | v6 (pieces : List Nat)
  deriving DecidableEq, Repr

/-! ### IPv4 -/

/-- The number of a part: none if it is no number. -/
def part? (cs : List Char) : Option Nat :=
  let read := fun (base : Nat) (ds : List Char) =>
    ds.foldlM (fun n d => (hexValue? d).bind fun v =>
      if v < base then some (base * n + v) else none) 0
  match cs with
  | [] => none
  | '0' :: 'x' :: ds => read 16 ds
  | '0' :: 'X' :: ds => read 16 ds
  | '0' :: d :: ds => read 8 (d :: ds)
  | ds => read 10 ds

/-- Whether the last label, apart from an empty one behind a final point, is a
    number. -/
def endsInNumber (labels : List (List Char)) : Bool :=
  let last :=
    match labels.reverse with
    | [] :: label :: _ => label
    | [] :: [] => []
    | label :: _ => label
    | [] => []
  !last.isEmpty && (last.all isDigit || (part? last).isSome)

/-- The address of one to four parts. -/
def v4? (labels : List (List Char)) : Option Nat := do
  let labels := if labels.getLast? = some [] then labels.dropLast else labels
  if labels.isEmpty || 4 < labels.length then none
  let parts ← labels.mapM part?
  let last ← parts.getLast?
  let first := parts.dropLast
  if first.any (255 < ·) || Nat.pow 256 (4 - first.length) ≤ last then none
  some (first.zipIdx.foldl (fun n (p, i) => n + p * Nat.pow 256 (3 - i)) last)

/-! ### IPv6 -/

/-- A group of one to four hexadecimal digits. -/
def group? (cs : List Char) : Option Nat :=
  if cs.isEmpty || 4 < cs.length then none
  else cs.foldlM (fun n d => (hexValue? d).map (16 * n + ·)) 0

/-- A byte of the dotted tail: decimal, without a zero in front. -/
def dottedByte? (cs : List Char) : Option Nat :=
  if cs.isEmpty || 3 < cs.length || !cs.all isDigit then none
  else if cs.head? = some '0' && 1 < cs.length then none
  else if value cs < 256 then some (value cs)
  else none

/-- The groups of a run without `::`; the last one may be four dotted bytes. -/
def groups? : List (List Char) → Option (List Nat)
  | [] => some []
  | [last] =>
    if last.contains '.' then do
      match ← (splitAt '.' last).mapM dottedByte? with
      | [a, b, c, d] => some [256 * a + b, 256 * c + d]
      | _ => none
    else (group? last).map ([·])
  | g :: rest => do
    let g ← group? g
    let rest ← groups? rest
    some (g :: rest)

/-- Cut at the first `::`. -/
def cutDouble? : List Char → Option (List Char × List Char)
  | ':' :: ':' :: rest => some ([], rest)
  | c :: rest => (cutDouble? rest).map fun (a, b) => (c :: a, b)
  | [] => none

def v6? (cs : List Char) : Option (List Nat) :=
  let run := fun (cs : List Char) => if cs.isEmpty then some [] else groups? (splitAt ':' cs)
  match cutDouble? cs with
  | none => (run cs).bind fun gs => if gs.length = 8 then some gs else none
  | some (front, back) => do
    let front' ← run front
    let back ← run back
    if front.contains '.' then none
    else if front'.length + back.length < 8 then
      some (front' ++ List.replicate (8 - front'.length - back.length) 0 ++ back)
    else none

/-! ### Hosts -/

/-- The four bytes of an IPv4 address. -/
def octets (address : Nat) : List Nat :=
  [address / 16777216 % 256, address / 65536 % 256, address / 256 % 256, address % 256]

/-- A host as it stands in an address. -/
def Host.text : Host → String
  | .name s => s
  | .v4 address => ".".intercalate ((octets address).map natText)
  | .v6 pieces =>
    let group := fun (n : Nat) => String.ofList
      [hexDigit (n / 4096 % 16), hexDigit (n / 256 % 16), hexDigit (n / 16 % 16), hexDigit (n % 16)]
    "[" ++ ":".intercalate (pieces.map group) ++ "]"

/-- The characters no host name may hold. -/
def isForbidden (c : Char) : Bool :=
  isControl c || c == ' ' || c == '#' || c == '%' || c == '/' || c == ':' || c == '<' ||
    c == '>' || c == '?' || c == '@' || c == '[' || c == '\\' || c == ']' || c == '^' || c == '|'

/-- The host a text denotes. -/
def host? (cs : List Char) : Option Host :=
  match cs with
  | [] => none
  | '[' :: rest =>
    if rest.getLast? = some ']' then (v6? rest.dropLast).map Host.v6 else none
  | cs => do
    let s ← textOfBytes? (percentDecode cs)
    let name := s.toList.map Char.toLower
    if name.isEmpty || name.any isForbidden then none
    else
      let labels := splitAt '.' name
      if endsInNumber labels then (v4? labels).map Host.v4
      else some (.name (String.ofList name))

end Datebook.Url
