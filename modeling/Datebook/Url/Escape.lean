/-
  Datebook/Url/Escape.lean
  ========================
  **Percent escapes and form text.**

  `percentEncode keep` writes every byte of the UTF-8 form of a character that
  `keep` does not let through as `%XX`; a character outside ASCII is never let
  through.  Which characters are kept depends on the part of the address:

    * `keepInPath`, `keepInQuery`, `keepInUserInfo` — all but the control
      characters, the blank and a few delimiters of that part;
    * form text keeps letters, digits and `*-._`, and writes a blank as `+`.

  `percentDecode` undoes the escapes, and leaves a `%` without two digits alone.
-/
import Datebook.Text.Digits

namespace Datebook.Url

open Datebook.Text

def utf8 (c : Char) : List Nat := (String.utf8EncodeChar c).map UInt8.toNat

def escapeByte (b : Nat) : List Char :=
  ['%', hexDigitUpper (b / 16), hexDigitUpper (b % 16)]

def percentEncode (keep : Char → Bool) (cs : List Char) : List Char :=
  cs.flatMap fun c =>
    if c.toNat < 128 && keep c then [c] else (utf8 c).flatMap escapeByte

/-- A control character of ASCII. -/
def isControl (c : Char) : Bool := c.toNat < 32 || c.toNat == 127

def keepInQuery (c : Char) : Bool :=
  !(isControl c || c == ' ' || c == '"' || c == '#' || c == '<' || c == '>' || c == '\x27')

def keepInPath (c : Char) : Bool :=
  !(isControl c || c == ' ' || c == '"' || c == '#' || c == '<' || c == '>' || c == '\x60' ||
    c == '?' || c == '\x7b' || c == '\x7d')

def keepInUserInfo (c : Char) : Bool :=
  keepInPath c &&
    !(c == '/' || c == ':' || c == ';' || c == '=' || c == '@' || c == '[' || c == '\\' ||
      c == ']' || c == '^' || c == '|')

def keepInForm (c : Char) : Bool :=
  ('a' ≤ c && c ≤ 'z') || ('A' ≤ c && c ≤ 'Z') || isDigit c ||
    c == '*' || c == '-' || c == '.' || c == '_'

/-- A text as it stands in a form. -/
def formEncode (cs : List Char) : List Char :=
  cs.flatMap fun c => if c = ' ' then ['+'] else percentEncode keepInForm [c]

/-- Name and value pairs as one form text. -/
def formText (pairs : List (String × String)) : List Char :=
  let one := fun (p : String × String) => formEncode p.1.toList ++ '=' :: formEncode p.2.toList
  match pairs with
  | [] => []
  | p :: rest => one p ++ rest.flatMap fun p => '&' :: one p

/-- The bytes of a text with its escapes undone. -/
def percentDecode : List Char → List Nat
  | '%' :: a :: b :: rest =>
    match hexValue? a, hexValue? b with
    | some h, some l => (16 * h + l) :: percentDecode rest
    | _, _ => utf8 '%' ++ percentDecode (a :: b :: rest)
  | c :: rest => utf8 c ++ percentDecode rest
  | [] => []

/-- The text of a run of UTF-8 bytes; a malformed one has none. -/
def textOfBytes? (bytes : List Nat) : Option String :=
  String.fromUTF8? ⟨(bytes.map Nat.toUInt8).toArray⟩

end Datebook.Url
