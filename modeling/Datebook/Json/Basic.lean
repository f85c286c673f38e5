/-
  Datebook/Json/Basic.lean
  ========================
  **JSON values and their text.**

  A number keeps the text it was written with: nothing here computes with it
  before a reader asks for an integer.  An object keeps its members in order, and
  keeps repeated names, so that a reader of records can refuse them.

  `unreadable` stands for a value that is well formed but holds half of a
  surrogate pair where a text is wanted.  It may be skipped; it is no string and
  no record.

  In a string the seven characters with a short escape get it, the other control
  characters become `\u00xx`, and everything else is written as it is.
-/
import Datebook.Text.Digits

namespace Datebook

inductive Json where
  | null
  | bool (b : Bool)
  | number (text : String)
  | string (s : String)
  | array (items : List Json)
  | object (members : List (String × Json))
  | unreadable
  deriving Repr

namespace Json

open Datebook.Text

/-- A character as it stands in a string. -/
def escapeChar (c : Char) : List Char :=
  if c = '"' then ['\\', '"']
  else if c = '\\' then ['\\', '\\']
  else if c = '\n' then ['\\', 'n']
  else if c = '\r' then ['\\', 'r']
  else if c = '\t' then ['\\', 't']
  else if c.toNat = 8 then ['\\', 'b']
  else if c.toNat = 12 then ['\\', 'f']
  else if c.toNat < 32 then
    ['\\', 'u', '0', '0', hexDigit (c.toNat / 16), hexDigit (c.toNat % 16)]
  else [c]

def quote (s : List Char) : List Char := '"' :: s.flatMap escapeChar ++ ['"']

/-- The text of a whole number. -/
def ofInt (n : Int) : Json := .number (intText n)

/-! ### Compact text -/

mutual

def chars : Json → List Char
  | .null => "null".toList
  | .bool true => "true".toList
  | .bool false => "false".toList
  | .number t => t.toList
  | .string s => quote s.toList
  | .array items => '[' :: charsItems items ++ [']']
  | .object members => '\x7b' :: charsMembers members ++ ['\x7d']
  | .unreadable => "null".toList

def charsItems : List Json → List Char
  | [] => []
  | [v] => chars v
  | v :: w :: rest => chars v ++ ',' :: charsItems (w :: rest)

def charsMembers : List (String × Json) → List Char
  | [] => []
  | [(k, v)] => quote k.toList ++ ':' :: chars v
  | (k, v) :: w :: rest => quote k.toList ++ ':' :: chars v ++ ',' :: charsMembers (w :: rest)

end

/-- The value on one line, without white space. -/
def text (v : Json) : String := String.ofList v.chars

/-! ### Indented text -/

/-- A line feed and `2 * depth` spaces. -/
def newLine (depth : Nat) : List Char := '\n' :: List.replicate (2 * depth) ' '

mutual

def prettyChars (depth : Nat) : Json → List Char
  | .array items =>
    if items.isEmpty then ['[', ']']
    else '[' :: prettyItems (depth + 1) items ++ newLine depth ++ [']']
  | .object members =>
    if members.isEmpty then ['\x7b', '\x7d']
    else '\x7b' :: prettyMembers (depth + 1) members ++ newLine depth ++ ['\x7d']
  | v => chars v

/-- Items, each on a line of its own. -/
def prettyItems (depth : Nat) : List Json → List Char
  | [] => []
  | [v] => newLine depth ++ prettyChars depth v
  | v :: w :: rest =>
    newLine depth ++ prettyChars depth v ++ ',' :: prettyItems depth (w :: rest)

/-- Members, each on a line of its own. -/
def prettyMembers (depth : Nat) : List (String × Json) → List Char
  | [] => []
  | [(k, v)] => newLine depth ++ quote k.toList ++ ':' :: ' ' :: prettyChars depth v
  | (k, v) :: w :: rest =>
    newLine depth ++ quote k.toList ++ ':' :: ' ' :: prettyChars depth v ++
      ',' :: prettyMembers depth (w :: rest)

end

/-- The value on several lines, two spaces deeper at each level; empty arrays and
    objects stay on one line. -/
def prettyText (v : Json) : String := String.ofList (v.prettyChars 0)

end Json

end Datebook
