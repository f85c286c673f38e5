/-
  Datebook/Toml/Reader.lean
  =========================
  **Reading TOML documents.**

  Values nest, and may nest at most `depthLimit` deep; readers of values recurse
  on a bound computed from the length of the text.  A document is read statement
  by statement: a header opens a table, and an assignment goes to the table that
  was opened last.
-/
import Datebook.Toml.Lexical

namespace Datebook.Toml

open Datebook.Text

/-- The table in braces that assignments make, in their order. -/
def tableOf? (assignments : List (List String × Toml)) : Option Toml := do
  let entries ← assignments.foldlM (fun entries (keys, v) => assign keys v .braces entries) []
  some (.table .braces entries)

mutual

/-- A value, inside of `depth` others. -/
def value? : (fuel : Nat) → (depth : Nat) → List Char → Option (Toml × List Char)
  | 0, _, _ => none
  | fuel + 1, depth, cs =>
    match cs with
    | '"' :: _ => (string? cs).map fun (s, rest) => (.string s, rest)
    | '\x27' :: _ => (string? cs).map fun (s, rest) => (.string s, rest)
    | '[' :: rest =>
      if depth + 1 < depthLimit then
        (items? fuel (depth + 1) rest).map fun (items, rest) => (.array items, rest)
      else none
    | '\x7b' :: rest =>
      if depth + 1 < depthLimit then
        match skipSpace rest with
        | '\x7d' :: rest => some (.table .braces [], rest)
        | rest => do
          let (assignments, rest) ← assignments? fuel (depth + 1) rest
          some (← tableOf? assignments, rest)
      else none
    | 't' :: 'r' :: 'u' :: 'e' :: rest => some (.boolean true, rest)
    | 'f' :: 'a' :: 'l' :: 's' :: 'e' :: rest => some (.boolean false, rest)
    | cs => if startsMoment cs then moment? cs else number? cs

/-- The items of an array up to its end; a comma may stand behind the last. -/
def items? : (fuel : Nat) → (depth : Nat) → List Char → Option (List Toml × List Char)
  | 0, _, _ => none
  | fuel + 1, depth, cs => do
    match ← skipLines (cs.length + 1) cs with
    | ']' :: rest => some ([], rest)
    | cs => do
      let (v, cs) ← value? fuel depth cs
      match ← skipLines (cs.length + 1) cs with
      | ']' :: rest => some ([v], rest)
      | ',' :: rest => do
        let (vs, rest) ← items? fuel depth rest
        some (v :: vs, rest)
      | _ => none

/-- The assignments in braces up to their end, at least one, all on one line. -/
def assignments? : (fuel : Nat) → (depth : Nat) → List Char →
    Option (List (List String × Toml) × List Char)
  | 0, _, _ => none
  | fuel + 1, depth, cs => do
    let (keys, cs) ← key? cs
    match cs with
    | '=' :: cs => do
      let (v, cs) ← value? fuel depth (skipSpace cs)
      match skipSpace cs with
      | '\x7d' :: rest => some ([(keys, v)], rest)
      | ',' :: rest => do
        let (more, rest) ← assignments? fuel depth rest
        some ((keys, v) :: more, rest)
      | _ => none
    | _ => none

end

/-! ### Documents -/

/-- One statement of a document. -/
inductive Statement where
  | header (keys : List String)
  | item (keys : List String)
  | assignment (keys : List String) (v : Toml)

/-- A statement that stands at the front of a text, and the text behind its line. -/
def statement? (cs : List Char) : Option (Statement × List Char) :=
  match cs with
  | '[' :: '[' :: rest => do
    let (keys, rest) ← key? rest
    match rest with
    | ']' :: ']' :: rest => (lineEnd? rest).map fun rest => (.item keys, rest)
    | _ => none
  | '[' :: rest => do
    let (keys, rest) ← key? rest
    match rest with
    | ']' :: rest => (lineEnd? rest).map fun rest => (.header keys, rest)
    | _ => none
  | cs => do
    let (keys, rest) ← key? cs
    match rest with
    | '=' :: rest => do
      let rest := skipSpace rest
      let (v, rest) ← value? (2 * rest.length + 2) 0 rest
      (lineEnd? rest).map fun rest => (.assignment keys v, rest)
    | _ => none

/-- A document read so far, and the path of the table that is open. -/
structure Partway where
  document : Entries
  header : List String

def Partway.step? (p : Partway) : Statement → Option Partway
  | .header keys => (openTable keys p.document).map fun d => ⟨d, keys⟩
  | .item keys => (openItem keys p.document).map fun d => ⟨d, keys⟩
  | .assignment keys v => (assignUnder p.header keys v p.document).map fun d => { p with document := d }

/-- Read statements to the end of the text. -/
def statements? : (fuel : Nat) → Partway → List Char → Option Entries
  | 0, _, _ => none
  | fuel + 1, p, cs => do
    match ← skipTrivia (cs.length + 1) cs with
    | [] => some p.document
    | cs => do
      let (s, rest) ← statement? cs
      statements? fuel (← p.step? s) rest
where
  /-- Skip blank lines and comments; the last comment needs no line end. -/
  skipTrivia : (fuel : Nat) → List Char → Option (List Char)
    | 0, cs => some cs
    | fuel + 1, cs =>
      match skipSpace cs with
      | '#' :: rest => do
        match rest.dropWhile isCommentChar with
        | [] => some []
        | rest => do
          let rest ← newline? rest
          skipTrivia fuel rest
      | '\n' :: rest => skipTrivia fuel rest
      | '\r' :: '\n' :: rest => skipTrivia fuel rest
      | rest => some rest

/-- Read a document; a byte order mark may stand in front. -/
def readChars? (cs : List Char) : Option Entries :=
  let cs := match cs with
    | '\ufeff' :: rest => rest
    | cs => cs
  statements? (cs.length + 1) ⟨[], []⟩ cs

/-- The entries of a document. -/
def read? (s : String) : Option Entries := readChars? s.toList

end Datebook.Toml
