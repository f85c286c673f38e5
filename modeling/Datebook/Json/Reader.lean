/-
  Datebook/Json/Reader.lean
  =========================
  **Reading JSON text.**

  The reader takes one value with white space around it and nothing else.  It
  recurses on a bound for the nesting, which is the length of the text: every
  level costs at least one character, so the bound is never reached.

  A `\u` escape may name half of a surrogate pair.  Two halves that belong
  together make one character; any other half makes the string `unreadable`,
  which is a fault only where the string is used.
-/
import Datebook.Json.Basic

namespace Datebook.Json

open Datebook.Text

def isSpace (c : Char) : Bool := c == ' ' || c == '\t' || c == '\n' || c == '\r'

def skipSpace (cs : List Char) : List Char := cs.dropWhile isSpace

/-! ### Strings -/

/-- The number four hexadecimal digits denote, and the text behind them. -/
def hex4? : List Char → Option (Nat × List Char)
  | a :: b :: c :: d :: rest => do
    let a ← hexValue? a
    let b ← hexValue? b
    let c ← hexValue? c
    let d ← hexValue? d
    some (((a * 16 + b) * 16 + c) * 16 + d, rest)
  | _ => none

/-- One unit of a string: a character, or half of a surrogate pair. -/
inductive Unit16 where
  | char (c : Char)
  | high (n : Nat)
  | low (n : Nat)
  deriving DecidableEq, Repr

/-- The unit that a `\u` escape names. -/
def Unit16.ofCode (n : Nat) : Unit16 :=
  if 0xD800 ≤ n ∧ n < 0xDC00 then .high n
  else if 0xDC00 ≤ n ∧ n < 0xE000 then .low n
  else .char (Char.ofNat n)

/-- The character a letter behind a backslash stands for. -/
def shortEscape? (c : Char) : Option Char :=
  if c = '"' ∨ c = '\\' ∨ c = '/' then some c
  else if c = 'b' then some '\x08'
  else if c = 'f' then some '\x0c'
  else if c = 'n' then some '\n'
  else if c = 'r' then some '\r'
  else if c = 't' then some '\t'
  else none

theorem hex4?_length {cs rest : List Char} {n : Nat} (h : hex4? cs = some (n, rest)) :
    rest.length < cs.length := by
  unfold hex4? at h
  split at h
  · simp only [Option.bind_eq_bind, Option.bind_eq_some_iff, Option.some.injEq,
      Prod.mk.injEq] at h
    obtain ⟨_, _, _, _, _, _, _, _, _, rfl⟩ := h
    simp; omega
  · simp at h

/-- The units of a string up to its closing quote, and the text behind it. -/
def units? (cs : List Char) : Option (List Unit16 × List Char) :=
  match cs with
  | [] => none
  | '"' :: rest => some ([], rest)
  | '\\' :: 'u' :: digits =>
    match _h : hex4? digits with
    | some (n, rest) => (units? rest).map fun (us, r) => (.ofCode n :: us, r)
    | none => none
  | '\\' :: c :: rest =>
    match shortEscape? c with
    | some c => (units? rest).map fun (us, r) => (.char c :: us, r)
    | none => none
  | c :: rest =>
    if c.toNat < 32 ∨ c = '\\' then none
    else (units? rest).map fun (us, r) => (.char c :: us, r)
termination_by cs.length
decreasing_by
  · have := hex4?_length _h
    simp only [List.length_cons]; omega
  · simp only [List.length_cons]; omega
  · simp only [List.length_cons]; omega

/-- The text of a run of units, if no half of a pair is alone in it. -/
def textOfUnits? : List Unit16 → Option (List Char)
  | [] => some []
  | .char c :: us => (textOfUnits? us).map (c :: ·)
  | .high h :: .low l :: us =>
    (textOfUnits? us).map (Char.ofNat (0x10000 + (h - 0xD800) * 0x400 + (l - 0xDC00)) :: ·)
  | _ :: _ => none

/-- A string from behind its opening quote: its text, if it has one, and what
    follows. -/
def string? (cs : List Char) : Option (Option String × List Char) :=
  (units? cs).map fun (us, rest) => ((textOfUnits? us).map String.ofList, rest)

/-! ### Numbers -/

/-- Digits, at least one. -/
def digits? (cs : List Char) : Option (List Char × List Char) :=
  let ds := cs.takeWhile isDigit
  if ds.isEmpty then none else some (ds, cs.dropWhile isDigit)

/-- A whole number without a superfluous zero in front. -/
def whole? : List Char → Option (List Char × List Char)
  | '0' :: rest => if (rest.takeWhile isDigit).isEmpty then some (['0'], rest) else none
  | cs => digits? cs

/-- An exponent, if one stands here. -/
def exponent? : List Char → Option (List Char × List Char)
  | e :: rest =>
    if e = 'e' ∨ e = 'E' then
      match rest with
      | s :: more =>
        if s = '+' ∨ s = '-' then (digits? more).map fun (ds, r) => (e :: s :: ds, r)
        else (digits? rest).map fun (ds, r) => (e :: ds, r)
      | [] => none
    else some ([], e :: rest)
  | [] => some ([], [])

/-- A fraction, if one stands here. -/
def fraction? : List Char → Option (List Char × List Char)
  | '.' :: rest => (digits? rest).map fun (ds, r) => ('.' :: ds, r)
  | cs => some ([], cs)

/-- A number, as written. -/
def number? (cs : List Char) : Option (String × List Char) := do
  let (sign, cs) := match cs with
    | '-' :: rest => (['-'], rest)
    | cs => ([], cs)
  let (w, cs) ← whole? cs
  let (f, cs) ← fraction? cs
  let (e, cs) ← exponent? cs
  some (String.ofList (sign ++ w ++ f ++ e), cs)

/-! ### Values -/

/-- The text behind a fixed word. -/
def word? (w : List Char) (cs : List Char) : Option (List Char) :=
  match w, cs with
  | [], cs => some cs
  | a :: w, c :: cs => if a = c then word? w cs else none
  | _ :: _, [] => none

/-- An object, or `unreadable` where one of its names has no text. -/
def ofMembers (members : List (Option String × Json)) : Json :=
  match members.mapM fun (k, v) => k.map fun k => (k, v) with
  | some members => .object members
  | none => .unreadable

mutual

/-- A value at the front of a text that starts with no white space. -/
def value? : Nat → List Char → Option (Json × List Char)
  | 0, _ => none
  | fuel + 1, cs =>
    match cs with
    | [] => none
    | '"' :: rest =>
      (string? rest).map fun (s, r) => ((s.map Json.string).getD .unreadable, r)
    | '[' :: rest =>
      match skipSpace rest with
      | ']' :: r => some (.array [], r)
      | r => (items? fuel r).map fun (vs, r) => (.array vs, r)
    | '\x7b' :: rest =>
      match skipSpace rest with
      | '\x7d' :: r => some (.object [], r)
      | r => (members? fuel r).map fun (ms, r) => (ofMembers ms, r)
    | 't' :: rest => (word? ['r', 'u', 'e'] rest).map fun r => (.bool true, r)
    | 'f' :: rest => (word? ['a', 'l', 's', 'e'] rest).map fun r => (.bool false, r)
    | 'n' :: rest => (word? ['u', 'l', 'l'] rest).map fun r => (.null, r)
    | cs => (number? cs).map fun (t, r) => (.number t, r)

/-- The items of an array from the first one on, up to its end. -/
def items? : Nat → List Char → Option (List Json × List Char)
  | 0, _ => none
  | fuel + 1, cs => do
    let (v, cs) ← value? fuel cs
    match skipSpace cs with
    | ']' :: rest => some ([v], rest)
    | ',' :: rest => do
      let (vs, rest) ← items? fuel (skipSpace rest)
      some (v :: vs, rest)
    | _ => none

/-- The members of an object from the first one on, up to its end. -/
def members? : Nat → List Char → Option (List (Option String × Json) × List Char)
  | 0, _ => none
  | fuel + 1, cs =>
    match cs with
    | '"' :: cs => do
      let (k, cs) ← string? cs
      match skipSpace cs with
      | ':' :: cs => do
        let (v, cs) ← value? fuel (skipSpace cs)
        match skipSpace cs with
        | '\x7d' :: rest => some ([(k, v)], rest)
        | ',' :: rest => do
          let (ms, rest) ← members? fuel (skipSpace rest)
          some ((k, v) :: ms, rest)
        | _ => none
      | _ => none
    | _ => none

end

def readChars? (cs : List Char) : Option Json := do
  let (v, rest) ← value? (cs.length + 1) (skipSpace cs)
  if (skipSpace rest).isEmpty then some v else none

/-- Read one value. -/
def read? (s : String) : Option Json := readChars? s.toList

end Datebook.Json
