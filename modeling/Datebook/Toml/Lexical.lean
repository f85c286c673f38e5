/-
  Datebook/Toml/Lexical.lean
  ==========================
  **The small parts of TOML**: white space, comments, strings, keys, numbers and
  dates.

  Each reader takes its part from the front of a text and gives back what is left;
  what must stand behind a part is for the caller to say.  Control characters are
  allowed nowhere but for the tab, and a carriage return only before a line feed.
-/
import Datebook.Toml.Value

namespace Datebook.Toml

open Datebook.Text

/-! ### White space and comments -/

def isSpace (c : Char) : Bool := c == ' ' || c == '\t'

def skipSpace (cs : List Char) : List Char := cs.dropWhile isSpace

/-- The text behind a line end. -/
def newline? : List Char → Option (List Char)
  | '\n' :: rest => some rest
  | '\r' :: '\n' :: rest => some rest
  | _ => none

/-- Whether a character may stand in a comment. -/
def isCommentChar (c : Char) : Bool := c == '\t' || (32 ≤ c.toNat && c.toNat != 127)

/-- Skip a comment, if one stands here. -/
def skipComment : List Char → List Char
  | '#' :: rest => rest.dropWhile isCommentChar
  | cs => cs

/-- The text behind the rest of a line: white space, a comment, and a line end or
    the end of the text. -/
def lineEnd? (cs : List Char) : Option (List Char) :=
  match skipComment (skipSpace cs) with
  | [] => some []
  | cs => newline? cs

/-- Skip white space, line ends and comments; a comment needs a line end. -/
def skipLines : (fuel : Nat) → List Char → Option (List Char)
  | 0, cs => some cs
  | fuel + 1, cs =>
    match skipSpace cs with
    | '#' :: rest =>
      match newline? (rest.dropWhile isCommentChar) with
      | some rest => skipLines fuel rest
      | none => none
    | '\n' :: rest => skipLines fuel rest
    | '\r' :: rest =>
      match rest with
      | '\n' :: rest => skipLines fuel rest
      | _ => none
    | rest => some rest

/-! ### Strings -/

/-- The number of `n` hexadecimal digits. -/
def hexNumber? : (n : Nat) → (sofar : Nat) → List Char → Option (Nat × List Char)
  | 0, sofar, cs => some (sofar, cs)
  | n + 1, sofar, c :: cs =>
    match hexValue? c with
    | some d => hexNumber? n (16 * sofar + d) cs
    | none => none
  | _ + 1, _, [] => none

/-- The character of a code point; half of a surrogate pair is none. -/
def scalar? (n : Nat) : Option Char := if n.isValidChar then some (Char.ofNat n) else none

/-- The character of an escape, from behind its backslash. -/
def escape? : List Char → Option (Char × List Char)
  | 'b' :: rest => some ('\x08', rest)
  | 't' :: rest => some ('\t', rest)
  | 'n' :: rest => some ('\n', rest)
  | 'f' :: rest => some ('\x0c', rest)
  | 'r' :: rest => some ('\r', rest)
  | '"' :: rest => some ('"', rest)
  | '\\' :: rest => some ('\\', rest)
  | 'u' :: rest => do
    let (n, rest) ← hexNumber? 4 0 rest
    some (← scalar? n, rest)
  | 'U' :: rest => do
    let (n, rest) ← hexNumber? 8 0 rest
    some (← scalar? n, rest)
  | _ => none

/-- Whether a character may stand for itself between the given quotes. -/
def isPlain (q c : Char) : Bool := isCommentChar c && c != q

/-- A string between double quotes, from behind the first one. -/
def basic? : (fuel : Nat) → List Char → Option (List Char × List Char)
  | 0, _ => none
  | _ + 1, [] => none
  | _ + 1, '"' :: rest => some ([], rest)
  | fuel + 1, '\\' :: rest => do
    let (c, rest) ← escape? rest
    let (s, rest) ← basic? fuel rest
    some (c :: s, rest)
  | fuel + 1, c :: rest =>
    if isPlain '"' c then (basic? fuel rest).map fun (s, rest) => (c :: s, rest) else none

/-- A string between single quotes, from behind the first one. -/
def literal? : List Char → Option (List Char × List Char)
  | [] => none
  | c :: rest =>
    if c = '\x27' then some ([], rest)
    else if isPlain '\x27' c then (literal? rest).map fun (s, rest) => (c :: s, rest)
    else none

/-- What a run of `k` quotes in a text between triple quotes means: more text, or
    the end with some quotes before it. -/
inductive QuoteRun where
  | content
  | ending (quotes : Nat)
  | tooMany
  deriving DecidableEq, Repr

def QuoteRun.ofLength (k : Nat) : QuoteRun :=
  if k < 3 then .content else if k < 6 then .ending (k - 3) else .tooMany

/-- The text behind an escaped line end: white space, a line end, and all white
    space and line ends that follow. -/
def lineContinuation? (cs : List Char) : Option (List Char) :=
  (newline? (skipSpace cs)).map skipAll
where
  skipAll : List Char → List Char
    | ' ' :: rest => skipAll rest
    | '\t' :: rest => skipAll rest
    | '\n' :: rest => skipAll rest
    | '\r' :: '\n' :: rest => skipAll rest
    | cs => cs

/-- A text between triple quotes, from behind them and a first line end.  Escapes
    are read between double quotes only. -/
def multiline? (q : Char) : (fuel : Nat) → List Char → Option (List Char × List Char)
  | 0, _ => none
  | fuel + 1, cs =>
    match cs with
    | [] => none
    | c :: rest =>
      if c = q then
        let run := cs.takeWhile (· == q)
        match QuoteRun.ofLength run.length with
        | .content => do
          let (s, rest) ← multiline? q fuel (cs.dropWhile (· == q))
          some (run ++ s, rest)
        | .ending k => some (List.replicate k q, cs.dropWhile (· == q))
        | .tooMany => none
      else if c = '\\' ∧ q = '"' then
        match lineContinuation? rest with
        | some rest => multiline? q fuel rest
        | none => do
          let (c, rest) ← escape? rest
          let (s, rest) ← multiline? q fuel rest
          some (c :: s, rest)
      else
        match newline? cs with
        | some rest => (multiline? q fuel rest).map fun (s, rest) => ('\n' :: s, rest)
        | none =>
          if isPlain q c then (multiline? q fuel rest).map fun (s, rest) => (c :: s, rest)
          else none

/-- Skip a line end right behind triple quotes. -/
def skipFirstNewline (cs : List Char) : List Char := (newline? cs).getD cs

/-- A string of any of the four kinds. -/
def string? (cs : List Char) : Option (String × List Char) :=
  let read := match cs with
    | '"' :: '"' :: '"' :: rest => multiline? '"' (rest.length + 1) (skipFirstNewline rest)
    | '"' :: rest => basic? (rest.length + 1) rest
    | '\x27' :: '\x27' :: '\x27' :: rest =>
      multiline? '\x27' (rest.length + 1) (skipFirstNewline rest)
    | '\x27' :: rest => literal? rest
    | _ => none
  read.map fun (s, rest) => (String.ofList s, rest)

/-! ### Keys -/

def isKeyChar (c : Char) : Bool :=
  ('a' ≤ c && c ≤ 'z') || ('A' ≤ c && c ≤ 'Z') || isDigit c || c == '-' || c == '_'

def simpleKey? (cs : List Char) : Option (String × List Char) :=
  match cs with
  | '"' :: rest => (basic? (rest.length + 1) rest).map fun (s, rest) => (String.ofList s, rest)
  | '\x27' :: rest => (literal? rest).map fun (s, rest) => (String.ofList s, rest)
  | cs =>
    let key := cs.takeWhile isKeyChar
    if key.isEmpty then none else some (String.ofList key, cs.dropWhile isKeyChar)

/-- How deep values and keys may go. -/
def depthLimit : Nat := 80

/-- The parts of a key, with white space around each. -/
def keyParts? : (fuel : Nat) → List Char → Option (List String × List Char)
  | 0, _ => none
  | fuel + 1, cs => do
    let (key, cs) ← simpleKey? (skipSpace cs)
    match skipSpace cs with
    | '.' :: rest => do
      let (keys, rest) ← keyParts? fuel rest
      some (key :: keys, rest)
    | rest => some ([key], rest)

/-- A key, with less than `depthLimit` parts. -/
def key? (cs : List Char) : Option (List String × List Char) := do
  let (keys, rest) ← keyParts? (cs.length + 1) cs
  if keys.length < depthLimit then some (keys, rest) else none

/-! ### Numbers -/

/-- Digits of a kind, single underscores between them. -/
def digitRun? (isKind : Char → Bool) (cs : List Char) : Option (List Char × List Char) :=
  match cs with
  | c :: rest => if isKind c then more (c :: []) rest else none
  | [] => none
where
  more (sofar : List Char) : List Char → Option (List Char × List Char)
    | '_' :: c :: rest => if isKind c then more (c :: sofar) rest else none
    | c :: rest =>
      if c = '_' then none
      else if isKind c then more (c :: sofar) rest
      else some (sofar.reverse, c :: rest)
    | [] => some (sofar.reverse, [])

/-- A sign, if one stands here: whether it is a minus. -/
def sign : List Char → Bool × List Char
  | '-' :: rest => (true, rest)
  | '+' :: rest => (false, rest)
  | cs => (false, cs)

/-- A decimal integer without its sign: no zero in front of other digits. -/
def decimal? (cs : List Char) : Option (List Char × List Char) :=
  match cs with
  | '0' :: rest => some (['0'], rest)
  | cs => digitRun? isDigit cs

/-- The number of digits in a base. -/
def valueIn (base : Nat) (ds : List Char) : Nat :=
  ds.foldl (fun n d => base * n + (hexValue? d).getD 0) 0

/-- An integer of 64 bits with a sign. -/
def integerOf? (n : Int) : Option Toml :=
  if -9223372036854775808 ≤ n ∧ n < 9223372036854775808 then some (.integer n) else none

def inBase? (base : Nat) (cs : List Char) : Option (Toml × List Char) := do
  let (ds, rest) ← digitRun? (fun c => (hexValue? c).any (· < base)) cs
  some (← integerOf? (valueIn base ds), rest)

/-- The exponent of a float, if one stands here. -/
def exponent? (cs : List Char) : Option (Int × List Char) :=
  match cs with
  | c :: rest =>
    if c = 'e' ∨ c = 'E' then do
      let (negative, rest) := sign rest
      let (ds, rest) ← digitRun? isDigit rest
      some (if negative then -(value ds : Int) else value ds, rest)
    else some (0, cs)
  | [] => some (0, [])

/-- The digits of a fraction, if one stands here. -/
def fraction? : List Char → Option (List Char × List Char)
  | '.' :: rest => digitRun? isDigit rest
  | cs => some ([], cs)

/-- The binary64 value of a float; what is too large is refused, what is too small
    below zero is not. -/
def floatOf? (negative : Bool) (digits : List Char) (exponent : Int) : Option Toml :=
  match BinaryFormat.binary64.ofDecimal negative (value digits) exponent with
  | .infinite false => none
  | x => some (.float x)

/-- An integer or a float. -/
def number? (cs : List Char) : Option (Toml × List Char) :=
  match cs with
  | '0' :: 'x' :: rest => inBase? 16 rest
  | '0' :: 'o' :: rest => inBase? 8 rest
  | '0' :: 'b' :: rest => inBase? 2 rest
  | cs =>
    let (negative, unsigned) := sign cs
    match unsigned with
    | 'i' :: 'n' :: 'f' :: rest => some (.float (.infinite negative), rest)
    | 'n' :: 'a' :: 'n' :: rest => some (.float .nan, rest)
    | _ => do
      let (whole, rest) ← decimal? unsigned
      match rest with
      | c :: _ =>
        if c = '.' ∨ c = 'e' ∨ c = 'E' then do
          let (fraction, rest) ← fraction? rest
          let (e, rest) ← exponent? rest
          some (← floatOf? negative (whole ++ fraction) (e - fraction.length), rest)
        else integer negative whole rest
      | [] => integer negative whole rest
where
  integer (negative : Bool) (whole rest : List Char) : Option (Toml × List Char) :=
    (integerOf? (if negative then -(value whole : Int) else value whole)).map fun v => (v, rest)

/-! ### Dates and times -/

/-- A number of exactly `n` digits within bounds. -/
def fixed? (n low high : Nat) (cs : List Char) : Option (Nat × List Char) :=
  let ds := cs.take n
  if ds.length = n ∧ ds.all isDigit ∧ low ≤ value ds ∧ value ds ≤ high then
    some (value ds, cs.drop n)
  else none

def mark? (c : Char) : List Char → Option (List Char)
  | d :: rest => if d = c then some rest else none
  | [] => none

/-- The text behind a time of day. -/
def afterTime? (cs : List Char) : Option (List Char) := do
  let (_, cs) ← fixed? 2 0 23 cs
  let cs ← mark? ':' cs
  let (_, cs) ← fixed? 2 0 59 cs
  let cs ← mark? ':' cs
  let (_, cs) ← fixed? 2 0 60 cs
  match cs with
  | '.' :: rest =>
    if (rest.takeWhile isDigit).isEmpty then none else some (rest.dropWhile isDigit)
  | cs => some cs

/-- The text behind an offset, if one stands here. -/
def afterOffset? (cs : List Char) : Option (List Char) :=
  match cs with
  | c :: rest =>
    if c = 'Z' ∨ c = 'z' then some rest
    else if c = '+' ∨ c = '-' then do
      let (_, cs) ← fixed? 2 0 23 rest
      let cs ← mark? ':' cs
      let (_, cs) ← fixed? 2 0 59 cs
      some cs
    else some cs
  | [] => some []

def daysIn (y m : Nat) : Nat :=
  if m = 2 then (if y % 4 = 0 ∧ (y % 100 ≠ 0 ∨ y % 400 = 0) then 29 else 28)
  else if m = 4 ∨ m = 6 ∨ m = 9 ∨ m = 11 then 30
  else 31

/-- The text behind a date. -/
def afterDate? (cs : List Char) : Option (List Char) := do
  let (y, cs) ← fixed? 4 0 9999 cs
  let cs ← mark? '-' cs
  let (m, cs) ← fixed? 2 1 12 cs
  let cs ← mark? '-' cs
  let (_, cs) ← fixed? 2 1 (daysIn y m) cs
  some cs

/-- The text behind a time and an offset, if a mark for a time stands here and a
    time behind it. -/
def afterTimePart? (cs : List Char) : Option (List Char) :=
  match cs with
  | c :: rest =>
    if c = 'T' ∨ c = 't' ∨ c = ' ' then
      match rest with
      | d :: _ => if isDigit d then (afterTime? rest).bind afterOffset? else some cs
      | [] => some cs
    else some cs
  | [] => some []

/-- Whether a date or a time starts here: four digits and a hyphen, or two digits
    and a colon. -/
def startsMoment (cs : List Char) : Bool :=
  ((cs.take 4).all isDigit && cs[4]? == some '-') ||
    ((cs.take 2).all isDigit && cs[2]? == some ':')

/-- A date, a time, or both. -/
def moment? (cs : List Char) : Option (Toml × List Char) :=
  let after := if cs[2]? == some ':' then afterTime? cs else (afterDate? cs).bind afterTimePart?
  after.map fun rest => (.moment, rest)

end Datebook.Toml
