/-
  Datebook/Command/Reader.lean
  ============================
  **Reading one command.**

  The accepted texts are `W verb W '(' W [lit W (',' W lit W)*] ')' W`, where `W`
  is any run of separators and a literal is a text between two equal quotes,
  single or double, in which a backslash stands for the character behind it.
  There is no recovery: an unknown verb, a wrong number of arguments, an argument
  without quotes, a parenthesis too few or anything behind the call is a fault.

  The list of literals is read greedily and gives back what it cannot use: where
  no literal follows a comma, the list ends *before* that comma, and the missing
  parenthesis is what gets reported, at the comma.

  Positions are kept as the text that remains; a remainder `rest` of `text` stands
  for the byte offset `byteLength text - byteLength rest`.
-/
import Datebook.Command.Basic
import Datebook.Text.Blank

namespace Datebook.Command

open Datebook.Text

/-- The length of a text in UTF-8 bytes. -/
def byteLength : List Char → Nat
  | [] => 0
  | c :: cs => c.utf8Size + byteLength cs

/-- The byte offset at which `rest` remains of `text`. -/
def offsetOf (text rest : List Char) : Nat := byteLength text - byteLength rest

def skipGaps (cs : List Char) : List Char := cs.dropWhile isGap

/-- The characters of a verb's word. -/
def isWordChar (c : Char) : Bool :=
  ('a' ≤ c && c ≤ 'z') || ('A' ≤ c && c ≤ 'Z') || ('0' ≤ c && c ≤ '9') || c == '_'

/-- The contents of a literal up to its closing quote, and the text behind it. -/
def literalBody (q : Char) : List Char → Option (List Char × List Char)
  | [] => none
  | '\\' :: [] => none
  | '\\' :: c :: rest => (literalBody q rest).map fun (s, r) => (c :: s, r)
  | c :: rest =>
    if c = q then some ([], rest) else (literalBody q rest).map fun (s, r) => (c :: s, r)

/-- A quoted text, and what follows it. -/
def literal? : List Char → Option (String × List Char)
  | [] => none
  | q :: rest =>
    if q = '"' ∨ q = '\x27' then
      (literalBody q rest).map fun (s, r) => (String.ofList s, r)
    else none

theorem literalBody_length {q : Char} {cs s rest : List Char}
    (h : literalBody q cs = some (s, rest)) : rest.length < cs.length := by
  fun_induction literalBody q cs generalizing s with
  | case1 => simp at h
  | case2 => simp at h
  | case3 c r ih =>
    simp only [Option.map_eq_some_iff, Prod.mk.injEq, Prod.exists] at h
    obtain ⟨s', r', hr, _, rfl⟩ := h
    have := ih hr
    simp; omega
  | case4 r => simp only [Option.some.injEq, Prod.mk.injEq] at h; simp [← h.2]
  | case5 c r _ _ _ ih =>
    simp only [Option.map_eq_some_iff, Prod.mk.injEq, Prod.exists] at h
    obtain ⟨s', r', hr, _, rfl⟩ := h
    have := ih hr
    simp; omega

theorem literal?_length {cs rest : List Char} {s : String}
    (h : literal? cs = some (s, rest)) : rest.length < cs.length := by
  cases cs with
  | nil => simp [literal?] at h
  | cons q cs =>
    simp only [literal?] at h
    split at h
    · simp only [Option.map_eq_some_iff, Prod.mk.injEq, Prod.exists] at h
      obtain ⟨s', r', hr, _, rfl⟩ := h
      have := literalBody_length hr
      simp; omega
    · simp at h

theorem skipGaps_length (cs : List Char) : (skipGaps cs).length ≤ cs.length :=
  (List.dropWhile_sublist _).length_le

/-- The literals that follow a first one, each behind a comma, and the text from
    the first comma without a literal on. -/
def moreLiterals (cs : List Char) : List String × List Char :=
  match _hs : skipGaps cs with
  | ',' :: afterComma =>
    match _hl : literal? (skipGaps afterComma) with
    | some (s, rest) =>
      let (ss, rest) := moreLiterals rest
      (s :: ss, rest)
    | none => ([], cs)
  | _ => ([], cs)
termination_by cs.length
decreasing_by
  have h1 := literal?_length _hl
  have h2 := skipGaps_length afterComma
  have h3 := skipGaps_length cs
  rw [_hs] at h3
  simp at h3
  omega

/-- The arguments of a call, from its opening parenthesis on, and the text behind
    the call.  A fault is given as the text that remained where it was noticed. -/
def arguments (cs : List Char) : Except (List Char) (List String × List Char) :=
  match skipGaps cs with
  | '(' :: inside =>
    let inside := skipGaps inside
    let (args, rest) :=
      match literal? inside with
      | some (s, rest) =>
        let (ss, rest) := moreLiterals rest
        (s :: ss, rest)
      | none => ([], inside)
    match skipGaps rest with
    | ')' :: rest => .ok (args, skipGaps rest)
    | rest => .error rest
  | rest => .error rest

/-- Read a command from a text in characters. -/
def readChars (text : List Char) : Except CommandFault Command :=
  let start := skipGaps text
  let word := start.takeWhile isWordChar
  if word.isEmpty then .error ⟨.noVerb, offsetOf text start⟩
  else
    match Verb.ofWord? (String.ofList word) with
    | none => .error ⟨.unknownVerb (String.ofList word), offsetOf text start⟩
    | some verb =>
      let call := skipGaps (start.dropWhile isWordChar)
      match arguments call with
      | .error rest => .error ⟨.noArguments, offsetOf text rest⟩
      | .ok (args, rest) =>
        if rest.isEmpty then
          match ofParameters verb args with
          | .ok command => .ok command
          | .error cause => .error ⟨cause, offsetOf text call⟩
        else .error ⟨.trailing (String.ofList (trimEnd rest)), offsetOf text rest⟩

/-- Read a single command. -/
def read (text : String) : Except CommandFault Command := readChars text.toList

end Datebook.Command
