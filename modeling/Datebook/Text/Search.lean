/-
  Datebook/Text/Search.lean
  =========================
  **Finding and replacing a fixed text** inside another one.

  `Text.contains` asks for an occurrence anywhere.  `replaceAll` replaces the
  occurrences met from left to right, each search resuming behind the last hit,
  so hits never overlap.  `splitFirst?`, `splitLast?` and `splitAt` cut at a single
  character.
-/
namespace Datebook.Text

/-- What is left of `cs` behind `needle`, if `cs` starts with it. -/
def dropLead? : (needle cs : List Char) → Option (List Char)
  | [], cs => some cs
  | _ :: _, [] => none
  | n :: ns, c :: cs => if n = c then dropLead? ns cs else none

/-- A lead that was dropped was there: putting it back gives the text again. -/
theorem eq_append_of_dropLead? {needle cs rest : List Char}
    (h : dropLead? needle cs = some rest) : cs = needle ++ rest := by
  induction needle generalizing cs with
  | nil => simpa [dropLead?] using h
  | cons n ns ih =>
    cases cs with
    | nil => simp [dropLead?] at h
    | cons c cs =>
      by_cases hc : n = c
      · simp only [dropLead?, hc, if_true] at h
        simp [hc, ih h]
      · simp [dropLead?, hc] at h

/-- Whether `needle` occurs in the text. -/
def contains (needle : List Char) : List Char → Bool
  | [] => needle.isEmpty
  | c :: cs => (dropLead? needle (c :: cs)).isSome || contains needle cs

/-- Replace the occurrences of `n :: ns`, leftmost first and never overlapping.
    `skip` counts the characters of a hit that are still to be passed over. -/
def replaceFrom (n : Char) (ns new : List Char) : (skip : Nat) → List Char → List Char
  | _, [] => []
  | k + 1, _ :: cs => replaceFrom n ns new k cs
  | 0, c :: cs =>
    if (dropLead? (n :: ns) (c :: cs)).isSome then
      new ++ replaceFrom n ns new ns.length cs
    else c :: replaceFrom n ns new 0 cs

/-- Replace every occurrence of `needle` by `new`; an empty needle is found nowhere. -/
def replaceAll (needle new cs : List Char) : List Char :=
  match needle with
  | [] => cs
  | n :: ns => replaceFrom n ns new 0 cs

/-- The text behind the last `c`, if there is one. -/
def afterLast? (c : Char) : List Char → Option (List Char)
  | [] => none
  | d :: ds =>
    match afterLast? c ds with
    | some rest => some rest
    | none => if d = c then some ds else none

/-- The text before the first `c` and the text behind it. -/
def splitFirst? (c : Char) : List Char → Option (List Char × List Char)
  | [] => none
  | d :: ds =>
    if d = c then some ([], ds) else (splitFirst? c ds).map fun (a, b) => (d :: a, b)

/-- The pieces between the separators; always at least one. -/
def splitAt (sep : Char) : List Char → List (List Char)
  | [] => [[]]
  | c :: cs =>
    if c = sep then [] :: splitAt sep cs
    else
      match splitAt sep cs with
      | piece :: rest => (c :: piece) :: rest
      | [] => [[c]]

/-- The text before the last `c` and the text behind it. -/
def splitLast? (c : Char) : List Char → Option (List Char × List Char)
  | [] => none
  | d :: ds =>
    match splitLast? c ds with
    | some (a, b) => some (d :: a, b)
    | none => if d = c then some ([], ds) else none

end Datebook.Text

namespace Datebook

/-- Whether `needle` occurs in `s`. -/
def textContains (s needle : String) : Bool := Text.contains needle.toList s.toList

/-- The text behind `lead`, if `s` starts with it. -/
def afterLead? (lead s : String) : Option String :=
  (Text.dropLead? lead.toList s.toList).map String.ofList

end Datebook
