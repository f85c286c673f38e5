/-
  Datebook/Proofs/Url/Extension.lean
  ==================================
  **Reading an address with a slash and a text put behind it.**

  `readChars?` finds the server in front of the path, and the path, query and fragment
  in what is left (`readChars?_eq`).  A slash and a text behind an address change nothing
  in front of the path: the text, without what an address may end in, goes to
  the end of what is left (`parts?_append`).  Whether it then belongs to the path
  depends on whether a question mark or a hash sign comes before it.
-/
import Datebook.Url.Basic
import Datebook.Proofs.Text.Cutting
import Mathlib.Data.List.TakeWhile

namespace Datebook.Url

open Datebook.Text

/-! ### The server, and where it is asked -/

/-- An address in three parts. -/
structure Parts where
  secure : Bool
  /-- Between the slashes in front and the path. -/
  authority : List Char
  /-- Path, query and fragment. -/
  rest : List Char

def isSlash (c : Char) : Bool := c == '/' || c == '\\'

/-- Cut an address whose scheme has been read. -/
def cutAuthority (secure : Bool) (cs : List Char) : Parts :=
  let cs := cs.dropWhile isSlash
  ⟨secure, cs.takeWhile fun c => !endsAuthority c, cs.dropWhile fun c => !endsAuthority c⟩

def parts? (cs : List Char) : Option Parts :=
  (scheme? (clean cs)).map fun (secure, cs) => cutAuthority secure cs

/-- The server an authority names, asked for nothing yet. -/
def server? (secure : Bool) (authority : List Char) : Option Url := do
  let (userInfo, hostPort) :=
    match splitLast? '@' authority with
    | some (info, hostPort) => (readUserInfo info, hostPort)
    | none => (("", ""), authority)
  let (hostText, portText) := cutPort false hostPort
  let host ← host? hostText
  let port ← port? portText
  some
    { secure, userInfo, host, path := [], query := none
      port := port.getD (if secure then 443 else 80) }

/-- Drop the slash in front of a path. -/
def dropSlash (path : List Char) : List Char :=
  match path with
  | c :: more => if c = '/' ∨ c = '\\' then more else path
  | [] => []

/-- Path and query, without the fragment behind them. -/
def pathAndQuery (rest : List Char) : List Char × Option String :=
  match splitFirst? '?' (rest.takeWhile (· != '#')) with
  | some (path, query) => (path, some (String.ofList (percentEncode keepInQuery query)))
  | none => (rest.takeWhile (· != '#'), none)

/-- Ask the server for what the rest of an address says. -/
def ask (u : Url) (rest : List Char) : Url :=
  { u with
    path := readPath (dropSlash (pathAndQuery rest).1)
    query := (pathAndQuery rest).2 }

theorem readChars?_eq (cs : List Char) :
    readChars? cs =
      (parts? cs).bind fun p => (server? p.secure p.authority).map fun u => u.ask p.rest := by
  rw [readChars?, parts?]
  cases scheme? (clean cs) with
  | none => rfl
  | some scheme =>
    obtain ⟨secure, cs⟩ := scheme
    simp only [Option.bind_eq_bind, Option.bind_some, Option.map_some, server?, Option.map_bind,
      Function.comp_def]
    rfl

/-! ### A slash and a text behind -/

/-- What an address may be surrounded by. -/
def isOuter (c : Char) : Bool := decide (c.toNat ≤ 32)

/-- What stays in an address when tabs and line ends go. -/
def isKept (c : Char) : Bool := !(c == '\t' || c == '\n' || c == '\r')

/-- What is left of the end of an address. -/
def cleanEnd (cs : List Char) : List Char := (cs.reverse.dropWhile isOuter).reverse.filter isKept

theorem clean_eq (cs : List Char) : clean cs = cleanEnd (cs.dropWhile isOuter) := rfl

theorem isKept_of_not_isOuter {c : Char} (h : isOuter c = false) : isKept c = true := by
  rw [isKept, Bool.not_eq_true', ← Bool.not_eq_true]
  intro hc
  simp only [Bool.or_eq_true, beq_iff_eq] at hc
  rcases hc with (rfl | rfl) | rfl <;> exact absurd h (by decide)

theorem cleanEnd_sublist (cs : List Char) : (cleanEnd cs).Sublist cs :=
  List.filter_sublist.trans (isPrefix_dropWhile_end isOuter cs).sublist

theorem cleanEnd_append_outer {c : Char} (hc : isOuter c = true) (cs : List Char) :
    cleanEnd (cs ++ [c]) = cleanEnd cs := by
  simp [cleanEnd, hc]

theorem cleanEnd_eq_self_iff {cs : List Char} :
    cleanEnd cs = cs ↔ (∀ c ∈ cs, isKept c = true) ∧ ∀ c ∈ cs.getLast?, isOuter c = false := by
  constructor
  · intro h
    constructor
    · intro c hc
      rw [← h] at hc
      exact (List.mem_filter.mp hc).2
    · intro c hc
      obtain ⟨front, rfl⟩ := List.getLast?_eq_some_iff.mp hc
      rw [← Bool.not_eq_true]
      intro houter
      have hlength := (cleanEnd_sublist front).length_le
      rw [← cleanEnd_append_outer houter, h, List.length_append, List.length_singleton] at hlength
      omega
  · rintro ⟨hkept, hlast⟩
    have hrev : cs.reverse.dropWhile isOuter = cs.reverse := by
      apply dropWhile_of_head
      rw [List.head?_reverse]
      exact hlast
    rw [cleanEnd, hrev, List.reverse_reverse, List.filter_eq_self]
    exact hkept

theorem cleanEnd_append_cons {c : Char} (hc : isOuter c = false) (a b : List Char) :
    cleanEnd (a ++ c :: b) = a.filter isKept ++ c :: cleanEnd b := by
  have hrev : (a ++ c :: b).reverse = b.reverse ++ c :: a.reverse := by simp
  rw [cleanEnd, hrev, dropWhile_append_cons hc, cleanEnd]
  simp [isKept_of_not_isOuter hc]

theorem clean_append_cons {c : Char} (hc : isOuter c = false) (a b : List Char) :
    clean (a ++ c :: b) = (a.dropWhile isOuter).filter isKept ++ c :: cleanEnd b := by
  rw [clean_eq, dropWhile_append_cons hc, cleanEnd_append_cons hc]

/-- A character that can stand at the end of an address to which a slash is added: it
    stays there, and it is in front of the slash whatever part it belongs to. -/
structure Solid (c : Char) : Prop where
  not_outer : isOuter c = false
  not_slash : isSlash c = false
  not_colon : c ≠ ':'

/-- Whether the scheme is the encrypted one. -/
def secure? (scheme : List Char) : Option Bool :=
  let scheme := scheme.map Char.toLower
  if scheme = ['h', 't', 't', 'p'] then some false
  else if scheme = ['h', 't', 't', 'p', 's'] then some true
  else none

theorem scheme?_eq (cs : List Char) : scheme? cs =
    (splitFirst? ':' cs).bind fun (scheme, rest) =>
      (secure? scheme).map fun secure => (secure, rest) := by
  rw [scheme?]
  cases splitFirst? ':' cs with
  | none => rfl
  | some cut =>
    simp only [Option.bind_eq_bind, Option.bind_some, secure?]
    split
    · rfl
    · split <;> rfl

theorem not_mem_scheme {scheme : List Char} {secure : Bool} (h : secure? scheme = some secure)
    {c : Char} (hc : c.toLower ∉ ['h', 't', 't', 'p', 's']) : c ∉ scheme := by
  intro hmem
  have hlower : c.toLower ∈ scheme.map Char.toLower := List.mem_map_of_mem hmem
  simp only [secure?] at h
  split at h
  · rename_i hhttp
    rw [hhttp] at hlower
    exact hc (List.mem_append_left ['s'] hlower)
  · split at h
    · rename_i hhttps
      rw [hhttps] at hlower
      exact hc hlower
    · cases h

/-- A scheme ends before the text that is added, or there is none: a slash has no place
    in a scheme. -/
theorem scheme?_append {c : Char} (hc : c ≠ ':') (a : List Char) :
    (∃ secure b, ∀ x, scheme? (a ++ c :: x) = some (secure, b ++ c :: x)) ∨
      scheme? (a ++ [c]) = none ∧ ∀ x, scheme? (a ++ c :: '/' :: x) = none := by
  simp only [scheme?_eq]
  by_cases hcolon : ':' ∈ a
  · obtain ⟨s, b, rfl, hs⟩ := List.eq_append_cons_of_mem hcolon
    have hsplit (x : List Char) : splitFirst? ':' ((s ++ ':' :: b) ++ x) = some (s, b ++ x) := by
      rw [List.append_assoc]
      exact splitFirst?_append hs (b ++ x)
    simp only [hsplit, Option.bind_some]
    cases secure? s with
    | none => exact .inr ⟨rfl, fun x => rfl⟩
    | some secure => exact .inl ⟨secure, b, fun x => rfl⟩
  · right
    have hcolonc : ':' ∉ a ++ [c] := by simp [hcolon, Ne.symm hc]
    have hsplit := splitFirst?_append_of_not_mem hcolonc
    constructor
    · have hnone := hsplit []
      rw [List.append_nil] at hnone
      rw [hnone]
      rfl
    · intro x
      have hslash : a ++ c :: '/' :: x = (a ++ [c]) ++ '/' :: x := by simp
      rw [hslash, hsplit, splitFirst?, if_neg (by decide)]
      cases splitFirst? ':' x with
      | none => rfl
      | some cut =>
        simp only [Option.map_some, Option.bind_some, Option.map_eq_none_iff]
        cases hsecure : secure? (a ++ [c] ++ '/' :: cut.1) with
        | none => rfl
        | some secure =>
          have hnot := not_mem_scheme hsecure (show Char.toLower '/' ∉ _ by decide)
          exact absurd (by simp) hnot

/-- Behind an address a slash and a text go to the end of what is left of it. -/
theorem parts?_append {c : Char} (hc : Solid c) (a x : List Char) :
    parts? (a ++ c :: '/' :: x) =
      (parts? (a ++ [c])).map fun p => { p with rest := p.rest ++ '/' :: cleanEnd x } := by
  have hslash : cleanEnd ('/' :: x) = '/' :: cleanEnd x := cleanEnd_append_cons (by decide) [] x
  rw [parts?, parts?, clean_append_cons hc.not_outer, clean_append_cons hc.not_outer, hslash]
  rcases scheme?_append hc.not_colon ((a.dropWhile isOuter).filter isKept) with
    ⟨secure, b, hb⟩ | ⟨hnone, hslash⟩
  · have hall (y : List Char) : cutAuthority secure (b ++ c :: '/' :: y) =
        { cutAuthority secure (b ++ [c]) with
          rest := (cutAuthority secure (b ++ [c])).rest ++ '/' :: y } := by
      have happend : b.dropWhile isSlash ++ c :: '/' :: y =
          (b.dropWhile isSlash ++ [c]) ++ '/' :: y := by simp
      simp only [cutAuthority]
      rw [dropWhile_append_cons hc.not_slash, dropWhile_append_cons hc.not_slash, happend,
        takeWhile_append_cons (by decide), dropWhile_append_cons (by decide)]
    have hempty : cleanEnd [] = [] := rfl
    simp [hb, hall, hempty]
  · have hempty : cleanEnd [] = [] := rfl
    rw [hempty, hnone, hslash]
    rfl

/-- What an address reads as when a slash and a text are put behind it. -/
theorem readChars?_append {c : Char} (hc : Solid c) (a x : List Char) :
    readChars? (a ++ c :: '/' :: x) =
      (parts? (a ++ [c])).bind fun p =>
        (server? p.secure p.authority).map fun u => u.ask (p.rest ++ '/' :: cleanEnd x) := by
  rw [readChars?_eq, parts?_append hc]
  cases parts? (a ++ [c]) with
  | none => rfl
  | some p => rfl

/-! ### Where question marks and hash signs go -/

theorem mem_cleanEnd {c : Char} (hc : isOuter c = false) {cs : List Char} :
    c ∈ cleanEnd cs ↔ c ∈ cs := by
  rw [cleanEnd, List.mem_filter, List.mem_reverse, mem_dropWhile hc, List.mem_reverse]
  exact and_iff_left (isKept_of_not_isOuter hc)

theorem mem_clean {c : Char} (hc : isOuter c = false) {cs : List Char} :
    c ∈ clean cs ↔ c ∈ cs := by
  rw [clean_eq, mem_cleanEnd hc, mem_dropWhile hc]

/-- A mark that ends the authority without being a slash is in what is left of the
    address, if it is anywhere. -/
theorem mem_rest_iff {cs : List Char} {p : Parts} (h : parts? cs = some p) {c : Char}
    (hc : c = '?' ∨ c = '#') : c ∈ p.rest ↔ c ∈ cs := by
  have houter : isOuter c = false := by rcases hc with rfl | rfl <;> decide
  have hslash : isSlash c = false := by rcases hc with rfl | rfl <;> decide
  have hends : (!endsAuthority c) = false := by rcases hc with rfl | rfl <;> decide
  have hscheme : c.toLower ∉ ['h', 't', 't', 'p', 's'] := by rcases hc with rfl | rfl <;> decide
  have hcolon : c ≠ ':' := by rcases hc with rfl | rfl <;> decide
  rw [parts?, scheme?_eq] at h
  simp only [Option.map_eq_some_iff, Option.bind_eq_some_iff, Prod.exists] at h
  obtain ⟨secure, b, ⟨scheme, rest, hsplit, _, hsecure, heq⟩, rfl⟩ := h
  cases heq
  have hclean : c ∈ clean cs ↔ c ∈ cs := mem_clean houter
  rw [cutAuthority, mem_dropWhile hends, mem_dropWhile hslash, ← hclean,
    eq_append_of_splitFirst? hsplit]
  simp [not_mem_scheme hsecure hscheme, hcolon]

theorem takeWhile_ne_hash {cs : List Char} (h : '#' ∉ cs) : cs.takeWhile (· != '#') = cs := by
  rw [List.takeWhile_eq_self_iff]
  intro c hc
  simp only [bne_iff_ne, ne_eq]
  rintro rfl
  exact h hc

theorem ask_of_plain {u : Url} {rest : List Char} (hquery : '?' ∉ rest) (hhash : '#' ∉ rest) :
    u.ask rest = { u with path := readPath (dropSlash rest), query := none } := by
  have hsplit := splitFirst?_append_of_not_mem hquery []
  rw [List.append_nil] at hsplit
  simp [ask, pathAndQuery, takeWhile_ne_hash hhash, hsplit, splitFirst?]

theorem query_ask_ne_none {u : Url} {rest : List Char} (hquery : '?' ∈ rest) (hhash : '#' ∉ rest) :
    (u.ask rest).query ≠ none := by
  obtain ⟨path, query, rfl, hpath⟩ := List.eq_append_cons_of_mem hquery
  simp [ask, pathAndQuery, takeWhile_ne_hash hhash, splitFirst?_append hpath]

/-! ### Paths -/

/-- The path with every slash written one way. -/
def slashed (cs : List Char) : List Char := cs.map fun c => if c = '\\' then '/' else c

theorem slashed_eq_self_iff {cs : List Char} : slashed cs = cs ↔ '\\' ∉ cs := by
  constructor
  · intro h hback
    rw [← h, slashed, List.mem_map] at hback
    obtain ⟨c, _, hc⟩ := hback
    split at hc
    · exact absurd hc (by decide)
    · contradiction
  · intro h
    refine (List.map_congr_left fun c hc => if_neg ?_).trans (List.map_id' cs)
    rintro rfl
    exact h hc

/-- Where no slash is left over, there was no backslash. -/
theorem suffix_of_suffix_slashed {piece cs : List Char} (h : piece <:+ slashed cs)
    (hslash : '/' ∉ piece) : piece <:+ cs := by
  obtain ⟨front, hfront⟩ := h
  obtain ⟨a, b, rfl, _, hb⟩ := List.map_eq_append_iff.mp hfront.symm
  have hsame : slashed b = b := by
    rw [slashed_eq_self_iff]
    intro hback
    refine hslash ?_
    rw [← hb]
    exact List.mem_map.mpr ⟨_, hback, rfl⟩
  have hpiece : slashed b = piece := hb
  rw [← hpiece, hsame]
  exact List.suffix_append a b

theorem readPath_eq (cs : List Char) :
    readPath cs = (addSegments [] (splitAt '/' (slashed cs))).reverse.map String.ofList := rfl

/-- A slash and a text behind the path add the segments of that text. -/
theorem exists_splitAt_dropSlash (rest : List Char) : ∃ before, ∀ x,
    splitAt '/' (slashed (dropSlash (rest ++ '/' :: x))) = before ++ splitAt '/' (slashed x) := by
  have happend (a x : List Char) :
      splitAt '/' (slashed (a ++ '/' :: x)) = splitAt '/' (slashed a) ++ splitAt '/' (slashed x) := by
    rw [slashed, List.map_append]
    exact splitAt_append '/' (slashed a) (slashed x)
  cases rest with
  | nil => exact ⟨[], fun x => rfl⟩
  | cons c m =>
    by_cases hc : c = '/' ∨ c = '\\'
    · refine ⟨splitAt '/' (slashed m), fun x => ?_⟩
      rw [List.cons_append, dropSlash, if_pos hc, happend]
    · refine ⟨splitAt '/' (slashed (c :: m)), fun x => ?_⟩
      rw [List.cons_append, dropSlash, if_neg hc, ← List.cons_append, happend]

/-- Segments with others behind them are all put in the path in the same way. -/
theorem addSegments_append (sofar before : List (List Char)) {more : List (List Char)}
    (hmore : more ≠ []) :
    addSegments sofar (before ++ more) =
      addSegments (before.foldl (fun path s => addSegment path s false) sofar) more := by
  induction before generalizing sofar with
  | nil => rfl
  | cons s before ih =>
    obtain ⟨next, rest, hnext⟩ := List.exists_cons_of_ne_nil
      (show before ++ more ≠ [] by simp [hmore])
    rw [List.cons_append, List.foldl_cons, ← ih, hnext]
    rfl

end Datebook.Url
