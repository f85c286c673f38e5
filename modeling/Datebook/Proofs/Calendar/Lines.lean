/-
  Datebook/Proofs/Calendar/Lines.lean
  ===================================
  **A listing as it is shown, line by line.**

  `showListing` puts a line feed behind each entry, and between the entry's own number and
  times it pastes the subject as it is.  Number and times hold no line feed
  (`EventDetails` carries its times as date-times, so whatever a command says, they are
  written by `DateTime.text`).  A subject may hold some: the reader of commands takes a
  line feed between quotes for a character like any other.

  So the lines of the text are those of the entries, one after the other, and an entry has
  one line more than its subject has line feeds.  Its first line starts with its number;
  the others start with whatever the subject has there, which may look like a number too.
-/
import Datebook.Command.Reader
import Datebook.Console.Line
import Datebook.Proofs.Calendar.AllOrNothing
import Datebook.Proofs.Calendar.Listing
import Datebook.Proofs.Time.Placeholder
import Mathlib.Algebra.BigOperators.Group.List.Basic
import Mathlib.Algebra.GroupWithZero.Nat

namespace Datebook

open Datebook.Text

/-! ### Lines -/

theorem Console.linesOf_append_cons (a b : List Char) :
    linesOf (a ++ '\n' :: b) = splitAt '\n' a ++ linesOf b := by
  induction a with
  | nil => rfl
  | cons c a ih =>
    rw [List.cons_append, splitAt]
    by_cases hc : c = '\n'
    · rw [hc, if_pos rfl, linesOf, ih]
      rfl
    · obtain ⟨first, rest, ha⟩ := List.exists_cons_of_ne_nil (splitAt_ne_nil '\n' a)
      rw [if_neg hc, linesOf.eq_def]
      split
      · contradiction
      · rename_i heq
        exact absurd (List.cons.inj heq).1 hc
      · rename_i heq
        obtain ⟨rfl, rfl⟩ := List.cons.inj heq
        rw [ih, ha]
        rfl

/-- The line starts with the number of an entry. -/
def startsEntry (line : List Char) : Bool :=
  ((dropLead? "No.".toList line).bind List.head?).any isDigit

theorem startsEntry_number (n : Nat) (rest : List Char) :
    startsEntry ("No.".toList ++ (numeral n ++ rest)) = true := by
  have hhead := isDigit_of_mem_head? (numeral_ne_nil n) (fun c hc => isDigit_of_mem_numeral hc) rest
  rw [startsEntry, dropLead?_append]
  obtain ⟨c, hc⟩ := Option.isSome_iff_exists.mp
    (List.isSome_head?.mpr (List.append_ne_nil_of_left_ne_nil (numeral_ne_nil n) rest))
  simp [hc, hhead c hc]

/-- A space and what follows it make no number. -/
theorem startsEntry_append_space (line rest : List Char) :
    startsEntry (line ++ ' ' :: rest) = startsEntry line := by
  rw [startsEntry, startsEntry, dropLead?_append_cons (by decide)]
  cases dropLead? "No.".toList line with
  | none => rfl
  | some ds =>
    cases ds with
    | nil => exact (by decide : isDigit ' ' = false)
    | cons d ds => rfl

/-! ### Entries -/

namespace ListingEntry

/-- An entry with a number, and with times of one line. -/
structure Framed (e : ListingEntry) : Prop where
  no : ∃ n, e.no = natText n
  start : '\n' ∉ e.start.toList
  finish : '\n' ∉ e.finish.toList

/-- The lines of an entry as it is shown. -/
def lines (e : ListingEntry) : List (List Char) := splitAt '\n' e.text.toList

/-- The lines of the subject, behind the first, that look like entries of their own. -/
def impostors (e : ListingEntry) : Nat :=
  (splitAt '\n' e.subject.toList).tail.countP startsEntry

variable {e : ListingEntry}

/-- An entry is its subject between its number and its times, on one line each. -/
theorem Framed.exists_toList_text (h : e.Framed) : ∃ number times,
    '\n' ∉ number ∧ '\n' ∉ ' ' :: times ∧ (∀ rest, startsEntry (number ++ rest) = true) ∧
      e.text.toList = number ++ (e.subject.toList ++ ' ' :: times) := by
  obtain ⟨n, hn⟩ := h.no
  have hnumeral : '\n' ∉ numeral n :=
    fun hmem => absurd (isDigit_of_mem_numeral hmem) (by decide)
  refine ⟨"No.".toList ++ (numeral n ++ [' ']), e.start.toList ++ '-' :: e.finish.toList, ?_, ?_,
    ?_, ?_⟩
  · simp [hnumeral]
  · simp [h.start, h.finish]
  · intro rest
    rw [List.append_assoc, List.append_assoc]
    exact startsEntry_number n _
  · simp [text, hn, natText]

theorem Framed.length_lines (h : e.Framed) :
    e.lines.length = 1 + e.subject.toList.count '\n' := by
  obtain ⟨number, times, hnumber, htimes, -, htext⟩ := h.exists_toList_text
  rw [lines, length_splitAt, htext, List.count_append, List.count_append,
    List.count_eq_zero.mpr hnumber, List.count_eq_zero.mpr htimes]
  omega

/-- The first line of an entry starts with its number. -/
theorem Framed.countP_lines (h : e.Framed) : e.lines.countP startsEntry = 1 + e.impostors := by
  obtain ⟨number, times, hnumber, htimes, hstarts, htext⟩ := h.exists_toList_text
  obtain ⟨before, piece, hsubject, hbehind⟩ := exists_splitAt_append htimes e.subject.toList
  -- the subject shares its first line with the number, and its last one with the times
  cases before with
  | nil =>
    have hlines := splitAt_append_of_not_mem hnumber hbehind
    rw [lines, htext, hlines, List.countP_cons_of_pos (hstarts _), impostors, hsubject]
    rfl
  | cons first before =>
    have hlines := splitAt_append_of_not_mem hnumber hbehind
    rw [lines, htext, hlines, List.countP_cons_of_pos (hstarts _), impostors, hsubject,
      Nat.add_comm]
    simp [startsEntry_append_space]

end ListingEntry

/-! ### Listings -/

section

variable {l : Listing}

theorem toList_showListing (hl : l ≠ []) :
    (showListing l).toList = l.flatMap fun e => e.text.toList ++ ['\n'] := by
  have hentries : ∀ l : Listing, (l.foldr (fun e text => e.text ++ "\n" ++ text) "").toList =
      l.flatMap fun e => e.text.toList ++ ['\n'] := by
    intro l
    induction l with
    | nil => rfl
    | cons e l ih => simp [ih]
  rw [showListing, if_neg (by simpa using hl), hentries]

theorem showListing_eq_noScheduleFound_iff : showListing l = noScheduleFound ↔ l = [] := by
  constructor
  · intro h
    by_contra hl
    obtain ⟨e, rest, rfl⟩ := List.exists_cons_of_ne_nil hl
    have hfeed : '\n' ∈ noScheduleFound.toList := by
      rw [← h, toList_showListing hl]
      simp
    exact absurd hfeed (by decide)
  · rintro rfl
    rfl

theorem linesOf_showListing (hl : l ≠ []) :
    Console.linesOf (showListing l).toList = l.flatMap ListingEntry.lines := by
  rw [toList_showListing hl]
  clear hl
  induction l with
  | nil => rfl
  | cons e l ih =>
    rw [List.flatMap_cons, List.append_assoc, List.singleton_append, Console.linesOf_append_cons,
      ih, List.flatMap_cons, ListingEntry.lines]

theorem length_linesOf_showListing (hl : l ≠ []) (hframed : ∀ e ∈ l, e.Framed) :
    (Console.linesOf (showListing l).toList).length =
      l.length + (l.map fun e => e.subject.toList.count '\n').sum := by
  have hlines : l.map (fun e => e.lines.length) =
      l.map fun e => 1 + e.subject.toList.count '\n' :=
    List.map_congr_left fun e he => (hframed e he).length_lines
  rw [linesOf_showListing hl, List.length_flatMap, hlines, List.sum_map_add]
  simp

theorem countP_linesOf_showListing (hl : l ≠ []) (hframed : ∀ e ∈ l, e.Framed) :
    (Console.linesOf (showListing l).toList).countP startsEntry =
      l.length + (l.map ListingEntry.impostors).sum := by
  have hlines : l.map (fun e => e.lines.countP startsEntry) = l.map fun e => 1 + e.impostors :=
    List.map_congr_left fun e he => (hframed e he).countP_lines
  rw [linesOf_showListing hl, List.countP_flatMap, Function.comp_def, hlines, List.sum_map_add]
  simp

/-- Each entry has a line of its own exactly if no subject holds a line feed. -/
theorem linesOf_showListing_eq_map_iff (hl : l ≠ []) (hframed : ∀ e ∈ l, e.Framed) :
    Console.linesOf (showListing l).toList = l.map (·.text.toList) ↔
      ∀ e ∈ l, '\n' ∉ e.subject.toList := by
  constructor
  · intro h
    have hlength := length_linesOf_showListing hl hframed
    rw [h, List.length_map, left_eq_add, List.sum_eq_zero_iff_forall_eq_nat] at hlength
    intro e he
    exact List.count_eq_zero.mp (hlength _ (List.mem_map_of_mem he))
  · intro hsubjects
    rw [linesOf_showListing hl, List.map_eq_flatMap]
    refine List.flatMap_congr fun e he => ?_
    have hone := (hframed e he).length_lines
    rw [List.count_eq_zero.mpr (hsubjects e he), ListingEntry.lines, length_splitAt] at hone
    exact splitAt_of_not_mem (List.count_eq_zero.mp (by omega))

end

/-! ### Events that commands have made -/

/-- A date-time is written on one line. -/
theorem DateTime.newline_not_mem_text (t : DateTime) : '\n' ∉ t.text.toList := by
  have hdate : '\n' ∉ t.date.chars := t.date.not_mem_chars (by decide) (by decide) (by decide)
  have hpadded : ∀ n, '\n' ∉ padded 2 n :=
    fun n hmem => absurd (isDigit_of_mem_padded hmem) (by decide)
  simp [text, chars, TimeOfDay.chars, hdate, hpadded]

/-- An event as a command leaves it, with a subject that satisfies `P`. -/
structure Event.Made (P : String → Prop) (e : Event) : Prop where
  subject : P e.subject
  start : ∃ t : DateTime, e.start = t.text
  finish : ∃ t : DateTime, e.finish = t.text

variable {P : String → Prop}

theorem Event.Made.framed {e : Event} (h : e.Made P) (n : Nat) : (e.entry n).Framed where
  no := ⟨n, rfl⟩
  start := by
    obtain ⟨t, ht⟩ := h.start
    rw [Event.entry, ht]
    exact t.newline_not_mem_text
  finish := by
    obtain ⟨t, ht⟩ := h.finish
    rw [Event.entry, ht]
    exact t.newline_not_mem_text

theorem exists_of_mem_listing {es : List Event} {e : ListingEntry} (h : e ∈ listing es) :
    ∃ event ∈ es, ∃ n, e = event.entry n := by
  obtain ⟨n, hn⟩ := List.mem_iff_getElem?.mp h
  rw [getElem?_listing, Option.map_eq_some_iff] at hn
  obtain ⟨event, hevent, rfl⟩ := hn
  exact ⟨event, List.mem_of_getElem? hevent, n, rfl⟩

/-- What a command says that an event is about. -/
def Command.description? : Command → Option String
  | .add description _ _ | .modify _ description _ _ => some description
  | .remove _ | .list => none

namespace MemoryCalendar

variable {m m' : MemoryCalendar} {today : Date} {c : Command} {o : Outcome}

theorem Effect.made (h : Effect today m c o m') (hc : ∀ d ∈ c.description?, P d)
    (hm : ∀ e ∈ m.events, e.Made P) : ∀ e ∈ m'.events, e.Made P := by
  cases h with
  | added hd =>
    obtain ⟨start, finish, -, -, rfl⟩ := Execution.details_eq_ok_iff.mp hd
    intro e he
    rcases List.mem_append.mp he with he | he
    · exact hm e he
    · rw [List.mem_singleton.mp he]
      exact ⟨hc _ rfl, ⟨start, rfl⟩, ⟨finish, rfl⟩⟩
  | updated hd hes =>
    obtain ⟨start, finish, -, -, rfl⟩ := Execution.details_eq_ok_iff.mp hd
    obtain ⟨before, x, after, hevents, -, -, rfl⟩ := Store.exists_of_updateFirst? hes
    rw [hevents] at hm
    intro e he
    rcases List.mem_append.mp he with he | he
    · exact hm e (List.mem_append_left _ he)
    · rcases List.mem_cons.mp he with rfl | he
      · exact ⟨hc _ rfl, ⟨start, rfl⟩, ⟨finish, rfl⟩⟩
      · exact hm e (List.mem_append_right _ (List.mem_cons_of_mem _ he))
  | removed => exact fun e he => hm e (List.mem_of_mem_filter he)
  | listed => exact hm

/-- An available calendar whose events were all made by commands. -/
structure Filled (P : String → Prop) (m : MemoryCalendar) : Prop where
  available : m.store.available = true
  made : ∀ e ∈ m.events, e.Made P

theorem Filled.empty (ids : Supply String) : Filled P ⟨.empty, ids⟩ where
  available := rfl
  made _ he := absurd he List.not_mem_nil

theorem Filled.run (h : Filled P m) (hc : ∀ d ∈ c.description?, P d) :
    Filled P (Execution.run service today c m).2 := by
  cases hrun : Execution.run service today c m with
  | mk answer m' =>
    cases answer with
    | error failure =>
      rw [calendar_of_run_eq_error hrun]
      exact h
    | ok o =>
      obtain ⟨-, heffect⟩ := effect_of_run_eq_ok hrun
      refine ⟨?_, heffect.made hc h.made⟩
      cases heffect <;> exact h.available

/-- The calendar after commands, each of them on its day; those that fail leave it as it
    is. -/
def carriedOut (m : MemoryCalendar) (commands : List (Date × Command)) : MemoryCalendar :=
  commands.foldl (fun m (today, c) => (Execution.run service today c m).2) m

theorem Filled.carriedOut {commands : List (Date × Command)} (h : Filled P m)
    (hc : ∀ dated ∈ commands, ∀ d ∈ dated.2.description?, P d) :
    Filled P (m.carriedOut commands) := by
  induction commands generalizing m with
  | nil => exact h
  | cons dated commands ih =>
    have hstep : Filled P (Execution.run service dated.1 dated.2 m).2 :=
      h.run (hc dated List.mem_cons_self)
    exact ih hstep fun later hlater => hc later (List.mem_cons_of_mem _ hlater)

theorem Filled.list (h : Filled P m) : service.list m = (.ok (listing m.events), m) := by
  have hlist := Store.list_eq_ok_iff.mpr ⟨h.available, rfl⟩
  change (m.store.list.mapError Failure.calendar, m) = _
  rw [hlist]
  rfl

theorem Filled.framed (h : Filled P m) : ∀ e ∈ listing m.events, e.Framed := by
  intro e he
  obtain ⟨event, hevent, n, rfl⟩ := exists_of_mem_listing he
  exact (h.made event hevent).framed n

theorem Filled.subject (h : Filled P m) : ∀ e ∈ listing m.events, P e.subject := by
  intro e he
  obtain ⟨event, hevent, n, rfl⟩ := exists_of_mem_listing he
  exact (h.made event hevent).subject

/-- **What is shown has the lines of the subjects, and one for each entry.**  After any
    commands on a calendar that was empty, it gives a listing, whose entries are numbered
    from 0 on, and the text that is shown is that of no schedule exactly if there is none.
    Otherwise each entry stands there with its number, its subject as it is and its times,
    and a line feed behind it.

    So there is one line for each entry and one more for each line feed in a subject; and
    as many lines start with a number as there are entries, and lines of subjects, behind
    the first, that start like that.  The lines are the entries exactly if no subject holds
    a line feed, which is so if no description in the commands held one. -/
theorem showListing_lines (ids : Supply String) (commands : List (Date × Command)) :
    let m := carriedOut ⟨.empty, ids⟩ commands
    let l := listing m.events
    let lines := Console.linesOf (showListing l).toList
    service.list m = (.ok l, m) ∧
    (showListing l = noScheduleFound ↔ l = []) ∧
    (∀ (i : Nat) (e : ListingEntry), l[i]? = some e → e.no = natText i ∧
      e.text = "No." ++ natText i ++ " " ++ e.subject ++ " " ++ e.start ++ "-" ++ e.finish) ∧
    (l ≠ [] →
      (showListing l).toList = l.flatMap (fun e => e.text.toList ++ ['\n']) ∧
      lines = l.flatMap (fun e => splitAt '\n' e.text.toList) ∧
      lines.length = l.length + (l.map fun e => e.subject.toList.count '\n').sum ∧
      lines.countP startsEntry = l.length + (l.map ListingEntry.impostors).sum ∧
      (lines = l.map (·.text.toList) ↔ ∀ e ∈ l, '\n' ∉ e.subject.toList)) ∧
    ((∀ dated ∈ commands, ∀ d ∈ dated.2.description?, '\n' ∉ d.toList) → l ≠ [] →
      lines = l.map (·.text.toList) ∧ lines.countP startsEntry = l.length) := by
  intro m l lines
  have hfilled : Filled (fun _ => True) m := (Filled.empty ids).carriedOut fun _ _ _ _ => trivial
  refine ⟨hfilled.list, showListing_eq_noScheduleFound_iff, ?_, ?_, ?_⟩
  · intro i e he
    rw [getElem?_listing, Option.map_eq_some_iff] at he
    obtain ⟨event, -, rfl⟩ := he
    exact ⟨rfl, rfl⟩
  · intro hl
    exact ⟨toList_showListing hl, linesOf_showListing hl,
      length_linesOf_showListing hl hfilled.framed, countP_linesOf_showListing hl hfilled.framed,
      linesOf_showListing_eq_map_iff hl hfilled.framed⟩
  · intro hcommands hl
    have hplain : Filled (fun s => '\n' ∉ s.toList) m := (Filled.empty ids).carriedOut hcommands
    have hlines : lines = l.map (·.text.toList) :=
      (linesOf_showListing_eq_map_iff hl hfilled.framed).mpr hplain.subject
    refine ⟨hlines, ?_⟩
    have himpostors : ∀ e ∈ l, e.impostors = 0 := by
      intro e he
      rw [ListingEntry.impostors, splitAt_of_not_mem (hplain.subject e he)]
      rfl
    rw [countP_linesOf_showListing hl hfilled.framed, List.map_congr_left himpostors]
    simp

/-- Three commands, one of which fails for its time, leave one event and one line. -/
theorem showListing_lines_moved :
    let day : Date := ⟨2024, 3, 1, by decide⟩
    let commands : List (Date × Command) :=
      [(day, .add "No.7 Lunch" "YYYY-MM-DD 12:00:00" "YYYY-MM-DD 13:00:00"),
        (day, .add "Tea" "in the afternoon" "YYYY-MM-DD 17:00:00"),
        (day, .modify "new" "No.7 Dinner" "YYYY-MM-DD 19:00:00" "YYYY-MM-DD 20:00:00")]
    let l := listing (carriedOut ⟨.empty, .constant "new"⟩ commands).events
    showListing l = "No.0 No.7 Dinner 2024-03-01T19:00:00-2024-03-01T20:00:00\n" ∧
      Console.linesOf (showListing l).toList = l.map (·.text.toList) ∧
      (Console.linesOf (showListing l).toList).countP startsEntry = 1 := by
  intro day commands l
  have hshown : showListing l = "No.0 No.7 Dinner 2024-03-01T19:00:00-2024-03-01T20:00:00\n" := by
    decide +kernel
  have hlength : l.length = 1 := by decide +kernel
  obtain ⟨-, hempty, -, -, hplain⟩ := showListing_lines (.constant "new") commands
  have hl : l ≠ [] := by
    intro hnil
    rw [hnil] at hlength
    cases hlength
  obtain ⟨hlines, hcount⟩ := hplain (by decide) hl
  exact ⟨hshown, hlines, hcount.trans hlength⟩

/-- One event, from a command whose description is two lines between quotes, is shown as
    two entries, the second of which does not exist. -/
theorem showListing_fakes_entry :
    let reply := "add_outlook_schedule(\"Lunch\nNo.1 Dinner\", " ++
      "\"2024-03-01 12:00:00\", \"2024-03-01 13:00:00\")"
    ∃ c, Command.read reply = .ok c ∧
      let l := listing
        (carriedOut ⟨.empty, .constant "new"⟩ [(⟨2024, 3, 1, by decide⟩, c)]).events
      l.length = 1 ∧
      showListing l = "No.0 Lunch\nNo.1 Dinner 2024-03-01T12:00:00-2024-03-01T13:00:00\n" ∧
      (Console.linesOf (showListing l).toList).length = 2 ∧
      (Console.linesOf (showListing l).toList).countP startsEntry = 2 := by
  intro reply
  refine ⟨.add "Lunch\nNo.1 Dinner" "2024-03-01 12:00:00" "2024-03-01 13:00:00",
    by decide +kernel, by decide +kernel, by decide +kernel, by decide +kernel, by decide +kernel⟩

end MemoryCalendar

end Datebook
