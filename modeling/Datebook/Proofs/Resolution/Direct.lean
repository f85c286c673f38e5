/-
  Datebook/Proofs/Resolution/Direct.lean
  ======================================
  **Resolving reads the reference and nothing else.**

  The resolver gets the call's text, with quotes and escapes in it, cuts it at its
  commas and looks for digits in the first piece.  What it finds there is the first
  run of digits of the reference itself (`FirstRun`), and what becomes of the
  command follows from this run and the listing alone: the first entry with this
  ordinal gives its id to the command.

  A listing may come with any ordinals, and with one ordinal twice.  In a listing
  that was numbered here, ordinals are the decimal texts of the places, each once,
  so a run with a zero in front of it or beyond the last place finds nothing.
-/
import Datebook.Proofs.Calendar.Listing
import Datebook.Proofs.Calendar.Redirection
import Datebook.Proofs.Text.Padded
import Mathlib.Data.List.Nodup

namespace Datebook

open Datebook.Text Datebook.Command

/-! ### The first run of digits -/

/-- `d` is the first run of digits in the text, as far as it goes. -/
def FirstRun (text d : String) : Prop :=
  ∃ before after, text.toList = before ++ (d.toList ++ after) ∧ (∀ c ∈ before, isDigit c = false) ∧
    d.toList ≠ [] ∧ (∀ c ∈ d.toList, isDigit c = true) ∧ ∀ c ∈ after.head?, isDigit c = false

theorem firstDigits?_run {run after : List Char} (hne : run ≠ [])
    (hrun : ∀ c ∈ run, isDigit c = true) (hafter : ∀ c ∈ after.head?, isDigit c = false) :
    firstDigits? (run ++ after) = some run := by
  cases run with
  | nil => exact absurd rfl hne
  | cons d ds =>
    have htail : (ds ++ after).takeWhile isDigit = ds :=
      takeWhile_isDigit_append (fun x hx => hrun x (by simp [hx])) hafter
    rw [List.cons_append, firstDigits?_cons_of_isDigit (hrun d (by simp)), htail]

theorem isRun_of_firstDigits? {cs run : List Char} (h : firstDigits? cs = some run) :
    run ≠ [] ∧ ∀ c ∈ run, isDigit c = true := by
  simp only [firstDigits?] at h
  split at h
  · cases h
  · rename_i hne
    cases h
    refine ⟨?_, fun c hc => List.mem_takeWhile_imp hc⟩
    intro hnil
    exact hne (List.isEmpty_iff.mpr hnil)

theorem targetOrdinal?_eq_some_iff {text d : String} :
    targetOrdinal? text = some d ↔ FirstRun text d := by
  constructor
  · intro h
    obtain ⟨run, hrun, rfl⟩ := Option.map_eq_some_iff.mp h
    obtain ⟨before, after, htext, hbefore, hafter⟩ := exists_append_of_firstDigits? hrun
    obtain ⟨hne, hdigits⟩ := isRun_of_firstDigits? hrun
    refine ⟨before, after, ?_, hbefore, ?_, ?_, hafter⟩
    · rw [String.toList_ofList, htext]
    · rwa [String.toList_ofList]
    · rwa [String.toList_ofList]
  · rintro ⟨before, after, htext, hbefore, hne, hdigits, hafter⟩
    rw [targetOrdinal?, htext, firstDigits?_append_of_not_isDigit hbefore,
      firstDigits?_run hne hdigits hafter, Option.map_some, String.ofList_toList]

/-! ### Looking it up -/

theorem lookupOrdinal?_of_first {before after : Listing} {e : ListingEntry} {d : String}
    (hbefore : ∀ x ∈ before, x.no ≠ d) (he : e.no = d) :
    lookupOrdinal? (before ++ e :: after) d = some e.id := by
  have hfind : (before ++ e :: after).find? (fun x => x.no == d) = some e := by
    rw [List.find?_eq_some_iff_append]
    refine ⟨beq_iff_eq.mpr he, before, after, rfl, ?_⟩
    intro x hx
    simpa using hbefore x hx
  rw [lookupOrdinal?, hfind, Option.map_some]

theorem lookupOrdinal?_eq_none_iff {l : Listing} {d : String} :
    lookupOrdinal? l d = none ↔ ∀ e ∈ l, e.no ≠ d := by
  rw [lookupOrdinal?, Option.map_eq_none_iff, List.find?_eq_none]
  simp

/-- In a numbered listing the ordinals are the decimal texts of the places. -/
theorem lookupOrdinal?_listing_eq_some_iff {events : List Event} {d id : String} :
    lookupOrdinal? (listing events) d = some id ↔
      ∃ n e, events[n]? = some e ∧ d = natText n ∧ e.id = id := by
  constructor
  · intro h
    obtain ⟨n, e, he, hid, hd⟩ := exists_place_of_lookupOrdinal? h
    rw [Nat.zero_add] at hd
    exact ⟨n, e, he, hd, hid⟩
  · rintro ⟨n, e, he, rfl, rfl⟩
    rw [lookupOrdinal?_listing, he, Option.map_some]

theorem map_no_listing (events : List Event) :
    (listing events).map (·.no) = (List.range events.length).map natText := by
  apply List.ext_getElem?
  intro n
  rw [List.getElem?_map, getElem?_listing, List.getElem?_map]
  by_cases hn : n < events.length
  · rw [List.getElem?_eq_getElem hn, List.getElem?_range hn]
    rfl
  · have hout : events.length ≤ n := not_lt.mp hn
    rw [List.getElem?_eq_none hout, List.getElem?_eq_none (by rwa [List.length_range])]
    rfl

theorem nodup_no_listing (events : List Event) : ((listing events).map (·.no)).Nodup := by
  rw [map_no_listing]
  exact List.nodup_range.map natText_injective

theorem natText_ne_of_leading_zero {d : String} (hzero : d.toList.head? = some '0')
    (hlong : 1 < d.toList.length) (n : Nat) : d ≠ natText n := by
  rintro rfl
  rw [natText, String.toList_ofList] at hzero hlong
  rcases Nat.eq_zero_or_pos n with rfl | hn
  · simp [numeral, reversedDigits] at hlong
  · exact head?_numeral_ne_zero (Nat.ne_of_gt hn) hzero

/-! ### What becomes of the command -/

namespace Resolution

variable {c : Command} {reference d : String}

theorem against_of_no_entry {l : Listing} (h : ∀ e ∈ l, e.no ≠ d) : against l c d = ⟨c, none⟩ := by
  simp only [against, lookupOrdinal?_eq_none_iff.mpr h]

theorem against_of_first (hc : c.scheduleId? = some reference) {before after : Listing}
    {e : ListingEntry} (hbefore : ∀ x ∈ before, x.no ≠ d) (he : e.no = d) :
    ∃ c', c'.verb = c.verb ∧ c'.parameters = e.id :: c.parameters.tail ∧
      against (before ++ e :: after) c d = ⟨c', some e.id⟩ := by
  have hlookup : lookupOrdinal? (before ++ e :: after) d = some e.id :=
    lookupOrdinal?_of_first hbefore he
  cases c with
  | add | list => cases hc
  | modify scheduleId description startTime endTime =>
    refine ⟨.modify e.id description startTime endTime, rfl, rfl, ?_⟩
    simp only [against, hlookup, withScheduleId?]
  | remove scheduleId =>
    refine ⟨.remove e.id, rfl, rfl, ?_⟩
    simp only [against, hlookup, withScheduleId?]

theorem resolvedId_against (hc : c.scheduleId? = some reference) (l : Listing) :
    (against l c d).resolvedId = lookupOrdinal? l d := by
  rw [against]
  cases lookupOrdinal? l d with
  | none => rfl
  | some id =>
    obtain ⟨c', hc', _⟩ := Command.exists_withScheduleId? hc id
    simp only [hc']

/-- **Resolving reads the reference directly.**  A command without a reference, or whose
    reference has no digit, comes back as it is and no calendar is asked.  Otherwise the
    calendar is asked once, and its failure is the answer; in the listing it gives, the
    first entry with the first run of digits as its ordinal puts its id in the place of
    the reference, and where no entry has it the command comes back as it is.  In a
    numbered listing the run has to be the numeral of a place; all ordinals are
    different, and none of them has a zero in front. -/
theorem ofCommand_reads_reference {m : Type → Type} [Monad m] [LawfulMonad m]
    (calendar : CalendarService m) (c : Command) :
    (c.scheduleId? = none ↔ c.verb = .add ∨ c.verb = .list) ∧
    (c.scheduleId? = none → ofCommand calendar c = pure (.ok ⟨c, none⟩)) ∧
    ∀ reference, c.scheduleId? = some reference →
      c.parameters.head? = some reference ∧
      ((∀ x ∈ reference.toList, isDigit x = false) →
        ofCommand calendar c = pure (.ok ⟨c, none⟩)) ∧
      ∀ d, FirstRun reference d →
        (ofCommand calendar c = calendar.list >>= fun
          | .error failure => pure (.error failure)
          | .ok l => pure (.ok (against l c d))) ∧
        (∀ l, (∀ e ∈ l, e.no ≠ d) → against l c d = ⟨c, none⟩) ∧
        (∀ before e after, (∀ x ∈ before, x.no ≠ d) → e.no = d →
          ∃ c', c'.verb = c.verb ∧ c'.parameters = e.id :: c.parameters.tail ∧
            against (before ++ e :: after) c d = ⟨c', some e.id⟩) ∧
        ∀ events, ((listing events).map (·.no)).Nodup ∧
          (∀ id, (against (listing events) c d).resolvedId = some id ↔
            ∃ (n : Nat) (e : Event), events[n]? = some e ∧ d = natText n ∧ e.id = id) ∧
          (d.toList.head? = some '0' → 1 < d.toList.length →
            against (listing events) c d = ⟨c, none⟩) := by
  refine ⟨?_, ?_, ?_⟩
  · cases c <;> simp [scheduleId?, verb]
  · intro hc
    rw [ofCommand_eq, hc, Option.bind_none]
  · intro reference hc
    refine ⟨head?_parameters hc, ?_, ?_⟩
    · intro hdigit
      have hnone : targetOrdinal? reference = none := by
        rw [targetOrdinal?, firstDigits?_eq_none_iff.mpr hdigit, Option.map_none]
      rw [ofCommand_eq, hc, Option.bind_some, hnone]
    · intro d hd
      refine ⟨?_, fun l => against_of_no_entry, ?_, ?_⟩
      · rw [ofCommand_eq, hc, Option.bind_some, targetOrdinal?_eq_some_iff.mpr hd]
        refine bind_congr fun answer => ?_
        cases answer <;> rfl
      · intro before e after hbefore he
        exact against_of_first hc hbefore he
      · intro events
        refine ⟨nodup_no_listing events, ?_, ?_⟩
        · intro id
          rw [resolvedId_against hc, lookupOrdinal?_listing_eq_some_iff]
        · intro hzero hlong
          apply against_of_no_entry
          intro e he heq
          obtain ⟨n, hn⟩ := List.mem_iff_getElem?.mp he
          rw [getElem?_listing] at hn
          obtain ⟨event, _, rfl⟩ := Option.map_eq_some_iff.mp hn
          exact natText_ne_of_leading_zero hzero hlong n heq.symm

/-- One ordinal stands twice, and one entry has a zero in front of it. -/
def repeated : Listing :=
  [⟨"01", "a", "", "", ""⟩, ⟨"1", "b\"", "", "", ""⟩, ⟨"1", "c", "", "", ""⟩]

/-- A calendar that counts how often it is asked. -/
def counting : CalendarService (StateM Nat) where
  list := fun asked => (.ok repeated, asked + 1)
  add := fun _ asked => (.ok "", asked + 1)
  update := fun _ _ asked => (.ok (), asked + 1)
  delete := fun _ asked => (.ok (), asked + 1)

/-- Quotes, a backslash, a comma and parentheses stand in front of the run that counts, and
    of two entries that have it the first is taken. -/
theorem ofCommand_reads_reference_counting :
    let c := Command.modify "\\\"), (\"1) No.01" "2" "" ""
    FirstRun "\\\"), (\"1) No.01" "1" ∧
      ofCommand counting c 0 = (.ok ⟨.modify "b\"" "2" "" "", some "b\""⟩, 1) ∧
      ofCommand counting (.remove "lunch") 0 = (.ok ⟨.remove "lunch", none⟩, 0) ∧
      ofCommand counting (.add "1" "" "") 0 = (.ok ⟨.add "1" "" "", none⟩, 0) := by
  intro c
  have hrun : FirstRun "\\\"), (\"1) No.01" "1" :=
    targetOrdinal?_eq_some_iff.mp (by decide +kernel)
  have hfound : against repeated c "1" = ⟨.modify "b\"" "2" "" "", some "b\""⟩ := by
    decide +kernel
  obtain ⟨_, _, hc⟩ := ofCommand_reads_reference counting c
  obtain ⟨_, _, hlunch⟩ := ofCommand_reads_reference counting (.remove "lunch")
  obtain ⟨_, hadd, _⟩ := ofCommand_reads_reference counting (.add "1" "" "")
  refine ⟨hrun, ?_, ?_, ?_⟩
  · rw [((hc _ rfl).2.2 "1" hrun).1, ← hfound]
    rfl
  · rw [(hlunch _ rfl).2.1 (firstDigits?_eq_none_iff.mp (by decide +kernel))]
    rfl
  · rw [hadd rfl]
    rfl

end Resolution

end Datebook
