/-
  Datebook/Proofs/Resolution.lean
  ===============================
  **What a reference is resolved to.**

  A reference is read off the text of the command, split and still quoted.
  `ofCommand_eq` says that this makes no difference: quoting adds no digit and
  takes none away (`targetOrdinal?_quote`), so a command is resolved as if its
  reference had been read directly, against the listing the calendar gives.

  In a listing numbered from zero, the ordinal `n` is that of the entry at place
  `n` (`lookupOrdinal?_listing`).
-/
import Datebook.Proofs.Command.Splitting
import Datebook.Proofs.Text.Numeral
import Datebook.Resolution

namespace Datebook

open Datebook.Text Datebook.Command

/-! ### The first run of digits -/

theorem firstDigits?_cons_of_not_isDigit {c : Char} (h : isDigit c = false) (cs : List Char) :
    firstDigits? (c :: cs) = firstDigits? cs := by
  simp [firstDigits?, h]

theorem firstDigits?_cons_of_isDigit {c : Char} (h : isDigit c = true) (cs : List Char) :
    firstDigits? (c :: cs) = some (c :: cs.takeWhile isDigit) := by
  simp [firstDigits?, h]

theorem firstDigits?_append_of_not_isDigit {a : List Char} (h : ∀ c ∈ a, isDigit c = false)
    (cs : List Char) : firstDigits? (a ++ cs) = firstDigits? cs := by
  induction a with
  | nil => rfl
  | cons c a ih =>
    rw [List.cons_append, firstDigits?_cons_of_not_isDigit (h c (by simp))]
    exact ih fun x hx => h x (by simp [hx])

/-- A numeral with no digit behind it is the first run as a whole. -/
theorem firstDigits?_numeral (n : Nat) {rest : List Char}
    (h : ∀ c ∈ rest.head?, isDigit c = false) :
    firstDigits? (numeral n ++ rest) = some (numeral n) := by
  have hdigits : ∀ c ∈ numeral n, isDigit c = true := fun c hc => isDigit_of_mem_numeral hc
  have hstop : rest.takeWhile isDigit = [] := by
    cases rest with
    | nil => rfl
    | cons c cs => simp [h c (by simp)]
  cases hn : numeral n with
  | nil => exact absurd hn (numeral_ne_nil n)
  | cons d ds =>
    rw [hn] at hdigits
    have hrun : (ds ++ rest).takeWhile isDigit = ds := by
      rw [List.takeWhile_append_of_pos fun x hx => hdigits x (by simp [hx]), hstop,
        List.append_nil]
    rw [List.cons_append, firstDigits?_cons_of_isDigit (hdigits d (by simp)), hrun]

/-- The escapes of a quoted text stand between its characters, never inside a run
    of digits. -/
theorem takeWhile_isDigit_escaped (cs : List Char) :
    (cs.flatMap escapeChar ++ ['"']).takeWhile isDigit = cs.takeWhile isDigit := by
  induction cs with
  | nil => decide
  | cons c cs ih =>
    by_cases hc : c = '"' ∨ c = '\\'
    · have hdigit : isDigit c = false := by
        rcases hc with rfl | rfl <;> decide
      have hbackslash : isDigit '\\' = false := by decide
      simp [escapeChar, hc, hdigit, hbackslash]
    · have hone : escapeChar c = [c] := by rw [escapeChar, if_neg hc]
      simp only [List.flatMap_cons, hone, List.cons_append, List.nil_append]
      cases hdigit : isDigit c with
      | true => simp [hdigit, ih]
      | false => simp [hdigit]

/-- Quoting does not change the first run of digits. -/
theorem firstDigits?_quote (cs : List Char) : firstDigits? (quote cs) = firstDigits? cs := by
  rw [quote, List.cons_append, firstDigits?_cons_of_not_isDigit (by decide)]
  induction cs with
  | nil => decide
  | cons c cs ih =>
    cases hdigit : isDigit c with
    | true =>
      have hone : escapeChar c = [c] := by
        rw [escapeChar, if_neg]
        rintro (rfl | rfl) <;> simp [isDigit] at hdigit
      rw [List.flatMap_cons, hone, List.append_assoc, List.cons_append, List.nil_append,
        firstDigits?_cons_of_isDigit hdigit, firstDigits?_cons_of_isDigit hdigit,
        takeWhile_isDigit_escaped]
    | false =>
      have hescape : ∀ x ∈ escapeChar c, isDigit x = false := by
        intro x hx
        rw [escapeChar] at hx
        split at hx
        · simp only [List.mem_cons, List.not_mem_nil, or_false] at hx
          rcases hx with rfl | rfl
          · decide
          · exact hdigit
        · simp only [List.mem_singleton] at hx
          rw [hx]
          exact hdigit
      rw [List.flatMap_cons, List.append_assoc, firstDigits?_append_of_not_isDigit hescape, ih,
        firstDigits?_cons_of_not_isDigit hdigit]

theorem targetOrdinal?_quote (reference : String) :
    targetOrdinal? (String.ofList (quote reference.toList)) = targetOrdinal? reference := by
  rw [targetOrdinal?, targetOrdinal?, String.toList_ofList, firstDigits?_quote]

/-! ### Looking an ordinal up -/

theorem lookupOrdinal?_listingFrom (k n : Nat) (es : List Event) :
    lookupOrdinal? (listingFrom k es) (natText (k + n)) = es[n]?.map (·.id) := by
  induction es generalizing k n with
  | nil => rfl
  | cons e es ih =>
    cases n with
    | zero => simp [lookupOrdinal?, listingFrom, Event.entry]
    | succ n =>
      have hno : (natText k == natText (k + (n + 1))) = false := by
        rw [beq_eq_false_iff_ne]
        intro h
        have := natText_injective h
        omega
      have hrest := ih (k + 1) n
      rw [show k + 1 + n = k + (n + 1) by omega] at hrest
      rw [List.getElem?_cons_succ, ← hrest, lookupOrdinal?, lookupOrdinal?, listingFrom,
        List.find?_cons]
      simp [Event.entry, hno]

theorem lookupOrdinal?_listing (es : List Event) (n : Nat) :
    lookupOrdinal? (listing es) (natText n) = es[n]?.map (·.id) := by
  have h := lookupOrdinal?_listingFrom 0 n es
  rwa [Nat.zero_add] at h

/-! ### Resolving a command -/

namespace Resolution

/-- The command with an ordinal looked up in a listing. -/
def against (l : Listing) (c : Command) (no : String) : Resolution :=
  match lookupOrdinal? l no with
  | none => ⟨c, none⟩
  | some id =>
    match c.withScheduleId? id with
    | some command => ⟨command, some id⟩
    | none => ⟨c, none⟩

theorem takesReference_eq (c : Command) : c.verb.takesReference = c.scheduleId?.isSome := by
  cases c <;> rfl

theorem head?_parameters {c : Command} {reference : String} (h : c.scheduleId? = some reference) :
    c.parameters.head? = some reference := by
  cases c with
  | add | list => cases h
  | modify | remove =>
    cases h
    rfl

variable {m : Type → Type} [Monad m] [LawfulMonad m]

/-- **Resolving is looking up the ordinal of the reference**, in the listing the
    calendar gives; without an ordinal the calendar is not asked. -/
theorem ofCommand_eq (calendar : CalendarService m) (c : Command) :
    ofCommand calendar c =
      match c.scheduleId?.bind targetOrdinal? with
      | none => pure (.ok ⟨c, none⟩)
      | some no => do return (← calendar.list).map fun l => against l c no := by
  rw [ofCommand, takesReference_eq]
  cases hreference : c.scheduleId? with
  | none => rfl
  | some reference =>
    have hordinal : ((splitArguments? c.render).bind List.head?).bind targetOrdinal? =
        targetOrdinal? reference := by
      rw [splitArguments?_render, Option.bind_some, List.head?_map, head?_parameters hreference,
        Option.map_some, Option.bind_some, targetOrdinal?_quote]
    simp only [Option.isSome_some, if_true, idOfCall, hordinal, Option.bind_some]
    cases targetOrdinal? reference with
    | none => simp
    | some no =>
      simp only [bind_assoc]
      refine bind_congr fun answer => ?_
      cases answer with
      | error failure => simp [Except.map]
      | ok l =>
        simp only [pure_bind, Except.map, against]
        cases lookupOrdinal? l no with
        | none => rfl
        | some id =>
          dsimp only
          cases c.withScheduleId? id <;> rfl

end Resolution

end Datebook
