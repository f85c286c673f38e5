/-
  Datebook/Proofs/Intent.lean
  ===========================
  **What a model says about the intent is read over the full range of 64 bits.**

  `Denotes` says which texts are integers, and which ones: a sign, if there is one, and
  one or more digits, each of which counts ten times as much as the one behind it.  The
  reply is such a text once the white space around it is gone, and then it is the integer
  if that has 64 bits; every other reply is read as the intent that is not known.

  A reader that works in 64 bits takes one digit after the other, and has to give up at
  the first product or sum that does not fit.  Every digit moves the number away from
  zero, so one that has left the range never comes back to it: giving up early and looking
  at the finished number come to the same (`takeDigits?_eq`).  Negative numbers are built
  downwards, since the lowest has no positive counterpart.  In particular no number is
  taken for another one, and the calendar is shown for the texts of 4 only.
-/
import Datebook.Proofs.Session.Stage
import Datebook.Proofs.Text.Cutting
import Datebook.Proofs.Text.Padded
import Mathlib.Data.Nat.Digits.Defs

namespace Datebook

open Datebook.Text

/-! ### Texts of integers -/

theorem Text.value_eq_ofDigits (ds : List Char) :
    value ds = Nat.ofDigits 10 (ds.map digitValue).reverse := by
  induction ds using List.reverseRecOn with
  | nil => rfl
  | append_singleton ds d ih =>
    rw [value_append_singleton, ih, List.map_append, List.reverse_append, List.map_singleton,
      List.reverse_singleton, List.singleton_append, Nat.ofDigits_cons]
    simp [Nat.add_comm]

/-- One or more digits, and the number that they are the decimal places of. -/
structure IsNumber (ds : List Char) (n : Nat) : Prop where
  ne_nil : ds ≠ []
  digits : ∀ c ∈ ds, isDigit c = true
  places : Nat.ofDigits 10 (ds.map digitValue).reverse = n

/-- A text of an integer. -/
inductive Denotes : List Char → Int → Prop where
  | bare {ds : List Char} {n : Nat} : IsNumber ds n → Denotes ds n
  | plus {ds : List Char} {n : Nat} : IsNumber ds n → Denotes ('+' :: ds) n
  | minus {ds : List Char} {n : Nat} : IsNumber ds n → Denotes ('-' :: ds) (-n)

variable {cs ds : List Char} {n : Nat} {i : Int}

theorem isNumber_iff :
    IsNumber ds n ↔ (!ds.isEmpty && ds.all isDigit) = true ∧ value ds = n := by
  rw [Bool.and_eq_true, Bool.not_eq_true', List.isEmpty_eq_false_iff, List.all_eq_true,
    value_eq_ofDigits]
  constructor
  · rintro ⟨hne, hdigits, hplaces⟩
    exact ⟨⟨hne, hdigits⟩, hplaces⟩
  · rintro ⟨⟨hne, hdigits⟩, hplaces⟩
    exact ⟨hne, hdigits, hplaces⟩

theorem isNumber_numeral (n : Nat) : IsNumber (numeral n) n where
  ne_nil := numeral_ne_nil n
  digits _ hc := isDigit_of_mem_numeral hc
  places := by rw [← value_eq_ofDigits, value_numeral]

theorem denotes_intText (i : Int) : Denotes (intText i).toList i := by
  rw [intText]
  split
  · have hminus : Denotes ('-' :: numeral i.natAbs) (-(i.natAbs : Int)) :=
      .minus (isNumber_numeral i.natAbs)
    rw [show -(i.natAbs : Int) = i by omega] at hminus
    simpa [natText] using hminus
  · have hbare : Denotes (numeral i.natAbs) (i.natAbs : Int) := .bare (isNumber_numeral i.natAbs)
    rw [show (i.natAbs : Int) = i by omega] at hbare
    simpa [natText] using hbare

/-- The sign in front of the digits, and what stands behind it. -/
def cutSign : List Char → Int × List Char
  | '+' :: ds => (1, ds)
  | '-' :: ds => (-1, ds)
  | ds => (1, ds)

theorem sign_cutSign (cs : List Char) : (cutSign cs).1 = 1 ∨ (cutSign cs).1 = -1 := by
  rw [cutSign.eq_def]
  split <;> simp

theorem cutSign_of_isNumber (h : IsNumber ds n) : cutSign ds = (1, ds) := by
  rw [cutSign.eq_def]
  split
  · exact absurd (h.digits '+' (by simp)) (by decide)
  · exact absurd (h.digits '-' (by simp)) (by decide)
  · rfl

theorem denotes_iff :
    Denotes cs i ↔ ∃ n : Nat, IsNumber (cutSign cs).2 n ∧ i = (cutSign cs).1 * n := by
  constructor
  · intro h
    cases h with
    | @bare _ n hn => exact ⟨n, by rwa [cutSign_of_isNumber hn], by simp [cutSign_of_isNumber hn]⟩
    | @plus _ n hn => exact ⟨n, hn, by simp [cutSign]⟩
    | @minus _ n hn => exact ⟨n, hn, by simp [cutSign]⟩
  · rintro ⟨n, hn, rfl⟩
    rw [cutSign.eq_def] at hn ⊢
    split at hn
    · simpa using Denotes.plus hn
    · simpa using Denotes.minus hn
    · simpa using Denotes.bare hn

theorem signedNumeral?_eq (cs : List Char) :
    signedNumeral? cs =
      if !(cutSign cs).2.isEmpty && (cutSign cs).2.all isDigit then
        some ((cutSign cs).1 * value (cutSign cs).2)
      else none := by
  rw [signedNumeral?.eq_def, cutSign.eq_def]
  split <;> simp

theorem signedNumeral?_eq_some_iff : signedNumeral? cs = some i ↔ Denotes cs i := by
  rw [signedNumeral?_eq, denotes_iff, Option.ite_none_right_eq_some, Option.some.injEq]
  simp only [isNumber_iff]
  constructor
  · rintro ⟨hdigits, rfl⟩
    exact ⟨_, ⟨hdigits, rfl⟩, rfl⟩
  · rintro ⟨n, ⟨hdigits, rfl⟩, rfl⟩
    exact ⟨hdigits, rfl⟩

/-! ### Reading within 64 bits -/

/-- Take one more digit into a number, away from zero, unless the product or the sum
    leaves the 64 bits. -/
def takeDigit? (sign i : Int) (d : Char) : Option Int :=
  if isInt64 (10 * i) then
    if isInt64 (10 * i + sign * digitValue d) then some (10 * i + sign * digitValue d) else none
  else none

def takeDigits? (sign : Int) (ds : List Char) : Option Int := ds.foldlM (takeDigit? sign) 0

/-- Read an integer of 64 bits, digit by digit. -/
def int64? (cs : List Char) : Option Int :=
  let (sign, ds) := cutSign cs
  if !ds.isEmpty && ds.all isDigit then takeDigits? sign ds else none

/-- To give up at the first digit too many is to look at the number in the end. -/
theorem takeDigits?_eq {sign : Int} (hsign : sign = 1 ∨ sign = -1) (ds : List Char) :
    takeDigits? sign ds = if isInt64 (sign * value ds) then some (sign * value ds) else none := by
  induction ds using List.reverseRecOn with
  | nil =>
    have hzero : sign * (value [] : Nat) = 0 := by simp [value]
    rw [hzero]
    rfl
  | append_singleton ds d ih =>
    have hmore : sign * (value (ds ++ [d]) : Nat) = 10 * (sign * value ds) + sign * digitValue d := by
      rw [value_append_singleton]
      push_cast
      ring
    rw [takeDigits?, List.foldlM_append, ← takeDigits?, ih, hmore]
    -- the number grows away from zero, so what fits in the end has fitted all the time
    have hstay : isInt64 (10 * (sign * value ds) + sign * digitValue d) = true →
        isInt64 (10 * (sign * value ds)) = true ∧ isInt64 (sign * value ds) = true := by
      simp only [isInt64_iff]
      rcases hsign with rfl | rfl <;> omega
    by_cases hfits : isInt64 (10 * (sign * value ds) + sign * digitValue d) = true
    · obtain ⟨hproduct, hbefore⟩ := hstay hfits
      simp [hbefore, takeDigit?, hproduct, hfits]
    · by_cases hbefore : isInt64 (sign * value ds) = true
      · simp [hbefore, takeDigit?, hfits]
      · simp [hbefore, hfits]

theorem interpretReply_eq (reply : String) :
    interpretReply reply = (int64? (trim reply.toList)).getD Intent.other.code := by
  rw [interpretReply, signedNumeral?_eq, int64?]
  dsimp only
  by_cases hdigits : (!(cutSign (trim reply.toList)).2.isEmpty &&
      (cutSign (trim reply.toList)).2.all isDigit) = true
  · rw [if_pos hdigits, if_pos hdigits, takeDigits?_eq (sign_cutSign _)]
    dsimp only
    split <;> rfl
  · rw [if_neg hdigits, if_neg hdigits]
    rfl

/-! ### Replies -/

theorem interpretReply_of_denotes {reply : String} (h : Denotes (trim reply.toList) i)
    (hi : isInt64 i = true) : interpretReply reply = i := by
  rw [interpretReply, signedNumeral?_eq_some_iff.mpr h]
  exact if_pos hi

theorem interpretReply_of_other {reply : String}
    (h : ∀ i, Denotes (trim reply.toList) i → ¬ isInt64 i = true) :
    interpretReply reply = Intent.other.code := by
  rw [interpretReply]
  cases hread : signedNumeral? (trim reply.toList) with
  | none => rfl
  | some i => exact if_neg (h i (signedNumeral?_eq_some_iff.mp hread))

theorem interpretReply_eq_listSchedule_iff (reply : String) :
    interpretReply reply = Intent.listSchedule.code ↔ Denotes (trim reply.toList) 4 := by
  constructor
  · intro h
    by_cases hread : ∃ i, Denotes (trim reply.toList) i ∧ isInt64 i = true
    · obtain ⟨i, hdenotes, hi⟩ := hread
      rw [interpretReply_of_denotes hdenotes hi] at h
      rwa [h] at hdenotes
    · have hother := interpretReply_of_other fun i hdenotes hi => hread ⟨i, hdenotes, hi⟩
      rw [hother] at h
      cases h
  · intro h
    exact interpretReply_of_denotes h (by decide)

theorem bare_of_denotes (h : Denotes cs i) : Bare isBlank cs := by
  have hsolid : cs ≠ [] ∧ ∀ c ∈ cs, isBlank c = false := by
    have hplus : isBlank '+' = false := by decide
    have hminus : isBlank '-' = false := by decide
    cases h with
    | bare hn => exact ⟨hn.ne_nil, fun c hc => isBlank_of_isDigit (hn.digits c hc)⟩
    | plus hn | minus hn =>
      refine ⟨List.cons_ne_nil _ _, fun c hc => ?_⟩
      rcases List.mem_cons.mp hc with rfl | hc
      · assumption
      · exact isBlank_of_isDigit (hn.digits c hc)
  exact ⟨fun c hc => hsolid.2 c (List.mem_of_mem_head? hc),
    fun c hc => hsolid.2 c (List.mem_of_mem_getLast? hc)⟩

/-! ### Turns -/

namespace Session

/-- The calendar was to be shown, whether or not it gave a listing. -/
def Course.IsListing : Course → Prop
  | .unlisted _ _ | .listed _ _ => True
  | _ => False

variable {W : Type} {services : Services (StateM W)} {s s' : Session} {question reply : String}
  {w w₁ w' : W} {course : Course}

theorem Heard.asksForCommand_iff {intent : IntentCode} {s₁ : Session}
    (h : Heard services s question w intent s₁ w')
    (hreply : services.model.complete Purpose.intent.instructions s.transcript.messages question w =
      (.ok reply, w₁)) :
    (Strategy.ofCode intent).asksForCommand = false ↔ Denotes (trim reply.toList) 4 := by
  cases h with
  | mk hintent =>
    rw [hreply] at hintent
    cases hintent
    rw [Strategy.asksForCommand_ofCode, interpretReply_eq_listSchedule_iff]

theorem Takes.isListing_iff (h : Takes services s question w course s' w')
    (hreply : services.model.complete Purpose.intent.instructions s.transcript.messages question w =
      (.ok reply, w₁)) :
    course.IsListing ↔ Denotes (trim reply.toList) 4 := by
  cases h with
  | unclassified hintent =>
    rw [hreply] at hintent
    cases hintent
  | unlisted hheard hshow | listed hheard hshow =>
    rw [← hheard.asksForCommand_iff hreply]
    exact iff_of_true trivial hshow
  | unanswered hheard hask =>
    rw [← hheard.asksForCommand_iff hreply, hask]
    exact iff_of_false id (by simp)
  | words hreplied | unresolved hreplied | refused hreplied | executed hreplied =>
    cases hreplied with
    | mk hheard hask =>
      rw [← hheard.asksForCommand_iff hreply, hask]
      exact iff_of_false id (by simp)

end Session

/-- **A reply about the intent is read as the integer that it denotes.**
    What is read is the reply without the white space at its two ends.  If that denotes an
    integer of 64 bits, the intent is this integer; if it denotes none, or one beyond the
    64 bits, the intent is not known.  So the text of every integer of 64 bits is read back,
    with any white space around it, and reading digit by digit within 64 bits comes to the
    same.

    A turn shows the calendar, or would show it if there were a listing to be had, exactly
    if what the model said about the intent denotes 4. -/
theorem interpretReply_reads (reply : String) :
    (∃ before behind, reply.toList = before ++ trim reply.toList ++ behind ∧
      (∀ c ∈ before, isBlank c = true) ∧ (∀ c ∈ behind, isBlank c = true) ∧
      Bare isBlank (trim reply.toList)) ∧
    (∀ i, Denotes (trim reply.toList) i → -9223372036854775808 ≤ i → i < 9223372036854775808 →
      interpretReply reply = i) ∧
    ((¬ ∃ i, Denotes (trim reply.toList) i ∧ -9223372036854775808 ≤ i ∧
      i < 9223372036854775808) → interpretReply reply = 5) ∧
    (∀ (i : Int) (before behind : List Char), -9223372036854775808 ≤ i →
      i < 9223372036854775808 →
      (∀ c ∈ before, isBlank c = true) → (∀ c ∈ behind, isBlank c = true) →
      interpretReply (String.ofList (before ++ (intText i).toList ++ behind)) = i) ∧
    interpretReply reply = (int64? (trim reply.toList)).getD 5 ∧
    ∀ {W : Type} (services : Services (StateM W)) (s : Session) (question : String) (w w₁ : W),
      services.model.complete Purpose.intent.instructions s.transcript.messages question w =
        (.ok reply, w₁) →
      ∃ course s' w', s.send services question w = ((course.answer, s'), w') ∧
        Session.Takes services s question w course s' w' ∧
        (course.IsListing ↔ Denotes (trim reply.toList) 4) := by
  refine ⟨exists_append_trim _, ?_, ?_, ?_, interpretReply_eq reply, ?_⟩
  · intro i hdenotes hlow hhigh
    exact interpretReply_of_denotes hdenotes (isInt64_iff.mpr ⟨hlow, hhigh⟩)
  · intro hother
    refine interpretReply_of_other fun i hdenotes hi => hother ⟨i, hdenotes, ?_⟩
    exact isInt64_iff.mp hi
  · intro i before behind hlow hhigh hbefore hbehind
    have hdenotes := denotes_intText i
    have htrim : trim (before ++ (intText i).toList ++ behind) = (intText i).toList :=
      trim_append hbefore hbehind (bare_of_denotes hdenotes)
    refine interpretReply_of_denotes ?_ (isInt64_iff.mpr ⟨hlow, hhigh⟩)
    rwa [String.toList_ofList, htrim]
  · intro W services s question w w₁ hreply
    obtain ⟨course, s', w', hsend, htakes⟩ :=
      Session.exists_takes_send services s question w
    exact ⟨course, s', w', hsend, htakes, htakes.isListing_iff hreply⟩

/-- The lowest integer between a no-break space and a line feed, and one that would be 4 if
    it were cut to 64 bits; then a turn that shows the calendar for another text of 4. -/
theorem interpretReply_reads_lowest :
    interpretReply "\u00a0-009223372036854775808\n" = -9223372036854775808 ∧
    interpretReply "18446744073709551620" = 5 ∧
    ∃ (course : Session.Course) (s' : Session) (stage' : Stage),
      Session.empty.send Stage.services "What is on?" (Stage.onNewYear [] [.ok " +0004 "]) =
        ((course.answer, s'), stage') ∧ course.IsListing := by
  have hlowest : Denotes (trim "\u00a0-009223372036854775808\n".toList) (-9223372036854775808) :=
    .minus (n := 9223372036854775808) (isNumber_iff.mpr (by decide))
  have hfour : Denotes (trim " +0004 ".toList) 4 :=
    .plus (n := 4) (isNumber_iff.mpr (by decide))
  obtain ⟨-, hread, -⟩ := interpretReply_reads "\u00a0-009223372036854775808\n"
  obtain ⟨-, -, -, -, hcut, -⟩ := interpretReply_reads "18446744073709551620"
  obtain ⟨-, -, -, -, -, hturn⟩ := interpretReply_reads " +0004 "
  obtain ⟨course, s', stage', hsend, -, hlisting⟩ :=
    hturn Stage.services .empty "What is on?" (Stage.onNewYear [] [.ok " +0004 "]) _ rfl
  refine ⟨hread _ hlowest (by decide) (by decide), hcut.trans (by decide), course, s', stage',
    hsend, hlisting.mpr hfour⟩

end Datebook
