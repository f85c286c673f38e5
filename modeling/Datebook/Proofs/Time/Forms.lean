/-
  Datebook/Proofs/Time/Forms.lean
  ===============================
  **The two forms of a date-time have no text in common**, and the gate in front of
  the second one lets through exactly the texts that have a fraction.

  The readers of numbers are liberal: they skip white space, and a year with a sign
  may have any number of digits.  Still, whatever they pass over consists of white
  space, digits, signs, dashes and colons (`PassesTo`).  So

    * a text of the plain form consists of such characters only (`plain?_clock`);
    * a text of the other form has such characters on both sides of a `T`, and behind
      them nothing, or a point and digits (`marked?_shape`).

  A `T` is in every text of the second form and in none of the first.  A point is
  in a text of the second form only where its fraction starts, and the gate asks
  for a point with digits behind it up to the end (`endsWithFraction_iff`), so it
  agrees with the reader.  The letter `Y` is in no text of either form, so no
  placeholder is left in a text that is read.
-/
import Datebook.Proofs.Time.Written
import Mathlib.Data.List.Infix
import Mathlib.Data.List.TakeWhile

namespace Datebook.Time

open Datebook.Text

/-! ### What the readers pass over -/

/-- The characters of dates and times of day. -/
def isClockChar (c : Char) : Bool :=
  isBlank c || isDigit c || c == '+' || c == '-' || c == ':'

/-- `rest` is the end of a text, and what stands before it is made of the characters
    of dates and times of day. -/
def PassesTo (cs rest : List Char) : Prop :=
  ∃ passed, cs = passed ++ rest ∧ ∀ c ∈ passed, isClockChar c = true

namespace PassesTo

theorem trans {a b c : List Char} (hab : PassesTo a b) (hbc : PassesTo b c) : PassesTo a c := by
  obtain ⟨p, rfl, hp⟩ := hab
  obtain ⟨q, rfl, hq⟩ := hbc
  refine ⟨p ++ q, by simp, fun x hx => ?_⟩
  rcases List.mem_append.mp hx with hx | hx
  · exact hp x hx
  · exact hq x hx

theorem cons {c : Char} (hc : isClockChar c = true) (cs : List Char) : PassesTo (c :: cs) cs :=
  ⟨[c], rfl, by simpa using hc⟩

theorem dropWhile {p : Char → Bool} (hp : ∀ c, p c = true → isClockChar c = true)
    (cs : List Char) : PassesTo cs (cs.dropWhile p) :=
  ⟨cs.takeWhile p, List.takeWhile_append_dropWhile.symm,
    fun c hc => hp c (List.mem_takeWhile_imp hc)⟩

theorem trimStart (cs : List Char) : PassesTo cs (trimStart cs) :=
  dropWhile (fun c hc => by simp [isClockChar, hc]) cs

end PassesTo

theorem passesTo_of_digits? {limit : Nat} {cs ds rest : List Char}
    (h : digits? limit cs = some (ds, rest)) : PassesTo cs rest := by
  simp only [digits?, Option.ite_none_left_eq_some, Option.some.injEq, Prod.mk.injEq] at h
  obtain ⟨-, rfl, rfl⟩ := h
  have hprefix : (cs.take limit).takeWhile isDigit <+: cs :=
    (List.takeWhile_prefix isDigit).trans (List.take_prefix limit cs)
  refine ⟨(cs.take limit).takeWhile isDigit, List.prefix_append_drop hprefix, ?_⟩
  intro c hc
  have hdigit : isDigit c = true := List.mem_takeWhile_imp hc
  simp [isClockChar, hdigit]

theorem passesTo_of_number? {limit n : Nat} {cs rest : List Char}
    (h : number? limit cs = some (n, rest)) : PassesTo cs rest := by
  simp only [number?, Option.map_eq_some_iff, Prod.mk.injEq, Prod.exists] at h
  obtain ⟨ds, rest', hdigits, -, rfl⟩ := h
  exact (PassesTo.trimStart cs).trans (passesTo_of_digits? hdigits)

theorem passesTo_of_anyNumber? {n : Nat} {cs rest : List Char}
    (h : anyNumber? cs = some (n, rest)) : PassesTo cs rest := by
  simp only [anyNumber?, Option.ite_none_left_eq_some, Option.some.injEq, Prod.mk.injEq] at h
  obtain ⟨-, -, rfl⟩ := h
  exact PassesTo.dropWhile (fun c hc => by simp [isClockChar, hc]) cs

theorem passesTo_of_year? {y : Int} {cs rest : List Char} (h : year? cs = some (y, rest)) :
    PassesTo cs rest := by
  have hstart := PassesTo.trimStart cs
  rw [year?] at h
  split at h
  case h_1 more hsign =>
    simp only [Option.map_eq_some_iff, Prod.mk.injEq, Prod.exists] at h
    obtain ⟨n, rest', hnumber, -, rfl⟩ := h
    rw [hsign] at hstart
    exact (hstart.trans (PassesTo.cons (by decide) more)).trans (passesTo_of_anyNumber? hnumber)
  case h_2 more hsign =>
    simp only [Option.map_eq_some_iff, Prod.mk.injEq, Prod.exists] at h
    obtain ⟨n, rest', hnumber, -, rfl⟩ := h
    rw [hsign] at hstart
    exact (hstart.trans (PassesTo.cons (by decide) more)).trans (passesTo_of_anyNumber? hnumber)
  case h_3 =>
    simp only [Option.map_eq_some_iff, Prod.mk.injEq, Prod.exists] at h
    obtain ⟨ds, rest', hdigits, -, rfl⟩ := h
    exact hstart.trans (passesTo_of_digits? hdigits)

theorem eq_cons_of_mark? {c : Char} {cs rest : List Char} (h : mark? c cs = some rest) :
    cs = c :: rest := by
  cases cs with
  | nil => cases h
  | cons d cs =>
    simp only [mark?, Option.ite_none_right_eq_some, Option.some.injEq] at h
    obtain ⟨rfl, rfl⟩ := h
    rfl

theorem passesTo_of_mark? {c : Char} (hc : isClockChar c = true) {cs rest : List Char}
    (h : mark? c cs = some rest) : PassesTo cs rest := by
  rw [eq_cons_of_mark? h]
  exact PassesTo.cons hc rest

theorem passesTo_of_dateFields? {cs rest : List Char} {date : Int × Nat × Nat}
    (h : dateFields? id cs = some (date, rest)) : PassesTo cs rest := by
  simp only [dateFields?, id_eq, Option.bind_eq_bind, Option.bind_eq_some_iff, Prod.exists,
    Option.some.injEq, Prod.mk.injEq] at h
  obtain ⟨y, c₁, hyear, c₂, hdash, m, c₃, hmonth, c₄, hdash', d, c₅, hday, -, rfl⟩ := h
  exact (passesTo_of_year? hyear).trans <| (passesTo_of_mark? (by decide) hdash).trans <|
    (passesTo_of_number? hmonth).trans <| (passesTo_of_mark? (by decide) hdash').trans <|
    passesTo_of_number? hday

theorem passesTo_of_timeFields? {cs rest : List Char} {time : Nat × Nat × Nat}
    (h : timeFields? id cs = some (time, rest)) : PassesTo cs rest := by
  simp only [timeFields?, id_eq, Option.bind_eq_bind, Option.bind_eq_some_iff, Prod.exists,
    Option.some.injEq, Prod.mk.injEq] at h
  obtain ⟨hour, c₁, hhour, c₂, hcolon, m, c₃, hminute, c₄, hcolon', s, c₅, hsecond, -, rfl⟩ := h
  exact (passesTo_of_number? hhour).trans <| (passesTo_of_mark? (by decide) hcolon).trans <|
    (passesTo_of_number? hminute).trans <| (passesTo_of_mark? (by decide) hcolon').trans <|
    passesTo_of_number? hsecond

/-! ### The gate -/

theorem eq_append_of_afterLast? {m : Char} {cs b : List Char} (h : afterLast? m cs = some b) :
    ∃ a, cs = a ++ m :: b := by
  induction cs with
  | nil => cases h
  | cons c cs ih =>
    rw [afterLast?] at h
    split at h
    · rename_i b' hlater
      cases h
      obtain ⟨a, ha⟩ := ih hlater
      exact ⟨c :: a, by rw [ha, List.cons_append]⟩
    · simp only [Option.ite_none_right_eq_some, Option.some.injEq] at h
      obtain ⟨rfl, rfl⟩ := h
      exact ⟨[], rfl⟩

theorem endsWithFraction_iff {cs : List Char} :
    endsWithFraction cs = true ↔
      ∃ before ds, cs = before ++ '.' :: ds ∧ ds ≠ [] ∧ ∀ c ∈ ds, isDigit c = true := by
  constructor
  · intro h
    rw [endsWithFraction] at h
    split at h
    · rename_i ds hlast
      obtain ⟨before, hcs⟩ := eq_append_of_afterLast? hlast
      simp only [Bool.and_eq_true, Bool.not_eq_true', List.isEmpty_eq_false_iff, List.all_eq_true]
        at h
      exact ⟨before, ds, hcs, h.1, h.2⟩
    · cases h
  · rintro ⟨before, ds, rfl, hne, hds⟩
    exact endsWithFraction_append before hne hds

/-! ### The texts of the two forms -/

theorem plain?_clock {cs : List Char} {t : DateTime} (h : plain? cs = some t) :
    ∀ c ∈ cs, isClockChar c = true := by
  simp only [plain?, Option.bind_eq_bind, Option.bind_eq_some_iff, Prod.exists,
    Option.ite_none_right_eq_some, List.isEmpty_iff] at h
  obtain ⟨y, m, d, c₁, hdate, hour, minute, second, c₂, htime, rfl, -⟩ := h
  obtain ⟨passed, rfl, hpassed⟩ := (passesTo_of_dateFields? hdate).trans <|
    (PassesTo.trimStart c₁).trans (passesTo_of_timeFields? htime)
  simpa using hpassed

/-- A fraction is left out, or stands behind a point as one or more digits. -/
theorem fraction?_shape {cs : List Char} {n : Nat} (h : fraction? cs = some (n, [])) :
    cs = [] ∨ ∃ ds, cs = '.' :: ds ∧ ds ≠ [] ∧ ∀ c ∈ ds, isDigit c = true := by
  rw [fraction?.eq_def] at h
  split at h
  · rename_i rest
    simp only [Option.ite_none_left_eq_some, Option.some.injEq, Prod.mk.injEq,
      List.isEmpty_iff] at h
    obtain ⟨hne, -, hend⟩ := h
    have hall : ∀ c ∈ rest, isDigit c = true := List.dropWhile_eq_nil_iff.mp hend
    refine .inr ⟨rest, rfl, ?_, hall⟩
    rintro rfl
    exact hne rfl
  · simp only [Option.some.injEq, Prod.mk.injEq] at h
    exact .inl h.2

theorem marked?_shape {cs : List Char} {t : DateTime} (h : marked? cs = some t) :
    ∃ date time fraction, cs = date ++ 'T' :: (time ++ fraction) ∧
      (∀ c ∈ date, isClockChar c = true) ∧ (∀ c ∈ time, isClockChar c = true) ∧
      (fraction = [] ∨
        ∃ ds, fraction = '.' :: ds ∧ ds ≠ [] ∧ ∀ c ∈ ds, isDigit c = true) := by
  simp only [marked?, Option.bind_eq_bind, Option.bind_eq_some_iff, Prod.exists,
    Option.ite_none_right_eq_some, List.isEmpty_iff] at h
  obtain ⟨y, m, d, c₁, hdate, c₂, hmark, hour, minute, second, c₃, htime, n, c₄, hfraction, rfl,
    -⟩ := h
  obtain ⟨date, rfl, hdateChars⟩ := passesTo_of_dateFields? hdate
  obtain rfl := eq_cons_of_mark? hmark
  obtain ⟨time, rfl, htimeChars⟩ := passesTo_of_timeFields? htime
  exact ⟨date, time, c₃, rfl, hdateChars, htimeChars, fraction?_shape hfraction⟩

/-- The `T` tells the forms apart. -/
theorem plain?_eq_none_of_marked? {cs : List Char} {t : DateTime} (h : marked? cs = some t) :
    plain? cs = none := by
  obtain ⟨date, time, fraction, rfl, -, -, -⟩ := marked?_shape h
  rw [Option.eq_none_iff_forall_ne_some]
  intro t' hplain
  exact absurd (plain?_clock hplain 'T' (by simp)) (by decide)

theorem endsWithFraction_iff_point {cs : List Char} {t : DateTime} (h : marked? cs = some t) :
    endsWithFraction cs = true ↔ '.' ∈ cs := by
  constructor
  · intro hends
    obtain ⟨before, ds, rfl, -, -⟩ := endsWithFraction_iff.mp hends
    simp
  · intro hpoint
    obtain ⟨date, time, fraction, rfl, hdate, htime, hfraction⟩ := marked?_shape h
    rcases hfraction with rfl | ⟨ds, rfl, hne, hds⟩
    · -- without a fraction there is no point: the characters of clocks are others
      simp only [List.append_nil, List.mem_append, List.mem_cons] at hpoint
      rcases hpoint with hmem | hmem | hmem
      · exact absurd (hdate '.' hmem) (by decide)
      · exact absurd hmem (by decide)
      · exact absurd (htime '.' hmem) (by decide)
    · exact endsWithFraction_iff.mpr ⟨date ++ 'T' :: time, ds, by simp, hne, hds⟩

/-- Texts that are read hold no letter but the `T`. -/
theorem not_mem_of_readChars? {cs : List Char} {t : DateTime} (h : readChars? cs = some t) :
    'Y' ∉ cs := by
  intro hmem
  rw [readChars?] at h
  split at h
  · rename_i t' hplain
    exact absurd (plain?_clock hplain 'Y' hmem) (by decide)
  · simp only [Option.ite_none_right_eq_some] at h
    obtain ⟨-, hmarked⟩ := h
    obtain ⟨date, time, fraction, rfl, hdate, htime, hfraction⟩ := marked?_shape hmarked
    simp only [List.mem_append, List.mem_cons] at hmem
    rcases hmem with hmem | hmem | hmem | hmem
    · exact absurd (hdate 'Y' hmem) (by decide)
    · exact absurd hmem (by decide)
    · exact absurd (htime 'Y' hmem) (by decide)
    · rcases hfraction with rfl | ⟨ds, rfl, -, hds⟩
      · cases hmem
      · rcases List.mem_cons.mp hmem with hmem | hmem
        · exact absurd hmem (by decide)
        · exact absurd (hds 'Y' hmem) (by decide)

theorem not_isInfix_placeholder_of_parse {v : String} {t : DateTime}
    (h : DateTime.parse v = .ok t) : ¬ placeholder.toList <:+: v.toList := by
  intro hfound
  have hread : readChars? v.toList = some t := by
    rw [DateTime.parse] at h
    split at h
    · rename_i t' hread
      cases h
      exact hread
    · cases h
  have hletter : 'Y' ∈ placeholder.toList := by decide
  exact not_mem_of_readChars? hread (hfound.subset hletter)

/-! ### The forms together -/

/-- Which form is tried first does not matter, the gate opens for exactly the texts of
    the second form that have a point, and no placeholder is read as a date. -/
theorem forms_apart (v : String) :
    (plain? v.toList = none ∨ marked? v.toList = none) ∧
    read? v = (if endsWithFraction v.toList then marked? v.toList else none).or
      (plain? v.toList) ∧
    (endsWithFraction v.toList = true ↔
      ∃ before ds, v.toList = before ++ '.' :: ds ∧ ds ≠ [] ∧ ∀ c ∈ ds, isDigit c = true) ∧
    (∀ t, plain? v.toList = none ∧ endsWithFraction v.toList = true ∧ marked? v.toList = some t ↔
      marked? v.toList = some t ∧ '.' ∈ v.toList) ∧
    (∀ t, DateTime.parse v = .ok t → ¬ placeholder.toList <:+: v.toList) := by
  refine ⟨?_, ?_, endsWithFraction_iff, ?_, fun t => not_isInfix_placeholder_of_parse⟩
  · cases hmarked : marked? v.toList with
    | none => exact .inr rfl
    | some t => exact .inl (plain?_eq_none_of_marked? hmarked)
  · rw [read?, readChars?]
    cases hplain : plain? v.toList with
    | none => simp
    | some t =>
      have hmarked : marked? v.toList = none := by
        rw [Option.eq_none_iff_forall_ne_some]
        intro t' hmarked
        rw [plain?_eq_none_of_marked? hmarked] at hplain
        cases hplain
      simp [hmarked]
  · intro t
    constructor
    · rintro ⟨-, hends, hmarked⟩
      exact ⟨hmarked, (endsWithFraction_iff_point hmarked).mp hends⟩
    · rintro ⟨hmarked, hpoint⟩
      exact ⟨plain?_eq_none_of_marked? hmarked, (endsWithFraction_iff_point hmarked).mpr hpoint,
        hmarked⟩

/-- White space may stand before every number, and a leap second may have a fraction. -/
theorem forms_apart_leap_second :
    DateTime.parse "+2024- 3-\u00a01T 9:59:60.5"
      = .ok ⟨⟨2024, 3, 1, by decide⟩, 9, 59, 59, 1500000000, by decide⟩ ∧
    plain? "+2024- 3-\u00a01T 9:59:60.5".toList = none ∧
    ¬ placeholder.toList <:+: "+2024- 3-\u00a01T 9:59:60.5".toList := by
  obtain ⟨-, -, -, hgate, hplace⟩ := forms_apart "+2024- 3-\u00a01T 9:59:60.5"
  have hmarked : marked? "+2024- 3-\u00a01T 9:59:60.5".toList
      = some ⟨⟨2024, 3, 1, by decide⟩, 9, 59, 59, 1500000000, by decide⟩ := by decide
  have hparse : DateTime.parse "+2024- 3-\u00a01T 9:59:60.5"
      = .ok ⟨⟨2024, 3, 1, by decide⟩, 9, 59, 59, 1500000000, by decide⟩ := by decide
  exact ⟨hparse, ((hgate _).mpr ⟨hmarked, by decide⟩).1, hplace _ hparse⟩

end Datebook.Time
