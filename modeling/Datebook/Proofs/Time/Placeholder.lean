/-
  Datebook/Proofs/Time/Placeholder.lean
  =====================================
  **Filling in the day leaves no placeholder**, and nothing else is touched.

  `YYYY-MM-DD` starts with the only letter that it starts with and ends with the only one
  that it ends with, so two placeholders never overlap and each of them is filled.

  A date that is put in may bring a sign and any number of digits, and what stands
  beside it may be a part of a placeholder, as in `YYYYYYYY-MM-DD-MM-DD`.  Still no
  placeholder arises: a date is never shorter than one and has no `Y` and no `D`
  (`separates_chars`), but an occurrence across its ends would have to share one of
  these letters with it.
-/
import Datebook.Proofs.Text.Padded
import Datebook.Proofs.Text.Replacement
import Datebook.Time.Written

namespace Datebook

open Datebook.Text

/-! ### Written dates -/

namespace Date

theorem ten_le_length_chars (d : Date) : 10 ≤ d.chars.length := by
  have hyear : 4 ≤ (yearChars d.year).length := by
    have hpadded := le_length_padded 4 d.year.natAbs
    rw [yearChars]
    split
    · exact hpadded
    · rw [List.length_cons]
      omega
  have hmonth := le_length_padded 2 d.month
  have hday := le_length_padded 2 d.day
  simp only [chars, List.length_append, List.length_cons]
  omega

/-- A date is written with digits, dashes and a sign. -/
theorem not_mem_chars {c : Char} (hdigit : isDigit c = false) (hdash : c ≠ '-') (hplus : c ≠ '+')
    (d : Date) : c ∉ d.chars := by
  have hpadded : ∀ w n, c ∉ padded w n := by
    intro w n hmem
    rw [isDigit_of_mem_padded hmem] at hdigit
    cases hdigit
  have hyear : c ∉ yearChars d.year := by
    rw [yearChars]
    split
    · exact hpadded _ _
    · rw [List.mem_cons, not_or]
      refine ⟨?_, hpadded _ _⟩
      split
      · exact hdash
      · exact hplus
  simp [chars, hyear, hpadded, hdash]

end Date

namespace Time

theorem placeholder_ne_nil : placeholder.toList ≠ [] := by decide

theorem unbordered_placeholder : Unbordered placeholder.toList := by
  have hall : ∀ w ∈ placeholder.toList.inits, w <:+ placeholder.toList →
      w = [] ∨ w = placeholder.toList := by decide
  intro w hstart
  exact hall w ((List.mem_inits _ _).mpr hstart)

theorem separates_chars (d : Date) : Separates placeholder.toList d.chars where
  length_le := d.ten_le_length_chars
  first c hc := by
    cases hc
    exact d.not_mem_chars (by decide) (by decide) (by decide)
  last c hc := by
    cases hc
    exact d.not_mem_chars (by decide) (by decide) (by decide)

/-! ### Filling -/

theorem toList_fillPlaceholder (s : String) (day : Date) :
    (fillPlaceholder s day).toList = replaceAll placeholder.toList day.chars s.toList :=
  String.toList_ofList

theorem fillPlaceholder_of_absent {s : String} (h : ¬ placeholder.toList <:+: s.toList)
    (day : Date) : fillPlaceholder s day = s := by
  rw [fillPlaceholder, replaceAll_of_not_isInfix h, String.ofList_toList]

theorem fillPlaceholder_of_pieces {s : String} {pieces : List (List Char)}
    (hfree : Free placeholder.toList pieces)
    (hs : s.toList = placeholder.toList.intercalate pieces) (day : Date) :
    (fillPlaceholder s day).toList = day.chars.intercalate pieces := by
  rw [toList_fillPlaceholder, hs,
    unbordered_placeholder.replaceAll_intercalate placeholder_ne_nil hfree]

theorem absent_fillPlaceholder (s : String) (day : Date) :
    ¬ placeholder.toList <:+: (fillPlaceholder s day).toList := by
  obtain ⟨pieces, -, hfree, hs⟩ := exists_pieces placeholder_ne_nil s.toList
  rw [fillPlaceholder_of_pieces hfree hs]
  exact (separates_chars day).not_isInfix_intercalate placeholder_ne_nil hfree

/-- **No placeholder is left, none arises, and only placeholders go.**  A text falls into
    pieces with a placeholder between neighbours and none within a piece; filled with any
    day it has the same pieces, with the day's date between them.  So filling again, with
    whatever day, changes nothing, and neither does filling a text without a placeholder.
    Wherever a placeholder stands, the date is put there, and what is before it and behind
    it is filled as if it stood alone. -/
theorem fillPlaceholder_complete (s : String) (today : Date) :
    ¬ placeholder.toList <:+: (fillPlaceholder s today).toList ∧
    (∀ later, fillPlaceholder (fillPlaceholder s today) later = fillPlaceholder s today) ∧
    (∃ pieces : List (List Char), pieces ≠ [] ∧
      (∀ piece ∈ pieces, ¬ placeholder.toList <:+: piece) ∧
      s.toList = placeholder.toList.intercalate pieces ∧
      ∀ day, (fillPlaceholder s day).toList = day.chars.intercalate pieces) ∧
    (∀ before behind, s = before ++ placeholder ++ behind →
      fillPlaceholder s today =
        fillPlaceholder before today ++ today.text ++ fillPlaceholder behind today) ∧
    (¬ placeholder.toList <:+: s.toList → fillPlaceholder s today = s) := by
  have habsent := absent_fillPlaceholder s today
  refine ⟨habsent, fillPlaceholder_of_absent habsent, ?_, ?_, ?_⟩
  · obtain ⟨pieces, hne, hfree, hs⟩ := exists_pieces placeholder_ne_nil s.toList
    exact ⟨pieces, hne, hfree, hs, fillPlaceholder_of_pieces hfree hs⟩
  · rintro before behind rfl
    apply String.toList_inj.mp
    simp only [toList_fillPlaceholder, String.toList_append, Date.text, String.toList_ofList,
      List.append_assoc]
    exact unbordered_placeholder.replaceAll_append placeholder_ne_nil _ _ _
  · exact fun h => fillPlaceholder_of_absent h today

/-- Parts of placeholders around two whole ones, on the first day of the calendar; the
    date brings a dash of its own. -/
theorem fillPlaceholder_complete_fragments :
    let s := "YYYYYYYY-MM-DD-MM-DDYYYY-MM-DDYYYY-MM-D"
    let dawn : Date := ⟨-262143, 1, 1, by decide⟩
    let new : Date := ⟨2024, 3, 1, by decide⟩
    fillPlaceholder s dawn = "YYYY-262143-01-01-MM-DD-262143-01-01YYYY-MM-D" ∧
      fillPlaceholder (fillPlaceholder s dawn) new = fillPlaceholder s dawn ∧
      fillPlaceholder s dawn = fillPlaceholder "YYYY" dawn ++ dawn.text ++
        fillPlaceholder "-MM-DDYYYY-MM-DDYYYY-MM-D" dawn ∧
      ¬ placeholder.toList <:+: "YYYYYYY-MM-D-DD".toList ∧
      fillPlaceholder "YYYYYYY-MM-D-DD" dawn = "YYYYYYY-MM-D-DD" := by
  intro s dawn new
  obtain ⟨-, hagain, -, hcut, -⟩ := fillPlaceholder_complete s dawn
  obtain ⟨-, -, -, -, hsame⟩ := fillPlaceholder_complete "YYYYYYY-MM-D-DD" dawn
  have habsent : ¬ placeholder.toList <:+: "YYYYYYY-MM-D-DD".toList := by decide
  exact ⟨by decide +kernel, hagain new, hcut _ _ (by decide), habsent, hsame habsent⟩

end Time

end Datebook
