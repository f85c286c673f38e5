/-
  Datebook/Proofs/Json/Pretty.lean
  ================================
  **A value is read back from what is written of it**, on several lines or on one,
  if nothing in it is beyond the text: `Plain` leaves out halves of surrogate pairs
  and keeps to numbers that are written as numbers.
-/
import Datebook.Proofs.Json.Layout

namespace Datebook.Json

open Datebook.Text

inductive Plain : Json → Prop where
  | null : Plain .null
  | bool (b : Bool) : Plain (.bool b)
  | number (p : NumberParts) : Plain (.number (String.ofList p.chars))
  | string (s : String) : Plain (.string s)
  | array {items : List Json} (h : ∀ v ∈ items, Plain v) : Plain (.array items)
  | object {members : List (String × Json)} (h : ∀ m ∈ members, Plain m.2) :
      Plain (.object members)

theorem Plain.int (n : Int) : Plain (.ofInt n) := by
  rw [ofInt, ← NumberParts.chars_ofInt]
  exact .number _

/-! ### On several lines -/

theorem isSpace_of_mem_newLine (depth : Nat) : ∀ c ∈ newLine depth, isSpace c = true := by
  intro c h
  rcases List.mem_cons.mp h with rfl | hc
  · decide
  · rw [List.eq_of_mem_replicate hc]
    decide

theorem prettyItems_eq_joined (depth : Nat) (items : List Json) :
    prettyItems depth items = joined (newLine depth) (items.map (prettyChars depth)) := by
  induction items with
  | nil => rfl
  | cons v items ih =>
    cases items with
    | nil => rfl
    | cons w more => simp only [prettyItems, ih, List.map_cons, joined, List.append_assoc]

theorem prettyMembers_eq_joined (depth : Nat) (members : List (String × Json)) :
    prettyMembers depth members
      = joined (newLine depth) (members.map (memberText [' '] (prettyChars depth))) := by
  induction members with
  | nil => rfl
  | cons m members ih =>
    cases members with
    | nil => simp [prettyMembers, joined, memberText]
    | cons w more => simp [prettyMembers, ih, joined, memberText]

theorem Plain.readAs_prettyChars {v : Json} (h : v.Plain) (depth : Nat) :
    ReadAs (v.prettyChars depth) v := by
  induction h generalizing depth with
  | null => exact .null
  | bool b => exact .bool b
  | number p =>
    rw [prettyChars, chars, String.toList_ofList]
    · exact .number p
    all_goals nofun
  | string s => exact .string s
  | @array items _ ih =>
    cases items with
    | nil => exact .emptyArray
    | cons v items =>
      have hread := ReadAs.array (isSpace_of_mem_newLine (depth + 1))
        (isSpace_of_mem_newLine depth) (prettyChars (depth + 1)) (List.cons_ne_nil v items)
        fun w hw => ih w hw (depth + 1)
      simpa [prettyChars, prettyItems_eq_joined] using hread
  | @object members _ ih =>
    cases members with
    | nil => exact .emptyObject
    | cons m members =>
      have hgap : ∀ c ∈ [' '], isSpace c = true := List.forall_mem_singleton.mpr (by decide)
      have hread := ReadAs.object (isSpace_of_mem_newLine (depth + 1))
        (isSpace_of_mem_newLine depth) hgap (prettyChars (depth + 1)) (List.cons_ne_nil m members)
        fun w hw => ih w hw (depth + 1)
      simpa [prettyChars, prettyMembers_eq_joined] using hread

/-- A plain value written on several lines is read back as it was. -/
theorem read?_prettyText {v : Json} (h : v.Plain) : read? v.prettyText = some v := by
  apply ReadAs.read?
  rw [prettyText, String.toList_ofList]
  exact h.readAs_prettyChars 0

/-! ### On one line -/

theorem charsItems_eq_joined (items : List Json) :
    charsItems items = joined [] (items.map chars) := by
  induction items with
  | nil => rfl
  | cons v items ih =>
    cases items with
    | nil => simp [charsItems, joined]
    | cons w more => simp [charsItems, ih, joined]

theorem charsMembers_eq_joined (members : List (String × Json)) :
    charsMembers members = joined [] (members.map (memberText [] chars)) := by
  induction members with
  | nil => rfl
  | cons m members ih =>
    cases members with
    | nil => simp [charsMembers, joined, memberText]
    | cons w more => simp [charsMembers, ih, joined, memberText]

theorem Plain.readAs_chars {v : Json} (h : v.Plain) : ReadAs v.chars v := by
  have hnone : ∀ c ∈ ([] : List Char), isSpace c = true := by simp
  induction h with
  | null => exact .null
  | bool b => exact .bool b
  | number p =>
    rw [chars, String.toList_ofList]
    exact .number p
  | string s => exact .string s
  | @array items _ ih =>
    cases items with
    | nil => exact .emptyArray
    | cons v items =>
      have hread := ReadAs.array hnone hnone chars (List.cons_ne_nil v items) ih
      simpa [chars, charsItems_eq_joined] using hread
  | @object members _ ih =>
    cases members with
    | nil => exact .emptyObject
    | cons m members =>
      have hread := ReadAs.object hnone hnone hnone chars (List.cons_ne_nil m members) ih
      simpa [chars, charsMembers_eq_joined] using hread

/-- A plain value written on one line is read back as it was. -/
theorem read?_text {v : Json} (h : v.Plain) : read? v.text = some v := by
  apply ReadAs.read?
  rw [text, String.toList_ofList]
  exact h.readAs_chars

end Datebook.Json
