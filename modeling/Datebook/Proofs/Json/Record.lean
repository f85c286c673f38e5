/-
  Datebook/Proofs/Json/Record.lean
  ================================
  **What a record of one field gives.**

  `Gives` says where the value of a field stands, whatever reads it: under the name, in
  an object that names it once among any other members, or alone in an array.  The
  readers of such records agree with it in both directions (`stringField_iff`), so what
  is shown of a value that was read is known to be about that field of that text.
-/
import Datebook.Json.Record

namespace Datebook.Json

variable {name : String} {v record : Json}

/-- The record gives the field `name` the value `v`, and no other value. -/
inductive Gives (name : String) (v : Json) : Json → Prop where
  | member {before after : List (String × Json)} (hbefore : ∀ m ∈ before, m.1 ≠ name)
      (hafter : ∀ m ∈ after, m.1 ≠ name) : Gives name v (.object (before ++ (name, v) :: after))
  | alone : Gives name v (.array [v])

theorem filter_name_eq_nil_iff {members : List (String × Json)} :
    members.filter (fun m => m.1 == name) = [] ↔ ∀ m ∈ members, m.1 ≠ name := by
  simp [List.filter_eq_nil_iff]

theorem lookup_append_cons {before : List (String × Json)} (hbefore : ∀ m ∈ before, m.1 ≠ name)
    (v : Json) (after : List (String × Json)) :
    (before ++ (name, v) :: after).lookup name = some v := by
  rw [List.lookup_eq_some_iff]
  refine ⟨before, after, rfl, ?_⟩
  intro m hm
  exact bne_iff_ne.mpr (hbefore m hm).symm

theorem fields?_singleton_iff : record.fields? [name] = some [some v] ↔ Gives name v record := by
  constructor
  · intro h
    cases record with
    | object members =>
      simp only [fields?, List.all_cons, List.all_nil, Bool.and_true, decide_eq_true_eq,
        List.map_cons, List.map_nil] at h
      split at h
      case isTrue honce =>
        simp only [Option.some.injEq, List.cons.injEq, and_true] at h
        obtain ⟨before, after, rfl, hbefore⟩ := List.lookup_eq_some_iff.mp h
        have hapart : ∀ m ∈ before, m.1 ≠ name := by
          intro m hm
          exact (bne_iff_ne.mp (hbefore m hm)).symm
        -- the member itself is the one that may have the name
        have hnone : after.filter (fun m => m.1 == name) = [] := by
          rw [List.filter_append, filter_name_eq_nil_iff.mpr hapart] at honce
          simpa using honce
        exact .member hapart (filter_name_eq_nil_iff.mp hnone)
      case isFalse => cases h
    | array items =>
      simp only [fields?] at h
      split at h
      case isTrue hlength =>
        obtain ⟨item, rfl⟩ := List.length_eq_one_iff.mp hlength
        simp only [List.map_cons, List.map_nil, Option.some.injEq, List.cons.injEq, and_true] at h
        subst h
        exact .alone
      case isFalse => cases h
    | _ => cases h
  · intro h
    cases h with
    | alone => rfl
    | @member before after hbefore hafter =>
      have honce : (before ++ (name, v) :: after).filter (fun m => m.1 == name) = [(name, v)] := by
        rw [List.filter_append, filter_name_eq_nil_iff.mpr hbefore,
          List.filter_cons_of_pos (by simp), filter_name_eq_nil_iff.mpr hafter, List.nil_append]
      have hfields : ([name].all fun n =>
          ((before ++ (name, v) :: after).filter fun m => m.1 == n).length ≤ 1) = true := by
        rw [List.all_cons, honce]
        rfl
      rw [fields?, if_pos hfields, List.map_cons, List.map_nil, lookup_append_cons hbefore]

/-- A reader that asks for one field, a string. -/
theorem stringField_iff {s : String} :
    (record.fields? [name]).bind (fun
        | [some field] => field.asString?
        | _ => none) = some s ↔ Gives name (.string s) record := by
  rw [← fields?_singleton_iff, Option.bind_eq_some_iff]
  constructor
  · rintro ⟨fields, hfields, hs⟩
    split at hs
    case h_1 field =>
      cases field with
      | string text =>
        cases hs
        exact hfields
      | _ => cases hs
    case h_2 => cases hs
  · intro hfields
    exact ⟨_, hfields, rfl⟩

end Datebook.Json
