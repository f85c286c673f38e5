/-
  Datebook/Proofs/Text/Replacement.lean
  =====================================
  **What replacing every occurrence of a text leaves.**

  The search runs from left to right and resumes behind each hit, so it could pass over
  an occurrence that overlaps a hit.  It never does if the needle is `Unbordered`: no
  part at its end is also its start.  Then every occurrence is replaced, and what stands
  before it and behind it is treated as if it stood alone (`replaceAll_append`).

  Every text falls into pieces without the needle, with the needle between them
  (`exists_pieces`), and replacing puts the new text between the same pieces.  An
  occurrence that was not there before would have to lie across an end of the new text.
  It would end or start inside the new text, or the new text would lie within it, so
  none arises if the new text is as long as the needle and holds neither its first
  character nor its last (`not_isInfix_append`).
-/
import Datebook.Proofs.Text.Cutting
import Mathlib.Data.List.Infix

namespace Datebook.Text

variable {needle new a b cs : List Char} {n c : Char} {ns : List Char}

theorem isSome_dropLead?_iff : (dropLead? needle cs).isSome = true ↔ needle <+: cs := by
  constructor
  · intro h
    obtain ⟨rest, hrest⟩ := Option.isSome_iff_exists.mp h
    exact ⟨rest, (eq_append_of_dropLead? hrest).symm⟩
  · rintro ⟨rest, rfl⟩
    rw [dropLead?_append, Option.isSome_some]

theorem replaceFrom_of_not_lead (h : ¬ n :: ns <+: c :: cs) (new : List Char) :
    replaceFrom n ns new 0 (c :: cs) = c :: replaceFrom n ns new 0 cs := by
  rw [replaceFrom, if_neg (mt isSome_dropLead?_iff.mp h)]

/-! ### Every occurrence is found -/

/-- Only nothing and the whole are both a start and an end of the needle. -/
def Unbordered (needle : List Char) : Prop :=
  ∀ w, w <+: needle → w <:+ needle → w = [] ∨ w = needle

/-- Two occurrences are the same, or the first ends before the second starts. -/
theorem Unbordered.apart (h : Unbordered needle) (hlead : needle <+: a ++ (needle ++ b)) :
    a = [] ∨ needle <+: a := by
  obtain ⟨rest, hrest⟩ := hlead
  rcases List.append_eq_append_iff.mp hrest with ⟨more, ha, -⟩ | ⟨w, hneedle, hb⟩
  · exact .inr ⟨more, ha.symm⟩
  · -- the occurrences share `w`
    have hend : w <:+ needle := ⟨a, hneedle.symm⟩
    have hstart : w <+: needle :=
      List.prefix_of_prefix_length_le ⟨rest, hb.symm⟩ ⟨b, rfl⟩ hend.length_le
    rcases h w hstart hend with rfl | rfl
    · right
      rw [List.append_nil] at hneedle
      rw [hneedle]
    · left
      exact List.self_eq_append_left.mp hneedle

theorem Unbordered.replaceFrom_append (h : Unbordered (n :: ns)) (new a b : List Char) :
    replaceFrom n ns new 0 (a ++ (n :: ns ++ b)) =
      replaceFrom n ns new 0 a ++ (new ++ replaceFrom n ns new 0 b) := by
  induction hlength : a.length using Nat.strong_induction_on generalizing a with
  | _ k ih =>
    cases a with
    | nil => exact Text.replaceFrom_append n ns new b
    | cons c a =>
      by_cases hlead : n :: ns <+: c :: a
      · obtain ⟨rest, hrest⟩ := hlead
        have hshorter : rest.length < k := by
          rw [← hlength, ← hrest]
          simp only [List.length_append, List.length_cons]
          omega
        rw [← hrest, List.append_assoc, Text.replaceFrom_append, Text.replaceFrom_append,
          ih _ hshorter rest rfl, List.append_assoc]
      · have hlead' : ¬ n :: ns <+: c :: (a ++ (n :: ns ++ b)) := by
          intro hfound
          rcases h.apart (a := c :: a) hfound with hnil | hbefore
          · cases hnil
          · exact hlead hbefore
        have hshorter : a.length < k := by
          rw [← hlength]
          simp
        rw [List.cons_append, replaceFrom_of_not_lead hlead', replaceFrom_of_not_lead hlead,
          ih _ hshorter a rfl, List.cons_append]

/-- An occurrence is replaced wherever it stands, and the text before it and the text
    behind it each on its own. -/
theorem Unbordered.replaceAll_append (h : Unbordered needle) (hne : needle ≠ [])
    (new a b : List Char) :
    replaceAll needle new (a ++ (needle ++ b)) =
      replaceAll needle new a ++ (new ++ replaceAll needle new b) := by
  cases needle with
  | nil => exact absurd rfl hne
  | cons n ns => exact h.replaceFrom_append new a b

theorem replaceAll_of_not_isInfix (h : ¬ needle <:+: cs) (new : List Char) :
    replaceAll needle new cs = cs := by
  cases needle with
  | nil => rfl
  | cons n ns =>
    change replaceFrom n ns new 0 cs = cs
    induction cs with
    | nil => rfl
    | cons c cs ih =>
      have hlead : ¬ n :: ns <+: c :: cs := fun hfound => h hfound.isInfix
      have hrest : ¬ n :: ns <:+: cs := fun hfound => h (hfound.trans (List.suffix_cons c cs).isInfix)
      rw [replaceFrom_of_not_lead hlead, ih hrest]

/-! ### Pieces -/

/-- Texts without the needle. -/
def Free (needle : List Char) (pieces : List (List Char)) : Prop :=
  ∀ piece ∈ pieces, ¬ needle <:+: piece

theorem intercalate_append {sep : List Char} {ps qs : List (List Char)} (hp : ps ≠ [])
    (hq : qs ≠ []) :
    sep.intercalate (ps ++ qs) = sep.intercalate ps ++ (sep ++ sep.intercalate qs) := by
  induction ps with
  | nil => exact absurd rfl hp
  | cons p ps ih =>
    cases ps with
    | nil =>
      obtain ⟨q, qs, rfl⟩ := List.exists_cons_of_ne_nil hq
      rw [List.singleton_append, List.intercalate_cons_cons, List.intercalate_singleton,
        List.append_assoc]
    | cons p' ps =>
      rw [List.cons_append, List.cons_append, List.intercalate_cons_cons, ← List.cons_append,
        ih (List.cons_ne_nil _ _), List.intercalate_cons_cons]
      simp only [List.append_assoc]

/-- Every text falls into pieces at the occurrences of the needle. -/
theorem exists_pieces (hne : needle ≠ []) (cs : List Char) :
    ∃ pieces, pieces ≠ [] ∧ Free needle pieces ∧ cs = needle.intercalate pieces := by
  induction hlength : cs.length using Nat.strong_induction_on generalizing cs with
  | _ k ih =>
    by_cases hfound : needle <:+: cs
    · obtain ⟨a, b, rfl⟩ := hfound
      have hpos : 0 < needle.length := List.length_pos_iff.mpr hne
      simp only [List.length_append] at hlength
      obtain ⟨ps, hps, hpsFree, ha⟩ := ih a.length (by omega) a rfl
      obtain ⟨qs, hqs, hqsFree, hb⟩ := ih b.length (by omega) b rfl
      refine ⟨ps ++ qs, by simp [hps], ?_, ?_⟩
      · intro piece hpiece
        exact (List.mem_append.mp hpiece).elim (hpsFree piece) (hqsFree piece)
      · rw [intercalate_append hps hqs, ← ha, ← hb, List.append_assoc]
    · refine ⟨[cs], List.cons_ne_nil _ _, ?_, (List.intercalate_singleton).symm⟩
      intro piece hpiece
      rwa [List.mem_singleton.mp hpiece]

/-- Replacing puts the new text between the pieces, and leaves the pieces. -/
theorem Unbordered.replaceAll_intercalate (h : Unbordered needle) (hne : needle ≠ [])
    {pieces : List (List Char)} (hfree : Free needle pieces) (new : List Char) :
    replaceAll needle new (needle.intercalate pieces) = new.intercalate pieces := by
  induction pieces with
  | nil =>
    rw [List.intercalate_nil, List.intercalate_nil]
    exact replaceAll_of_not_isInfix (fun hfound => hne (List.infix_nil.mp hfound)) new
  | cons p ps ih =>
    have hp := replaceAll_of_not_isInfix (hfree p (List.mem_cons_self ..)) new
    have hps : Free needle ps := fun piece hpiece => hfree piece (List.mem_cons_of_mem p hpiece)
    cases ps with
    | nil => rw [List.intercalate_singleton, List.intercalate_singleton, hp]
    | cons q ps =>
      rw [List.intercalate_cons_cons, List.intercalate_cons_cons, List.append_assoc,
        h.replaceAll_append hne, hp, ih hps, List.append_assoc]

/-! ### No occurrence arises -/

/-- The new text is as long as the needle at least, and holds neither its first character
    nor its last. -/
structure Separates (needle new : List Char) : Prop where
  length_le : needle.length ≤ new.length
  first : ∀ c ∈ needle.head?, c ∉ new
  last : ∀ c ∈ needle.getLast?, c ∉ new

theorem Separates.not_isInfix_append (h : Separates needle new) (hne : needle ≠ [])
    (ha : ¬ needle <:+: a) (hb : ¬ needle <:+: b) : ¬ needle <:+: a ++ (new ++ b) := by
  rintro ⟨x, y, hxy⟩
  rw [List.append_assoc] at hxy
  rcases List.append_eq_append_iff.mp hxy with ⟨w, ha', hw⟩ | ⟨w, -, hw⟩
  · rcases List.append_eq_append_iff.mp hw with ⟨v, rfl, -⟩ | ⟨v, rfl, hv⟩
    · exact ha ⟨x, v, by rw [ha', List.append_assoc]⟩
    · -- the occurrence starts in `a` and ends with `v`, which lies in the new text
      have hstarts : v <+: new := by
        apply List.prefix_of_prefix_length_le ⟨y, hv.symm⟩ ⟨b, rfl⟩
        have hlength := h.length_le
        rw [List.length_append] at hlength
        omega
      cases hlast : v.getLast? with
      | none =>
        rw [List.getLast?_eq_none_iff.mp hlast, List.append_nil] at ha
        exact ha ⟨x, [], by rw [ha', List.append_nil]⟩
      | some l =>
        have hl : l ∈ (w ++ v).getLast? := by simp [List.getLast?_append, hlast]
        exact h.last l hl (hstarts.subset (List.mem_of_getLast? hlast))
  · rcases List.append_eq_append_iff.mp hw with ⟨v, -, hv⟩ | ⟨v, rfl, hv⟩
    · exact hb ⟨v, y, by rw [hv, List.append_assoc]⟩
    · -- the occurrence starts in the new text, with `v`
      cases v with
      | nil => exact hb ⟨[], y, hv⟩
      | cons c v =>
        obtain ⟨n, ns, rfl⟩ := List.exists_cons_of_ne_nil hne
        rw [List.cons_append, List.cons_append, List.cons.injEq] at hv
        exact h.first n rfl (by simp [hv.1])

theorem Separates.not_isInfix_intercalate (h : Separates needle new) (hne : needle ≠ [])
    {pieces : List (List Char)} (hfree : Free needle pieces) :
    ¬ needle <:+: new.intercalate pieces := by
  induction pieces with
  | nil =>
    rw [List.intercalate_nil]
    exact fun hfound => hne (List.infix_nil.mp hfound)
  | cons p ps ih =>
    have hp := hfree p (List.mem_cons_self ..)
    have hps := ih fun piece hpiece => hfree piece (List.mem_cons_of_mem p hpiece)
    cases ps with
    | nil => rwa [List.intercalate_singleton]
    | cons q ps =>
      rw [List.intercalate_cons_cons, List.append_assoc]
      exact h.not_isInfix_append hne hp hps

end Datebook.Text
