/-
  Datebook/Proofs/Text/Cutting.lean
  =================================
  **What trimming, cutting and searching leave of a text that is known piece by
  piece.**

  Callers know a text as a concatenation: white space around something, a part
  before a mark and a part behind it, a word somewhere inside.  The lemmas here
  say what the scanners return for texts of these shapes.
-/
import Datebook.Text.Blank
import Datebook.Text.Search

namespace Datebook.Text

/-! ### Trimming -/

/-- Neither the first nor the last character satisfies `p`. -/
def Bare (p : Char → Bool) (cs : List Char) : Prop :=
  (∀ c ∈ cs.head?, p c = false) ∧ (∀ c ∈ cs.getLast?, p c = false)

theorem Bare.reverse {p : Char → Bool} {cs : List Char} (h : Bare p cs) : Bare p cs.reverse := by
  constructor
  · rw [List.head?_reverse]
    exact h.2
  · rw [List.getLast?_reverse]
    exact h.1

theorem dropWhile_of_head {p : Char → Bool} {cs : List Char} (h : ∀ c ∈ cs.head?, p c = false) :
    cs.dropWhile p = cs := by
  cases cs with
  | nil => rfl
  | cons c cs => simp [h c (by simp)]

theorem dropWhile_of_bare {p : Char → Bool} {cs : List Char} (h : Bare p cs) :
    cs.dropWhile p = cs := dropWhile_of_head h.1

/-- White space goes from both ends, and nothing else does. -/
theorem trim_append {w w' cs : List Char} (hw : ∀ c ∈ w, isBlank c = true)
    (hw' : ∀ c ∈ w', isBlank c = true) (h : Bare isBlank cs) : trim (w ++ cs ++ w') = cs := by
  cases cs with
  | nil =>
    have hall : ∀ c ∈ w ++ w', isBlank c = true := by
      intro c hc
      rcases List.mem_append.mp hc with hc | hc
      · exact hw c hc
      · exact hw' c hc
    have hstart : trimStart (w ++ [] ++ w') = [] := by
      rw [List.append_nil, trimStart, ← List.append_nil (w ++ w'),
        List.dropWhile_append_of_pos hall]
      rfl
    rw [trim, hstart]
    rfl
  | cons c cs =>
    have hc : isBlank c = false := h.1 c (by simp)
    have hstart : trimStart (w ++ (c :: cs) ++ w') = (c :: cs) ++ w' := by
      rw [trimStart, List.append_assoc, List.dropWhile_append_of_pos hw, List.cons_append]
      simp [hc]
    have hend : ∀ x ∈ w'.reverse, isBlank x = true := by
      intro x hx
      exact hw' x (List.mem_reverse.mp hx)
    rw [trim, hstart, trimEnd, List.reverse_append, List.dropWhile_append_of_pos hend,
      dropWhile_of_bare h.reverse, List.reverse_reverse]

theorem head?_dropWhile {p : Char → Bool} {cs : List Char} :
    ∀ c ∈ (cs.dropWhile p).head?, p c = false := by
  intro c hc
  have hstop := List.head?_dropWhile_not p cs
  rwa [hc] at hstop

/-- A text is what is left of it by trimming, with white space around it. -/
theorem exists_append_trim (cs : List Char) :
    ∃ w w', cs = w ++ trim cs ++ w' ∧ (∀ c ∈ w, isBlank c = true) ∧
      (∀ c ∈ w', isBlank c = true) ∧ Bare isBlank (trim cs) := by
  have htake : ∀ ds : List Char, ∀ c ∈ ds.takeWhile isBlank, isBlank c = true :=
    fun ds => List.all_eq_true.mp List.all_takeWhile
  have hend : trimStart cs = trim cs ++ ((trimStart cs).reverse.takeWhile isBlank).reverse := by
    rw [trim, trimEnd, ← List.reverse_append, List.takeWhile_append_dropWhile,
      List.reverse_reverse]
  refine ⟨cs.takeWhile isBlank, ((trimStart cs).reverse.takeWhile isBlank).reverse, ?_, htake cs,
    ?_, ?_, ?_⟩
  · rw [List.append_assoc, ← hend]
    exact List.takeWhile_append_dropWhile.symm
  · intro c hc
    exact htake _ c (List.mem_reverse.mp hc)
  · -- what is left starts as the text does without the white space in front
    intro c hc
    have hstart : c ∈ (trimStart cs).head? := by
      rw [hend, List.head?_append, Option.mem_def.mp hc]
      rfl
    exact head?_dropWhile c hstart
  · intro c hc
    rw [trim, trimEnd, List.getLast?_reverse] at hc
    exact head?_dropWhile c hc

/-- Dropping from the end leaves the start of the text. -/
theorem isPrefix_dropWhile_end (p : Char → Bool) (cs : List Char) :
    (cs.reverse.dropWhile p).reverse <+: cs := by
  rw [← List.reverse_suffix, List.reverse_reverse]
  exact List.dropWhile_suffix p

/-- Dropping from both ends leaves a piece of the text. -/
theorem isInfix_dropWhile_both (p : Char → Bool) (cs : List Char) :
    ((cs.dropWhile p).reverse.dropWhile p).reverse <:+: cs := by
  have hstart : cs.dropWhile p <:+ cs := List.dropWhile_suffix p
  exact (isPrefix_dropWhile_end p (cs.dropWhile p)).isInfix.trans hstart.isInfix

theorem isInfix_trim (cs : List Char) : trim cs <:+: cs := isInfix_dropWhile_both isBlank cs

theorem isInfix_trimChar (m : Char) (cs : List Char) : trimChar m cs <:+: cs :=
  isInfix_dropWhile_both (· == m) cs

/-- What stops the dropping also keeps everything behind it. -/
theorem dropWhile_append_cons {p : Char → Bool} {c : Char} (hc : p c = false) (a b : List Char) :
    (a ++ c :: b).dropWhile p = a.dropWhile p ++ c :: b := by
  induction a with
  | nil => simp [hc]
  | cons d a ih =>
    rw [List.cons_append, List.dropWhile_cons, List.dropWhile_cons, ih]
    split <;> rfl

theorem takeWhile_append_cons {p : Char → Bool} {c : Char} (hc : p c = false) (a b : List Char) :
    (a ++ c :: b).takeWhile p = a.takeWhile p := by
  induction a with
  | nil => simp [hc]
  | cons d a ih => rw [List.cons_append, List.takeWhile_cons, List.takeWhile_cons, ih]

theorem mem_dropWhile {p : Char → Bool} {c : Char} {cs : List Char} (hc : p c = false) :
    c ∈ cs.dropWhile p ↔ c ∈ cs := by
  constructor
  · exact fun h => (List.dropWhile_suffix p).subset h
  · intro h
    obtain ⟨a, b, rfl⟩ := List.append_of_mem h
    rw [dropWhile_append_cons hc]
    simp

/-! ### Cutting at a mark -/

theorem eq_append_of_splitFirst? {m : Char} {cs a b : List Char}
    (h : splitFirst? m cs = some (a, b)) : cs = a ++ m :: b := by
  induction cs generalizing a with
  | nil => cases h
  | cons c cs ih =>
    rw [splitFirst?] at h
    split at h
    · rename_i hc
      cases h
      rw [hc, List.nil_append]
    · simp only [Option.map_eq_some_iff, Prod.mk.injEq, Prod.exists] at h
      obtain ⟨a', b', hrest, rfl, rfl⟩ := h
      rw [ih hrest, List.cons_append]

theorem splitFirst?_append_of_not_mem {m : Char} {a : List Char} (ha : m ∉ a) (b : List Char) :
    splitFirst? m (a ++ b) = (splitFirst? m b).map fun (x, y) => (a ++ x, y) := by
  induction a with
  | nil => simp
  | cons c a ih =>
    rw [List.mem_cons, not_or] at ha
    simp [splitFirst?, Ne.symm ha.1, ih ha.2, Function.comp_def]

theorem splitFirst?_append {m : Char} {a : List Char} (ha : m ∉ a) (b : List Char) :
    splitFirst? m (a ++ m :: b) = some (a, b) := by
  rw [splitFirst?_append_of_not_mem ha]
  simp [splitFirst?]

theorem splitLast?_of_not_mem {m : Char} {cs : List Char} (h : m ∉ cs) :
    splitLast? m cs = none := by
  induction cs with
  | nil => rfl
  | cons c cs ih =>
    rw [List.mem_cons, not_or] at h
    simp [splitLast?, Ne.symm h.1, ih h.2]

theorem splitLast?_append {m : Char} (a : List Char) {b : List Char} (hb : m ∉ b) :
    splitLast? m (a ++ m :: b) = some (a, b) := by
  induction a with
  | nil => simp [splitLast?, splitLast?_of_not_mem hb]
  | cons c a ih => simp [splitLast?, ih]

/-! ### Cutting at every mark -/

theorem splitAt_of_not_mem {m : Char} {cs : List Char} (h : m ∉ cs) : splitAt m cs = [cs] := by
  induction cs with
  | nil => rfl
  | cons c cs ih =>
    rw [List.mem_cons, not_or] at h
    simp [splitAt, Ne.symm h.1, ih h.2]

theorem splitAt_ne_nil (m : Char) (cs : List Char) : splitAt m cs ≠ [] := by
  cases cs with
  | nil => simp [splitAt]
  | cons c cs =>
    rw [splitAt]
    split
    · simp
    · split <;> simp

theorem splitAt_append (m : Char) (a b : List Char) :
    splitAt m (a ++ m :: b) = splitAt m a ++ splitAt m b := by
  induction a with
  | nil => simp [splitAt]
  | cons c a ih =>
    rw [List.cons_append, splitAt, splitAt, ih]
    split
    · rfl
    · obtain ⟨piece, rest, ha⟩ := List.exists_cons_of_ne_nil (splitAt_ne_nil m a)
      rw [ha]
      rfl

/-- What stands in front without a mark belongs to the first piece. -/
theorem splitAt_append_of_not_mem {m : Char} {a b first : List Char} {rest : List (List Char)}
    (ha : m ∉ a) (hb : splitAt m b = first :: rest) :
    splitAt m (a ++ b) = (a ++ first) :: rest := by
  induction a with
  | nil => exact hb
  | cons c a ih =>
    rw [List.mem_cons, not_or] at ha
    rw [List.cons_append, splitAt, if_neg (Ne.symm ha.1), ih ha.2]
    rfl

/-- What stands behind without a mark belongs to the last piece. -/
theorem exists_splitAt_append {m : Char} {b : List Char} (hb : m ∉ b) (cs : List Char) :
    ∃ before piece, splitAt m cs = before ++ [piece] ∧
      splitAt m (cs ++ b) = before ++ [piece ++ b] := by
  induction cs with
  | nil => exact ⟨[], [], rfl, splitAt_of_not_mem hb⟩
  | cons c cs ih =>
    obtain ⟨before, piece, hcs, happend⟩ := ih
    by_cases hc : c = m
    · refine ⟨[] :: before, piece, ?_, ?_⟩
      · rw [splitAt, if_pos hc, hcs]
        rfl
      · rw [List.cons_append, splitAt, if_pos hc, happend]
        rfl
    · cases before with
      | nil =>
        refine ⟨[], c :: piece, ?_, ?_⟩
        · rw [splitAt, if_neg hc, hcs]
          rfl
        · rw [List.cons_append, splitAt, if_neg hc, happend]
          rfl
      | cons first before =>
        refine ⟨(c :: first) :: before, piece, ?_, ?_⟩
        · rw [splitAt, if_neg hc, hcs]
          rfl
        · rw [List.cons_append, splitAt, if_neg hc, happend]
          rfl

theorem length_splitAt (m : Char) (cs : List Char) :
    (splitAt m cs).length = cs.count m + 1 := by
  induction cs with
  | nil => rfl
  | cons c cs ih =>
    by_cases hc : c = m
    · rw [splitAt, if_pos hc, List.length_cons, ih, hc, List.count_cons_self]
    · obtain ⟨first, rest, hcs⟩ := List.exists_cons_of_ne_nil (splitAt_ne_nil m cs)
      rw [splitAt, if_neg hc, hcs, List.count_cons_of_ne hc, ← ih, hcs]
      rfl

/-- The last piece is what stands behind the last mark. -/
theorem exists_splitAt_eq_append (m : Char) (cs : List Char) :
    ∃ before piece, splitAt m cs = before ++ [piece] ∧ m ∉ piece ∧ piece <:+ cs := by
  by_cases hm : m ∈ cs
  · obtain ⟨a, b, hcs, hb⟩ := List.eq_append_cons_of_mem (List.mem_reverse.mpr hm)
    have hpiece : m ∉ a.reverse := by
      rwa [List.mem_reverse]
    have hrev : cs = b.reverse ++ m :: a.reverse := by
      rw [← List.reverse_reverse cs, hcs]
      simp
    refine ⟨splitAt m b.reverse, a.reverse, ?_, hpiece, ?_⟩
    · rw [hrev, splitAt_append, splitAt_of_not_mem hpiece]
    · rw [hrev]
      exact (List.suffix_cons m _).trans (List.suffix_append _ _)
  · exact ⟨[], cs, splitAt_of_not_mem hm, hm, List.suffix_refl cs⟩

/-! ### Searching -/

theorem dropLead?_append (needle rest : List Char) :
    dropLead? needle (needle ++ rest) = some rest := by
  induction needle with
  | nil => rfl
  | cons n ns ih => simp [dropLead?, ih]

/-- What starts with a character that is not in the needle is never a part of it. -/
theorem dropLead?_append_cons {m : Char} {needle : List Char} (hm : m ∉ needle)
    (cs rest : List Char) :
    dropLead? needle (cs ++ m :: rest) = (dropLead? needle cs).map (· ++ m :: rest) := by
  induction needle generalizing cs with
  | nil => rfl
  | cons n ns ih =>
    rw [List.mem_cons, not_or] at hm
    cases cs with
    | nil => exact if_neg (Ne.symm hm.1)
    | cons c cs =>
      rw [List.cons_append, dropLead?, dropLead?, ih hm.2]
      split <;> rfl

theorem contains_append (a needle b : List Char) : contains needle (a ++ (needle ++ b)) = true := by
  induction a with
  | nil =>
    rw [List.nil_append]
    cases hb : needle ++ b with
    | nil =>
      rw [List.append_eq_nil_iff] at hb
      simp [contains, hb.1]
    | cons c cs =>
      rw [contains, ← hb, dropLead?_append]
      rfl
  | cons c a ih => simp [contains, ih]

theorem contains_of_isInfix {needle cs : List Char} (h : needle <:+: cs) :
    contains needle cs = true := by
  obtain ⟨a, b, rfl⟩ := h
  rw [List.append_assoc]
  exact contains_append a needle b

/-! ### Replacing -/

theorem replaceFrom_skip (n : Char) (ns new passed rest : List Char) :
    replaceFrom n ns new passed.length (passed ++ rest) = replaceFrom n ns new 0 rest := by
  induction passed with
  | nil => rfl
  | cons c passed ih => rw [List.cons_append, List.length_cons, replaceFrom, ih]

theorem replaceFrom_of_not_mem {n : Char} {cs : List Char} (h : n ∉ cs) (ns new : List Char) :
    replaceFrom n ns new 0 cs = cs := by
  induction cs with
  | nil => rfl
  | cons c cs ih =>
    rw [List.mem_cons, not_or] at h
    simp [replaceFrom, dropLead?, h.1, ih h.2]

/-- An occurrence in front is replaced, and the search goes on behind it. -/
theorem replaceFrom_append (n : Char) (ns new rest : List Char) :
    replaceFrom n ns new 0 (n :: ns ++ rest) = new ++ replaceFrom n ns new 0 rest := by
  have hlead := dropLead?_append (n :: ns) rest
  rw [List.cons_append] at hlead ⊢
  rw [replaceFrom, hlead, replaceFrom_skip]
  rfl

end Datebook.Text
