/-
  Datebook/Proofs/Command/Reading.lean
  ====================================
  **The reader accepts every text of the grammar**, and reads it as the grammar
  says (`readChars_of_written`).

  The lemmas follow the reader from its leaves up: separators, the body of a
  literal, a literal, the literals behind a first one, the list of arguments.
  Each of them leaves open what follows in the text.  The list is the one place
  where the reader could take too little: it ends before a comma without a
  literal, so its lemma says what remains once the separators are skipped.
-/
import Datebook.Proofs.Command.Grammar

namespace Datebook.Command

open Datebook.Text

/-! ### Separators -/

theorem skipGaps_append {w : List Char} (hw : Gaps w) (cs : List Char) :
    skipGaps (w ++ cs) = skipGaps cs :=
  List.dropWhile_append_of_pos hw

theorem skipGaps_cons {c : Char} (hc : isGap c = false) (cs : List Char) :
    skipGaps (c :: cs) = c :: cs := by
  simp [skipGaps, hc]

theorem skipGaps_gaps {w : List Char} (hw : Gaps w) : skipGaps w = [] := by
  rw [← List.append_nil w, skipGaps_append hw]
  rfl

/-! ### Literals -/

theorem literalBody_of_body {q : Char} (hq : q ≠ '\\') {source value : List Char}
    (h : Body q source value) (rest : List Char) :
    literalBody q (source ++ q :: rest) = some (value, rest) := by
  induction h with
  | nil =>
    rw [List.nil_append, literalBody.eq_def]
    split <;> simp_all
  | escaped c _ ih => simp [literalBody, ih]
  | @plain c source value hcq hcb _ ih =>
    rw [List.cons_append, literalBody.eq_def]
    split <;> simp_all

theorem literal?_chars (l : Literal) (rest : List Char) :
    literal? (l.chars ++ rest) = some (l.text, rest) := by
  have hbody := literalBody_of_body l.mark_ne_backslash l.isBody rest
  simp [Literal.chars, literal?, l.isMark, hbody, Literal.text]

theorem skipGaps_literal (l : Literal) (rest : List Char) :
    skipGaps (l.chars ++ rest) = l.chars ++ rest := by
  have hmark : isGap l.mark = false := by
    rcases l.isMark with h | h <;> rw [h] <;> decide
  exact skipGaps_cons hmark _

/-! ### Lists of literals -/

theorem moreLiterals_of_comma {cs afterComma rest : List Char} {s : String}
    (hcomma : skipGaps cs = ',' :: afterComma)
    (hlit : literal? (skipGaps afterComma) = some (s, rest)) :
    moreLiterals cs = (s :: (moreLiterals rest).1, (moreLiterals rest).2) := by
  rw [moreLiterals.eq_def]
  split
  · rename_i after hs
    rw [hcomma] at hs
    cases hs
    split
    · rename_i s' rest' hl
      rw [hlit] at hl
      cases hl
      rfl
    · rename_i hl
      rw [hlit] at hl
      cases hl
  · rename_i hne
    exact absurd hcomma (hne _)

theorem moreLiterals_of_no_comma {cs : List Char} (h : ∀ after, skipGaps cs ≠ ',' :: after) :
    moreLiterals cs = ([], cs) := by
  rw [moreLiterals.eq_def]
  split
  · rename_i after hs
    exact absurd hs (h after)
  · rfl

/-- The literals behind a first one are read up to the closing parenthesis. -/
theorem moreLiterals_of_moreWritten {more : List Char} {ls : List Literal}
    (h : MoreWritten more ls) {w : List Char} (hw : Gaps w) (rest : List Char) :
    (moreLiterals (w ++ more ++ ')' :: rest)).1 = ls.map Literal.text ∧
      skipGaps (moreLiterals (w ++ more ++ ')' :: rest)).2 = ')' :: rest := by
  induction h generalizing w with
  | nil =>
    have hskip : skipGaps (w ++ [] ++ ')' :: rest) = ')' :: rest := by
      rw [List.append_nil, skipGaps_append hw, skipGaps_cons (by decide)]
    have hover : ∀ after, skipGaps (w ++ [] ++ ')' :: rest) ≠ ',' :: after := by
      intro after
      rw [hskip]
      simp
    rw [moreLiterals_of_no_comma hover]
    exact ⟨rfl, hskip⟩
  | @cons before after more l ls hbefore hafter _ ih =>
    have hcomma : skipGaps (w ++ (',' :: before ++ l.chars ++ after ++ more) ++ ')' :: rest) =
        ',' :: (before ++ (l.chars ++ (after ++ more ++ ')' :: rest))) := by
      rw [List.append_assoc, skipGaps_append hw]
      simp [skipGaps_cons (show isGap ',' = false by decide)]
    have hlit : literal? (skipGaps (before ++ (l.chars ++ (after ++ more ++ ')' :: rest)))) =
        some (l.text, after ++ more ++ ')' :: rest) := by
      rw [skipGaps_append hbefore, skipGaps_literal, literal?_chars]
    obtain ⟨hvalues, hrest⟩ := ih hafter
    rw [moreLiterals_of_comma hcomma hlit]
    exact ⟨by rw [hvalues, List.map_cons], hrest⟩

theorem arguments_of_literal {cs inside rest after : List Char} {s : String}
    (hopen : skipGaps cs = '(' :: inside) (hlit : literal? (skipGaps inside) = some (s, rest))
    (hclose : skipGaps (moreLiterals rest).2 = ')' :: after) :
    arguments cs = .ok (s :: (moreLiterals rest).1, skipGaps after) := by
  simp [arguments, hopen, hlit, hclose]

theorem arguments_of_close {cs inside after : List Char}
    (hopen : skipGaps cs = '(' :: inside) (hclose : skipGaps inside = ')' :: after) :
    arguments cs = .ok ([], skipGaps after) := by
  have hnone : literal? (')' :: after) = none := by simp [literal?]
  simp [arguments, hopen, hclose, hnone, skipGaps_cons (show isGap ')' = false by decide)]

theorem arguments_of_listWritten {inside : List Char} {ls : List Literal}
    (h : ListWritten inside ls) {w₂ w₃ : List Char} (h₂ : Gaps w₂) (h₃ : Gaps w₃) :
    arguments ('(' :: w₂ ++ inside ++ ')' :: w₃) = .ok (ls.map Literal.text, []) := by
  have hopen : skipGaps ('(' :: w₂ ++ inside ++ ')' :: w₃) =
      '(' :: (w₂ ++ (inside ++ ')' :: w₃)) := by
    simp [skipGaps_cons (show isGap '(' = false by decide)]
  cases h with
  | nil =>
    have hclose : skipGaps (w₂ ++ ([] ++ ')' :: w₃)) = ')' :: w₃ := by
      rw [skipGaps_append h₂, List.nil_append, skipGaps_cons (by decide)]
    rw [arguments_of_close hopen hclose, skipGaps_gaps h₃, List.map_nil]
  | @cons after more l ls hafter hmore =>
    obtain ⟨hvalues, hrest⟩ := moreLiterals_of_moreWritten hmore hafter w₃
    have hlit : literal? (skipGaps (w₂ ++ (l.chars ++ after ++ more ++ ')' :: w₃))) =
        some (l.text, after ++ more ++ ')' :: w₃) := by
      rw [skipGaps_append h₂]
      simp only [List.append_assoc]
      rw [skipGaps_literal, literal?_chars]
    rw [arguments_of_literal hopen hlit hrest, hvalues, skipGaps_gaps h₃, List.map_cons]

/-! ### Calls -/

theorem isWordChar_of_mem_word (v : Verb) : ∀ c ∈ v.word.toList, isWordChar c = true := by
  cases v <;> exact List.all_eq_true.mp (by decide)

theorem word_ne_nil (v : Verb) : v.word.toList ≠ [] := by
  cases v <;> decide

theorem not_isGap_of_isWordChar {c : Char} (h : isWordChar c = true) : isGap c = false := by
  cases hg : isGap c with
  | false => rfl
  | true =>
    simp only [isGap, Bool.or_eq_true, beq_iff_eq] at hg
    rcases hg with ((rfl | rfl) | rfl) | rfl <;> exact absurd h (by decide)

/-- What follows the verb of a call starts with no character of a word. -/
theorem takeWhile_isWordChar_gaps {w : List Char} (hw : Gaps w) (rest : List Char) :
    (w ++ '(' :: rest).takeWhile isWordChar = [] := by
  cases w with
  | nil => simp [isWordChar]
  | cons c w =>
    have hc : isWordChar c = false := by
      cases h : isWordChar c with
      | false => rfl
      | true => exact absurd (hw c (by simp)) (by simp [not_isGap_of_isWordChar h])
    simp [hc]

/-- Behind its separators, a call begins with its verb. -/
theorem skipGaps_word {w : List Char} (hw : Gaps w) (v : Verb) (rest : List Char) :
    skipGaps (w ++ (v.word.toList ++ rest)) = v.word.toList ++ rest := by
  obtain ⟨first, word, hword⟩ := List.exists_cons_of_ne_nil (word_ne_nil v)
  have hfirst : isGap first = false :=
    not_isGap_of_isWordChar (isWordChar_of_mem_word v first (by simp [hword]))
  rw [skipGaps_append hw, hword, List.cons_append, skipGaps_cons hfirst]

theorem takeWhile_isWordChar_word (v : Verb) {w : List Char} (hw : Gaps w) (rest : List Char) :
    (v.word.toList ++ (w ++ '(' :: rest)).takeWhile isWordChar = v.word.toList := by
  rw [List.takeWhile_append_of_pos (isWordChar_of_mem_word v), takeWhile_isWordChar_gaps hw,
    List.append_nil]

/-- **Every text of the grammar is read** as the command of its verb and of what
    its literals mean. -/
theorem readChars_of_written {text : List Char} {ls : List Literal} {c : Command}
    (h : Written text c.verb ls) (hc : c.parameters = ls.map Literal.text) :
    readChars text = .ok c := by
  obtain @⟨w₀, w₁, w₂, w₃, inside, _, _, h₀, h₁, h₂, h₃, hlist⟩ := h
  -- the reader's stations: the verb, what stands behind it, the call
  have hstart : skipGaps (w₀ ++ c.verb.word.toList ++ w₁ ++ '(' :: w₂ ++ inside ++ ')' :: w₃) =
      c.verb.word.toList ++ (w₁ ++ '(' :: (w₂ ++ inside ++ ')' :: w₃)) := by
    simp only [List.append_assoc, List.cons_append]
    exact skipGaps_word h₀ c.verb _
  have htake := takeWhile_isWordChar_word c.verb h₁ (w₂ ++ inside ++ ')' :: w₃)
  have hdrop : (c.verb.word.toList ++ (w₁ ++ '(' :: (w₂ ++ inside ++ ')' :: w₃))).dropWhile
      isWordChar = w₁ ++ '(' :: (w₂ ++ inside ++ ')' :: w₃) := by
    rw [List.dropWhile_append_of_pos (isWordChar_of_mem_word c.verb)]
    simpa [takeWhile_isWordChar_gaps h₁] using List.takeWhile_append_dropWhile
      (p := isWordChar) (l := w₁ ++ '(' :: (w₂ ++ inside ++ ')' :: w₃))
  have hcall : skipGaps (w₁ ++ '(' :: (w₂ ++ inside ++ ')' :: w₃)) =
      '(' :: w₂ ++ inside ++ ')' :: w₃ := by
    rw [skipGaps_append h₁, skipGaps_cons (by decide)]
    simp
  have hverb : Verb.ofWord? (String.ofList c.verb.word.toList) = some c.verb := by
    rw [String.ofList_toList, Verb.ofWord?_word]
  have hnonempty : c.verb.word.toList.isEmpty = false :=
    List.isEmpty_eq_false_iff.mpr (word_ne_nil c.verb)
  unfold readChars
  simp only [hstart, htake, hnonempty, hdrop, hcall, hverb, arguments_of_listWritten hlist h₂ h₃]
  rw [← hc, Command.ofParameters_parameters]
  simp

end Datebook.Command
