/-
  Datebook/Proofs/Command/Splitting.lean
  ======================================
  **The splitter and the grammar agree**: of a text of the grammar, the splitter
  returns the sources of the literals, quotes included (`pieces?_of_written`).

  The splitter works without the grammar, on a three-valued state.  What ties it
  to the grammar is `cutAtCommas_literal`: it enters a literal at the opening
  quote and is outside again exactly behind the closing one, so that commas,
  parentheses and quotes of the other kind inside a literal never count.
-/
import Datebook.Command.Pieces
import Datebook.Proofs.Command.Grammar
import Datebook.Proofs.Text.Cutting

namespace Datebook.Command

open Datebook.Text

/-! ### Cutting -/

/-- From behind the opening quote, cutting goes on behind the closing one. -/
theorem cutAtCommas_body {q : Char} (hq : q ≠ '\\') {source value : List Char}
    (h : Body q source value) (rest : List Char) :
    cutAtCommas (.inside q) (source ++ q :: rest) =
      (source ++ q :: (cutAtCommas .outside rest).1, (cutAtCommas .outside rest).2) := by
  induction h with
  | nil => simp [cutAtCommas, QuoteState.next, hq]
  | escaped c _ ih => simp [cutAtCommas, QuoteState.next, ih]
  | plain hcq hcb _ ih => simp [cutAtCommas, QuoteState.next, hcq, hcb, ih]

theorem cutAtCommas_literal (l : Literal) (rest : List Char) :
    cutAtCommas .outside (l.chars ++ rest) =
      (l.chars ++ (cutAtCommas .outside rest).1, (cutAtCommas .outside rest).2) := by
  have hbody := cutAtCommas_body l.mark_ne_backslash l.isBody rest
  have hcomma : l.mark ≠ ',' := by
    rcases l.isMark with h | h <;> rw [h] <;> decide
  simp [Literal.chars, cutAtCommas, QuoteState.next, l.isMark, hcomma, hbody]

theorem cutAtCommas_gaps {w : List Char} (hw : Gaps w) (rest : List Char) :
    cutAtCommas .outside (w ++ rest) =
      (w ++ (cutAtCommas .outside rest).1, (cutAtCommas .outside rest).2) := by
  induction w with
  | nil => rfl
  | cons c w ih =>
    have hc : c ≠ ',' ∧ c ≠ '"' ∧ c ≠ '\x27' := by
      have hgap := hw c (by simp)
      refine ⟨?_, ?_, ?_⟩ <;> (rintro rfl; exact absurd hgap (by decide))
    have hrest := ih fun x hx => hw x (List.mem_cons_of_mem c hx)
    simp [cutAtCommas, QuoteState.next, hc, hrest]

/-! ### Trimming the pieces -/

theorem Gaps.isBlank {w : List Char} (hw : Gaps w) : ∀ c ∈ w, Text.isBlank c = true :=
  fun c hc => isBlank_of_isGap (hw c hc)

theorem Literal.bare_chars (l : Literal) : Bare Text.isBlank l.chars := by
  constructor
  · simp [Literal.chars, l.isBlank_mark]
  · rw [Literal.chars, List.getLast?_concat]
    simp [l.isBlank_mark]

theorem trim_literal {w w' : List Char} (hw : Gaps w) (hw' : Gaps w') (l : Literal) :
    trim (w ++ l.chars ++ w') = l.chars :=
  trim_append hw.isBlank hw'.isBlank l.bare_chars

/-- The literals behind a first one: the piece at hand ends, and each of them is
    the whole of a later piece. -/
theorem cutAtCommas_of_moreWritten {more : List Char} {ls : List Literal}
    (h : MoreWritten more ls) :
    (cutAtCommas .outside more).1 = [] ∧
      (cutAtCommas .outside more).2.map trim = ls.map Literal.chars := by
  induction h with
  | nil => exact ⟨rfl, rfl⟩
  | @cons before after more l ls hbefore hafter _ ih =>
    obtain ⟨hfirst, hothers⟩ := ih
    have hpiece : cutAtCommas .outside (before ++ (l.chars ++ (after ++ more))) =
        (before ++ (l.chars ++ after), (cutAtCommas .outside more).2) := by
      rw [cutAtCommas_gaps hbefore, cutAtCommas_literal, cutAtCommas_gaps hafter, hfirst,
        List.append_nil]
    have htrim : trim (before ++ (l.chars ++ after)) = l.chars := by
      simpa using trim_literal hbefore hafter l
    simp [cutAtCommas, hpiece, htrim, hothers]

/-! ### Calls -/

theorem not_mem_gaps {w : List Char} (hw : Gaps w) {c : Char} (hc : isGap c = false) : c ∉ w := by
  intro hmem
  rw [hw c hmem] at hc
  exact absurd hc (by decide)

/-- What stands between the first and the last parenthesis of a call. -/
theorem betweenParentheses?_of_gaps (v : Verb) {w₀ w₁ w₃ : List Char} (h₀ : Gaps w₀)
    (h₁ : Gaps w₁) (h₃ : Gaps w₃) (inside : List Char) :
    betweenParentheses? (w₀ ++ v.word.toList ++ w₁ ++ '(' :: (inside ++ ')' :: w₃)) =
      some inside := by
  have hword : '(' ∉ v.word.toList := by cases v <;> decide
  have hbefore : '(' ∉ w₀ ++ v.word.toList ++ w₁ := by
    simp [not_mem_gaps h₀ (c := '(') (by decide), not_mem_gaps h₁ (c := '(') (by decide), hword]
  have hbehind : ')' ∉ w₃ := not_mem_gaps h₃ (by decide)
  simp only [betweenParentheses?, splitFirst?_append hbefore, splitLast?_append inside hbehind,
    Option.bind_eq_bind, Option.bind_some]

/-- **Splitting a call gives the sources of its literals.** -/
theorem pieces?_of_written {text : List Char} {v : Verb} {ls : List Literal}
    (h : Written text v ls) : pieces? text = some (ls.map Literal.chars) := by
  obtain @⟨w₀, w₁, w₂, w₃, inside, _, _, h₀, h₁, h₂, h₃, hlist⟩ := h
  have hbetween := betweenParentheses?_of_gaps v h₀ h₁ h₃ (w₂ ++ inside)
  simp only [List.append_assoc, List.cons_append] at hbetween ⊢
  cases hlist with
  | nil =>
    have hcut : cutAtCommas .outside w₂ = (w₂, []) := by
      simpa [cutAtCommas] using cutAtCommas_gaps h₂ []
    have hnothing : Bare Text.isBlank [] := by simp [Bare]
    have htrim : trim w₂ = [] := by
      simpa using trim_append h₂.isBlank gaps_nil.isBlank hnothing
    simp only [List.append_nil, List.nil_append] at hbetween ⊢
    simp [pieces?, hbetween, hcut, htrim]
  | @cons after more l ls hafter hmore =>
    obtain ⟨hfirst, hothers⟩ := cutAtCommas_of_moreWritten hmore
    have hpiece : cutAtCommas .outside (w₂ ++ (l.chars ++ (after ++ more))) =
        (w₂ ++ (l.chars ++ after), (cutAtCommas .outside more).2) := by
      rw [cutAtCommas_gaps h₂, cutAtCommas_literal, cutAtCommas_gaps hafter, hfirst,
        List.append_nil]
    have htrim : trim (w₂ ++ (l.chars ++ after)) = l.chars := by
      simpa using trim_literal h₂ hafter l
    have hnonempty : l.chars ≠ [] := by simp [Literal.chars]
    simp only [List.append_assoc] at hbetween ⊢
    simp [pieces?, hbetween, hpiece, htrim, hothers, hnonempty]

/-- Splitting the canonical text of a command gives its arguments, quoted. -/
theorem splitArguments?_render (c : Command) :
    splitArguments? c.render =
      some (c.parameters.map fun p => String.ofList (quote p.toList)) := by
  have h := pieces?_of_written (written_render c gaps_nil gaps_nil)
  rw [List.nil_append, List.append_nil] at h
  rw [splitArguments?, render, String.toList_ofList, h, Option.map_some, List.map_map,
    List.map_map]
  rfl

end Datebook.Command
