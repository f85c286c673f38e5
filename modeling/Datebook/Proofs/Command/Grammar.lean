/-
  Datebook/Proofs/Command/Grammar.lean
  ====================================
  **The grammar of the command language**, written down without a reader.

  A call is the text

      W verb W '(' W [lit W (',' W lit W)*] ')' W

  where `W` is a run of separators (`Gaps`) and `lit` is a `Literal`: a text
  between two equal quotes in which a backslash stands for the character behind
  it, so that the first quote without a backslash ends it (`Body`).

  `Written text v ls` says that `text` is a call of the verb `v` with the
  literals `ls`.  A literal keeps its source beside its meaning: the reader of
  commands is about the meanings, the splitter of calls about the sources.

  The canonical text of a command is such a call (`written_render`), with every
  argument between double quotes, and stays one between any separators.
-/
import Datebook.Command.Reader

namespace Datebook.Command

open Datebook.Text

/-! ### Literals -/

/-- A run of separators. -/
def Gaps (w : List Char) : Prop := ∀ c ∈ w, isGap c = true

/-- Between two quotes `q`, `source` stands for `value`. -/
inductive Body (q : Char) : (source value : List Char) → Prop where
  | nil : Body q [] []
  | escaped (c : Char) {source value : List Char} :
      Body q source value → Body q ('\\' :: c :: source) (c :: value)
  | plain {c : Char} {source value : List Char} :
      c ≠ q → c ≠ '\\' → Body q source value → Body q (c :: source) (c :: value)

/-- A quoted argument as it stands in a text, with what it means. -/
structure Literal where
  mark : Char
  source : List Char
  value : List Char
  isMark : mark = '"' ∨ mark = '\x27'
  isBody : Body mark source value

namespace Literal

/-- The literal in its text, quotes included. -/
def chars (l : Literal) : List Char := l.mark :: l.source ++ [l.mark]

/-- What the literal means. -/
def text (l : Literal) : String := String.ofList l.value

theorem mark_ne_backslash (l : Literal) : l.mark ≠ '\\' := by
  rcases l.isMark with h | h <;> rw [h] <;> decide

theorem isBlank_mark (l : Literal) : isBlank l.mark = false := by
  rcases l.isMark with h | h <;> rw [h] <;> decide

end Literal

/-! ### Calls -/

/-- The literals that follow a first one, each behind a comma. -/
inductive MoreWritten : List Char → List Literal → Prop where
  | nil : MoreWritten [] []
  | cons {before after more : List Char} {l : Literal} {ls : List Literal} :
      Gaps before → Gaps after → MoreWritten more ls →
      MoreWritten (',' :: before ++ l.chars ++ after ++ more) (l :: ls)

/-- What stands between the parentheses of a call, behind the first separators. -/
inductive ListWritten : List Char → List Literal → Prop where
  | nil : ListWritten [] []
  | cons {after more : List Char} {l : Literal} {ls : List Literal} :
      Gaps after → MoreWritten more ls → ListWritten (l.chars ++ after ++ more) (l :: ls)

/-- The text is a call of the verb with these literals. -/
inductive Written : List Char → Verb → List Literal → Prop where
  | call {w₀ w₁ w₂ w₃ inside : List Char} {ls : List Literal} (v : Verb) :
      Gaps w₀ → Gaps w₁ → Gaps w₂ → Gaps w₃ → ListWritten inside ls →
      Written (w₀ ++ v.word.toList ++ w₁ ++ '(' :: w₂ ++ inside ++ ')' :: w₃) v ls

/-! ### The canonical text is a call -/

theorem gaps_nil : Gaps [] := by simp [Gaps]

theorem body_escape (s : List Char) : Body '"' (s.flatMap escapeChar) s := by
  induction s with
  | nil => exact .nil
  | cons c s ih =>
    rw [List.flatMap_cons]
    by_cases h : c = '"' ∨ c = '\\'
    · rw [escapeChar, if_pos h]
      exact .escaped c ih
    · rw [escapeChar, if_neg h]
      rw [not_or] at h
      exact .plain h.1 h.2 ih

def Literal.canonical (s : String) : Literal where
  mark := '"'
  source := s.toList.flatMap escapeChar
  value := s.toList
  isMark := .inl rfl
  isBody := body_escape s.toList

@[simp] theorem Literal.text_canonical (s : String) : (Literal.canonical s).text = s :=
  String.ofList_toList

theorem Literal.chars_canonical (s : String) : (Literal.canonical s).chars = quote s.toList := rfl

/-- Behind its first argument, a canonical list goes on with a comma and a blank
    before each argument. -/
theorem exists_moreWritten_renderArguments (p : String) (ps : List String) :
    ∃ more, renderArguments (p :: ps) = quote p.toList ++ more ∧
      MoreWritten more (ps.map Literal.canonical) := by
  induction ps generalizing p with
  | nil => exact ⟨[], by simp [renderArguments], .nil⟩
  | cons p' ps ih =>
    obtain ⟨more, hmore, hw⟩ := ih p'
    refine ⟨',' :: ' ' :: renderArguments (p' :: ps), by simp [renderArguments], ?_⟩
    have hblank : Gaps [' '] := by simp [Gaps, isGap]
    have hcons := MoreWritten.cons (l := Literal.canonical p') hblank gaps_nil hw
    rw [hmore, ← Literal.chars_canonical]
    simpa using hcons

theorem listWritten_renderArguments (ps : List String) :
    ListWritten (renderArguments ps) (ps.map Literal.canonical) := by
  cases ps with
  | nil => exact .nil
  | cons p ps =>
    obtain ⟨more, hmore, hw⟩ := exists_moreWritten_renderArguments p ps
    rw [hmore, ← Literal.chars_canonical]
    simpa using ListWritten.cons (l := Literal.canonical p) gaps_nil hw

/-- **The canonical text of a command is a call**, and so it is with separators
    around it. -/
theorem written_render (c : Command) {a b : List Char} (ha : Gaps a) (hb : Gaps b) :
    Written (a ++ c.renderChars ++ b) c.verb (c.parameters.map Literal.canonical) := by
  have h := Written.call c.verb ha gaps_nil gaps_nil hb (listWritten_renderArguments c.parameters)
  simpa [renderChars] using h

end Datebook.Command
