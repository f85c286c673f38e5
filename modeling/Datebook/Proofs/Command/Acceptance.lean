/-
  Datebook/Proofs/Command/Acceptance.lean
  =======================================
  **The reader accepts the texts of the grammar and no others.**

  `readChars_of_written` says that nothing of the grammar is refused.  Here is the
  other half: whatever the reader accepts can be cut into separators, a verb,
  parentheses, commas and literals as the grammar has them
  (`written_of_readChars`).  The lemmas follow the reader from its leaves up again,
  and each says which text was consumed.

  No text has two readings (`Written.unique`): the verb is the first word, and the
  literals are the pieces that the splitter finds.
-/
import Datebook.Proofs.Command.Splitting
import Datebook.Proofs.Command.Reading
import Mathlib.Data.List.TakeWhile

namespace Datebook.Command

open Datebook.Text

/-! ### What the reader has consumed -/

theorem exists_gaps_append_skipGaps (cs : List Char) : ∃ w, Gaps w ∧ cs = w ++ skipGaps cs := by
  refine ⟨cs.takeWhile isGap, ?_, ?_⟩
  · intro c hc
    exact List.mem_takeWhile_imp hc
  · rw [skipGaps, List.takeWhile_append_dropWhile]

theorem Gaps.append {w w' : List Char} (hw : Gaps w) (hw' : Gaps w') : Gaps (w ++ w') := by
  intro c hc
  rcases List.mem_append.mp hc with hc | hc
  · exact hw c hc
  · exact hw' c hc

theorem exists_body_of_literalBody {q : Char} {cs value rest : List Char}
    (h : literalBody q cs = some (value, rest)) :
    ∃ source, Body q source value ∧ cs = source ++ q :: rest := by
  fun_induction literalBody q cs generalizing value with
  | case1 => cases h
  | case2 => cases h
  | case3 c cs ih =>
    simp only [Option.map_eq_some_iff, Prod.mk.injEq, Prod.exists] at h
    obtain ⟨value', rest', hbody, rfl, rfl⟩ := h
    obtain ⟨source, hsource, rfl⟩ := ih hbody
    exact ⟨'\\' :: c :: source, .escaped c hsource, rfl⟩
  | case4 cs =>
    cases h
    exact ⟨[], .nil, rfl⟩
  | case5 c cs hend hescape hc ih =>
    simp only [Option.map_eq_some_iff, Prod.mk.injEq, Prod.exists] at h
    obtain ⟨value', rest', hbody, rfl, rfl⟩ := h
    obtain ⟨source, hsource, rfl⟩ := ih hbody
    -- a backslash with something behind it is an escape, and the quote is behind
    have hbackslash : c ≠ '\\' := by
      rintro rfl
      cases hrest : source ++ q :: rest' with
      | nil => simp at hrest
      | cons d ds => exact hescape d ds rfl hrest
    exact ⟨c :: source, .plain hc hbackslash hsource, rfl⟩

theorem exists_literal_of_literal? {cs rest : List Char} {s : String}
    (h : literal? cs = some (s, rest)) : ∃ l : Literal, l.text = s ∧ cs = l.chars ++ rest := by
  cases cs with
  | nil => cases h
  | cons q cs =>
    rw [literal?] at h
    split at h
    · rename_i hmark
      simp only [Option.map_eq_some_iff, Prod.mk.injEq, Prod.exists] at h
      obtain ⟨value, rest', hbody, rfl, rfl⟩ := h
      obtain ⟨source, hsource, rfl⟩ := exists_body_of_literalBody hbody
      exact ⟨⟨q, source, value, hmark, hsource⟩, rfl, by simp [Literal.chars]⟩
    · cases h

/-- Behind a literal stand separators and the further literals; what is left over
    comes behind these, and may start with separators itself. -/
theorem exists_moreWritten_of_moreLiterals {cs rest : List Char} {ss : List String}
    (h : moreLiterals cs = (ss, rest)) :
    ∃ w more ls, Gaps w ∧ MoreWritten more ls ∧ ss = ls.map Literal.text ∧
      cs = w ++ more ++ skipGaps rest := by
  -- a list that is over: behind the comma stands no literal, or there is no comma
  have hover : ∀ cs, ∃ w more ls, Gaps w ∧ MoreWritten more ls ∧ [] = ls.map Literal.text ∧
      cs = w ++ more ++ skipGaps cs := by
    intro cs
    obtain ⟨w, hw, hcs⟩ := exists_gaps_append_skipGaps cs
    refine ⟨w, [], [], hw, .nil, rfl, ?_⟩
    rw [List.append_nil]
    exact hcs
  fun_induction moreLiterals cs generalizing ss with
  | case1 cs afterComma hcomma s behind hlit ss' rest' hmore ih =>
    cases h
    obtain ⟨w, hw, hcs⟩ := exists_gaps_append_skipGaps cs
    obtain ⟨before, hbefore, hafterComma⟩ := exists_gaps_append_skipGaps afterComma
    obtain ⟨l, rfl, hl⟩ := exists_literal_of_literal? hlit
    obtain ⟨after, more, ls, hafter, hmoreWritten, rfl, hrest⟩ := ih hmore
    refine ⟨w, _, l :: ls, hw, .cons hbefore hafter hmoreWritten, rfl, ?_⟩
    rw [hcs, hcomma, hafterComma, hl, hrest]
    simp
  | case2 | case3 =>
    cases h
    exact hover _

/-- Behind an opening parenthesis, the reader takes a list of the grammar, and what
    remains decides between a call and a fault. -/
theorem arguments_of_open {cs behind : List Char} (hopen : skipGaps cs = '(' :: behind) :
    ∃ w₁ w₂ inside ls rest, Gaps w₁ ∧ Gaps w₂ ∧ ListWritten inside ls ∧
      cs = w₁ ++ '(' :: w₂ ++ inside ++ skipGaps rest ∧
      arguments cs =
        match skipGaps rest with
        | ')' :: after => .ok (ls.map Literal.text, skipGaps after)
        | stop => .error stop := by
  obtain ⟨w₁, h₁, hcs⟩ := exists_gaps_append_skipGaps cs
  obtain ⟨w₂, h₂, hbehind⟩ := exists_gaps_append_skipGaps behind
  cases hlit : literal? (skipGaps behind) with
  | none =>
    refine ⟨w₁, w₂, [], [], skipGaps behind, h₁, h₂, .nil, ?_, ?_⟩
    · have hskip : skipGaps (skipGaps behind) = skipGaps behind := dropWhile_dropWhile isGap behind
      rw [hskip]
      simpa [hopen, ← hbehind] using hcs
    · rw [arguments, hopen]
      simp only [hlit]
      rfl
  | some result =>
    obtain ⟨s, behind'⟩ := result
    rcases hmore : moreLiterals behind' with ⟨ss, rest⟩
    obtain ⟨l, rfl, hl⟩ := exists_literal_of_literal? hlit
    obtain ⟨w, more, ls, hw, hwritten, rfl, hrest⟩ := exists_moreWritten_of_moreLiterals hmore
    refine ⟨w₁, w₂, _, l :: ls, rest, h₁, h₂, .cons hw hwritten, ?_, ?_⟩
    · rw [hcs, hopen, hbehind, hl, hrest]
      simp
    · rw [arguments, hopen]
      simp only [hlit, hmore]
      rfl

theorem arguments_of_not_open {cs : List Char} (hopen : ∀ behind, skipGaps cs ≠ '(' :: behind) :
    arguments cs = .error (skipGaps cs) := by
  rw [arguments]
  split
  · rename_i behind h
    exact absurd h (hopen behind)
  · rfl

theorem exists_listWritten_of_arguments {cs rest : List Char} {args : List String}
    (h : arguments cs = .ok (args, rest)) :
    ∃ w₁ w₂ w₃ inside ls, Gaps w₁ ∧ Gaps w₂ ∧ Gaps w₃ ∧ ListWritten inside ls ∧
      args = ls.map Literal.text ∧
      cs = w₁ ++ '(' :: w₂ ++ inside ++ ')' :: w₃ ++ rest := by
  by_cases hopen : ∃ behind, skipGaps cs = '(' :: behind
  · obtain ⟨behind, hopen⟩ := hopen
    obtain ⟨w₁, w₂, inside, ls, left, h₁, h₂, hlist, hcs, harguments⟩ := arguments_of_open hopen
    rw [harguments] at h
    split at h
    · rename_i after hclose
      cases h
      obtain ⟨w₃, h₃, hafter⟩ := exists_gaps_append_skipGaps after
      refine ⟨w₁, w₂, w₃, inside, ls, h₁, h₂, h₃, hlist, rfl, ?_⟩
      rw [hclose, hafter] at hcs
      rw [hcs]
      simp
    · cases h
  · rw [arguments_of_not_open (not_exists.mp hopen)] at h
    cases h

/-! ### Accepted texts -/

/-- **Every text that is read is one of the grammar**, and was read as the grammar
    says. -/
theorem written_of_readChars {text : List Char} {c : Command} (h : readChars text = .ok c) :
    ∃ ls, Written text c.verb ls ∧ c.parameters = ls.map Literal.text := by
  obtain ⟨w₀, h₀, htext⟩ := exists_gaps_append_skipGaps text
  obtain ⟨w₁, h₁, hcall⟩ :=
    exists_gaps_append_skipGaps ((skipGaps text).dropWhile isWordChar)
  simp only [readChars] at h
  split at h
  · cases h
  split at h
  · cases h
  rename_i verb hverb
  split at h
  · cases h
  rename_i args rest harguments
  split at h
  · rename_i hrest
    split at h
    · rename_i command hcommand
      cases h
      obtain ⟨w₁', w₂, w₃, inside, ls, h₁', h₂, h₃, hlist, rfl, hargs⟩ :=
        exists_listWritten_of_arguments harguments
      obtain ⟨rfl, hparameters⟩ := parameters_of_ofParameters hcommand
      have hword : c.verb.word.toList = (skipGaps text).takeWhile isWordChar := by
        rw [Verb.word_of_ofWord? hverb, String.toList_ofList]
      rw [List.isEmpty_iff] at hrest
      -- the reader skips separators behind the verb and again before the parenthesis
      have hparts : text = w₀ ++ c.verb.word.toList ++ (w₁ ++ w₁') ++ '(' :: w₂ ++ inside ++
          ')' :: w₃ := by
        rw [htext, ← List.takeWhile_append_dropWhile (p := isWordChar) (l := skipGaps text),
          hcall, hargs, hrest, hword]
        simp
      rw [hparts]
      exact ⟨ls, .call c.verb h₀ (h₁.append h₁') h₂ h₃ hlist, hparameters⟩
    · cases h
  · cases h

/-! ### One reading -/

theorem Body.value_unique {q : Char} (hq : q ≠ '\\') {source value value' : List Char}
    (h : Body q source value) (h' : Body q source value') : value = value' := by
  have hread := literalBody_of_body hq h []
  rw [literalBody_of_body hq h' [], Option.some.injEq, Prod.mk.injEq] at hread
  exact hread.1.symm

theorem Literal.chars_injective : Function.Injective Literal.chars := by
  intro l l' h
  obtain ⟨mark, source, value, hmark, hbody⟩ := l
  obtain ⟨mark', source', value', hmark', hbody'⟩ := l'
  simp only [Literal.chars, List.cons_append, List.cons.injEq] at h
  obtain ⟨rfl, h⟩ := h
  obtain rfl := List.append_cancel_right h
  obtain rfl := hbody.value_unique (Literal.mark_ne_backslash ⟨mark, source, value, hmark, hbody⟩)
    hbody'
  rfl

theorem word_injective : Function.Injective Verb.word := by
  intro v v' h
  have hverb := Verb.ofWord?_word v
  rw [h, Verb.ofWord?_word, Option.some.injEq] at hverb
  exact hverb.symm

/-- The verb of a call is its first word. -/
theorem takeWhile_isWordChar_of_written {text : List Char} {v : Verb} {ls : List Literal}
    (h : Written text v ls) : (skipGaps text).takeWhile isWordChar = v.word.toList := by
  obtain @⟨w₀, w₁, w₂, w₃, inside, _, _, h₀, h₁, h₂, h₃, hlist⟩ := h
  simp only [List.append_assoc, List.cons_append]
  rw [skipGaps_word h₀, takeWhile_isWordChar_word v h₁]

theorem Written.unique {text : List Char} {v v' : Verb} {ls ls' : List Literal}
    (h : Written text v ls) (h' : Written text v' ls') : v = v' ∧ ls = ls' := by
  constructor
  · apply word_injective
    apply String.toList_injective
    rw [← takeWhile_isWordChar_of_written h, ← takeWhile_isWordChar_of_written h']
  · have hpieces := pieces?_of_written h
    rw [pieces?_of_written h', Option.some.injEq] at hpieces
    exact ((List.map_inj_right fun _ _ h => Literal.chars_injective h).mp hpieces).symm

/-! ### The language of the reader -/

theorem exists_command_of_length {v : Verb} {ps : List String} (h : ps.length = v.arity) :
    ∃ c : Command, c.verb = v ∧ c.parameters = ps := by
  match v, ps, h with
  | .add, [description, startTime, endTime], _ =>
    exact ⟨.add description startTime endTime, rfl, rfl⟩
  | .modify, [scheduleId, description, startTime, endTime], _ =>
    exact ⟨.modify scheduleId description startTime endTime, rfl, rfl⟩
  | .remove, [scheduleId], _ => exact ⟨.remove scheduleId, rfl, rfl⟩
  | .list, [], _ => exact ⟨.list, rfl, rfl⟩

theorem read_eq_ok_iff {text : String} {c : Command} : read text = .ok c ↔
    ∃ ls, Written text.toList c.verb ls ∧ c.parameters = ls.map Literal.text := by
  constructor
  · exact written_of_readChars
  · rintro ⟨ls, hwritten, hparameters⟩
    exact readChars_of_written hwritten hparameters

theorem exists_read_iff {text : String} : (∃ c, read text = .ok c) ↔
    ∃ v ls, Written text.toList v ls ∧ ls.length = v.arity := by
  constructor
  · rintro ⟨c, h⟩
    obtain ⟨ls, hwritten, hparameters⟩ := read_eq_ok_iff.mp h
    refine ⟨c.verb, ls, hwritten, ?_⟩
    rw [← length_parameters, hparameters, List.length_map]
  · rintro ⟨v, ls, hwritten, hlength⟩
    have hvalues : (ls.map Literal.text).length = v.arity := by rw [List.length_map, hlength]
    obtain ⟨c, rfl, hparameters⟩ := exists_command_of_length hvalues
    exact ⟨c, read_eq_ok_iff.mpr ⟨ls, hwritten, hparameters⟩⟩

/-- **The reader accepts exactly its grammar.**  A text is read as a command if and
    only if it is a call of the command's verb whose literals mean the command's
    arguments.  Some command is read if and only if the text is a call with as many
    literals as its verb takes, every other text is a fault, and no text is a call
    in two ways. -/
theorem read_iff_written :
    (∀ (text : String) (c : Command), read text = .ok c ↔
      ∃ ls, Written text.toList c.verb ls ∧ c.parameters = ls.map Literal.text) ∧
    (∀ text : String, (∃ c, read text = .ok c) ↔
      ∃ v ls, Written text.toList v ls ∧ ls.length = v.arity) ∧
    (∀ text : String, (∃ fault, read text = .error fault) ↔
      ¬ ∃ v ls, Written text.toList v ls ∧ ls.length = v.arity) ∧
    ∀ (text : String) (v v' : Verb) (ls ls' : List Literal),
      Written text.toList v ls → Written text.toList v' ls' → v = v' ∧ ls = ls' := by
  refine ⟨fun text c => read_eq_ok_iff, fun text => exists_read_iff, fun text => ?_,
    fun text v v' ls ls' h h' => h.unique h'⟩
  rw [← exists_read_iff]
  cases read text with
  | ok c => simp
  | error fault => simp

/-- Either kind of quote, an escape, and separators wherever they may stand. -/
theorem read_iff_written_quotes :
    let text := "\tremove_outlook_schedule ( 'Bob\\'s \"tea\", (No.1)'\n) "
    read text = .ok (.remove "Bob's \"tea\", (No.1)") ∧
    ∃ l, Written text.toList .remove [l] ∧ l.text = "Bob's \"tea\", (No.1)" ∧
      ∀ v ls, Written text.toList v ls → v = .remove ∧ ls = [l] := by
  intro text
  have hread : read text = .ok (.remove "Bob's \"tea\", (No.1)") := by decide +kernel
  obtain ⟨ls, hwritten, hparameters⟩ := (read_iff_written.1 _ _).mp hread
  obtain ⟨l, rfl, htext⟩ := List.map_eq_singleton_iff.mp hparameters.symm
  refine ⟨hread, l, hwritten, htext, fun v ls h => ?_⟩
  exact read_iff_written.2.2.2 _ _ _ _ _ h hwritten

end Datebook.Command
