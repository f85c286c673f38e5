/-
  Datebook/Proofs/Command/Wrapping.lean
  =====================================
  **Asking first whether a reply names a verb never hides a command.**

  A reply is searched for a verb as it comes, and read without its markup.  Taking
  markup off leaves a contiguous piece of the reply (`isInfix_stripMarkupChars`),
  and a piece that is read as a command has the word of its verb in it.  So a
  session recognises a command exactly where the reader finds one
  (`commandOf?_eq`).
-/
import Datebook.Proofs.Command.Acceptance
import Datebook.Proofs.Text.Cutting
import Datebook.Session.Basic

namespace Datebook.Command

open Datebook.Text

/-! ### Markup -/

theorem isInfix_dropInfo (cs : List Char) : dropInfo cs <:+: cs := by
  rw [dropInfo]
  cases h : splitFirst? '\n' cs with
  | none => exact List.infix_rfl
  | some lines =>
    obtain ⟨line, rest⟩ := lines
    dsimp only
    split
    · exact List.infix_rfl
    · rw [eq_append_of_splitFirst? h]
      exact ((List.suffix_cons '\n' rest).trans (List.suffix_append line _)).isInfix

theorem isInfix_dropClosingFence (cs : List Char) : dropClosingFence cs <:+: cs := by
  rw [dropClosingFence]
  cases h : dropLead? fence cs.reverse with
  | none => exact List.infix_rfl
  | some rest =>
    have hcs : cs = rest.reverse ++ fence.reverse := by
      rw [← List.reverse_append, ← eq_append_of_dropLead? h, List.reverse_reverse]
    rw [hcs]
    exact (List.prefix_append _ _).isInfix

/-- Without its markup, a reply is a piece of what it was. -/
theorem isInfix_stripMarkupChars (cs : List Char) : stripMarkupChars cs <:+: cs := by
  have hticks : ∀ inner, trim (trimChar tick inner) <:+: inner := by
    intro inner
    exact (isInfix_trim _).trans (isInfix_trimChar tick inner)
  rw [stripMarkupChars]
  cases h : dropLead? fence (trim cs) with
  | none => exact (hticks _).trans (isInfix_trim cs)
  | some fenced =>
    have hfenced : fenced <:+: trim cs := by
      rw [eq_append_of_dropLead? h]
      exact (List.suffix_append _ _).isInfix
    have hbody : trim (dropClosingFence (dropInfo fenced)) <:+: fenced :=
      ((isInfix_trim _).trans (isInfix_dropClosingFence _)).trans (isInfix_dropInfo fenced)
    exact ((hticks _).trans hbody).trans (hfenced.trans (isInfix_trim cs))

/-! ### Verbs -/

theorem isInfix_word_of_written {text : List Char} {v : Verb} {ls : List Literal}
    (h : Written text v ls) : v.word.toList <:+: text := by
  obtain @⟨w₀, w₁, w₂, w₃, inside, _, _, h₀, h₁, h₂, h₃, hlist⟩ := h
  refine ⟨w₀, w₁ ++ '(' :: w₂ ++ inside ++ ')' :: w₃, ?_⟩
  simp

/-- A reply that is read as a command once its markup is off names a verb. -/
theorem mentionsVerb_of_read {reply : String} {c : Command}
    (h : read (stripMarkup reply) = .ok c) : mentionsVerb reply = true := by
  obtain ⟨ls, hwritten, _⟩ := read_eq_ok_iff.mp h
  have hword : c.verb.word.toList <:+: stripMarkupChars reply.toList := by
    rw [stripMarkup, String.toList_ofList] at hwritten
    exact isInfix_word_of_written hwritten
  rw [mentionsVerb, List.any_eq_true]
  refine ⟨c.verb, Verb.mem_all c.verb, ?_⟩
  exact contains_of_isInfix (hword.trans (isInfix_stripMarkupChars reply.toList))

end Datebook.Command

namespace Datebook.Session

/-- A session takes a reply for the command that the reader finds in it. -/
theorem commandOf?_eq (reply : String) :
    commandOf? reply = (Command.read (Command.stripMarkup reply)).toOption := by
  rw [commandOf?]
  split
  · rfl
  · rename_i hnone
    cases h : Command.read (Command.stripMarkup reply) with
    | ok c => exact absurd (Command.mentionsVerb_of_read h) hnone
    | error fault => rfl

theorem commandOf?_eq_some_iff {reply : String} {c : Command} :
    commandOf? reply = some c ↔ Command.read (Command.stripMarkup reply) = .ok c := by
  rw [commandOf?_eq]
  cases Command.read (Command.stripMarkup reply) <;> simp [Except.toOption]

end Datebook.Session
