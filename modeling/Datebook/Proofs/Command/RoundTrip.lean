/-
  Datebook/Proofs/Command/RoundTrip.lean
  ======================================
  **Reading a command's text gives the command back.**

  The canonical text of a command is a call of the grammar (`written_render`),
  and the reader accepts calls (`readChars_of_written`).  So nothing is lost by
  logging a command as its text, and separators around the text do not matter.
-/
import Datebook.Proofs.Command.Reading

namespace Datebook.Command

open Datebook.Text

theorem readChars_renderChars (c : Command) {a b : List Char} (ha : Gaps a) (hb : Gaps b) :
    readChars (a ++ c.renderChars ++ b) = .ok c := by
  refine readChars_of_written (written_render c ha hb) ?_
  simp [List.map_map, Function.comp_def]

theorem read_render (c : Command) : read c.render = .ok c := by
  simpa [read, render] using readChars_renderChars c gaps_nil gaps_nil

theorem render_injective : Function.Injective render := by
  intro c d h
  have hread : read c.render = read d.render := by rw [h]
  rw [read_render, read_render] at hread
  exact Except.ok.inj hread

/-- **Rendering loses nothing.**  With any separators around it, the text of a
    command is read as that command; so different commands have different texts. -/
theorem read_render_between_gaps :
    (∀ (c : Command) (a b : String), (∀ x ∈ a.toList, isGap x = true) →
      (∀ x ∈ b.toList, isGap x = true) → read (a ++ c.render ++ b) = .ok c) ∧
    Function.Injective render := by
  refine ⟨fun c a b ha hb => ?_, render_injective⟩
  simpa [read, render] using readChars_renderChars c ha hb

/-- An argument that ends with a backslash, and one that holds every character
    the grammar treats specially. -/
theorem read_render_between_gaps_awkward :
    (∀ x ∈ " \t\r\n".toList, isGap x = true) ∧
    read (" \t\r\n" ++ (Command.add "\\" "\"'\\,)(\n" "").render ++ " \t\r\n") =
      .ok (.add "\\" "\"'\\,)(\n" "") :=
  have hgaps : ∀ x ∈ " \t\r\n".toList, isGap x = true := List.all_eq_true.mp (by decide)
  ⟨hgaps, read_render_between_gaps.1 _ _ _ hgaps hgaps⟩

end Datebook.Command
