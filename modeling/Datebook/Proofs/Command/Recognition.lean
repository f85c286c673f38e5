/-
  Datebook/Proofs/Command/Recognition.lean
  ========================================
  **The text of a command is recognised as that command** when a model replies
  with it (`commandOf?_render`).

  Between a reply and the reader stands the stripping of markup, and it leaves the
  text of a command alone.
-/
import Datebook.Proofs.Command.RoundTrip
import Datebook.Proofs.Command.Unwrapping

namespace Datebook.Command

theorem stripMarkup_render (c : Command) : stripMarkup c.render = c.render := by
  have hcall : Unadorned c.renderChars := by
    rw [renderChars, List.append_cons]
    simpa using unadorned_call c.verb ('(' :: renderArguments c.parameters)
  rw [stripMarkup, render, String.toList_ofList, stripMarkupChars_of_unadorned hcall]

end Datebook.Command

namespace Datebook.Session

/-- **A reply that is the text of a command is taken for that command.** -/
theorem commandOf?_render (c : Command) : commandOf? c.render = some c := by
  rw [commandOf?_eq, Command.stripMarkup_render, Command.read_render]
  rfl

end Datebook.Session
