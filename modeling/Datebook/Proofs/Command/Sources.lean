/-
  Datebook/Proofs/Command/Sources.lean
  ====================================
  **Of every text that is read, the splitter returns the arguments as they were
  written.**

  Reader and splitter go through a text on their own, one literal after another
  and one character after another.  They cannot drift apart: what the reader
  accepts is a call of the grammar (`written_of_readChars`), a text is a call in
  one way only (`Written.unique`), and of a call the splitter returns the sources
  of the literals (`pieces?_of_written`).

  A piece is a literal by itself, with nothing before it or behind it, so reading
  it alone gives the argument (`literal?_piece`).
-/
import Datebook.Proofs.Command.Acceptance

namespace Datebook.Command

/-! ### One literal -/

/-- The source text of a literal, quotes included. -/
def Literal.piece (l : Literal) : String := String.ofList l.chars

theorem literal?_piece (l : Literal) : literal? l.piece.toList = some (l.text, []) := by
  have hread := literal?_chars l []
  rw [List.append_nil] at hread
  rw [Literal.piece, String.toList_ofList]
  exact hread

theorem splitArguments?_of_written {text : String} {v : Verb} {ls : List Literal}
    (h : Written text.toList v ls) : splitArguments? text = some (ls.map Literal.piece) := by
  rw [splitArguments?, pieces?_of_written h, Option.map_some, List.map_map]
  rfl

/-! ### Every text that is read -/

/-- **The splitter and the reader agree on every text that is read.**  Such a text is
    a call with certain literals, and with no others.  There are as many as the
    command has arguments; the splitter returns their sources, in order, and each of
    these means the argument at its place.  Of the text of a command it returns the
    arguments between quotes, with their escapes. -/
theorem splitArguments?_of_read :
    (∀ (text : String) (c : Command), read text = .ok c →
      ∃ ls, Written text.toList c.verb ls ∧
        (∀ v ls', Written text.toList v ls' → v = c.verb ∧ ls' = ls) ∧
        splitArguments? text = some (ls.map Literal.piece) ∧
        ls.length = c.parameters.length ∧
        ∀ (i : Nat) (l : Literal), ls[i]? = some l → c.parameters[i]? = some l.text ∧
          literal? l.piece.toList = some (l.text, [])) ∧
    ∀ c : Command, splitArguments? c.render =
      some (c.parameters.map fun p => String.ofList (quote p.toList)) := by
  refine ⟨?_, splitArguments?_render⟩
  intro text c hread
  obtain ⟨ls, hwritten, hparameters⟩ := read_eq_ok_iff.mp hread
  refine ⟨ls, hwritten, ?_, splitArguments?_of_written hwritten, ?_, ?_⟩
  · intro v ls' hwritten'
    exact hwritten'.unique hwritten
  · rw [hparameters, List.length_map]
  · intro i l hl
    constructor
    · rw [hparameters, List.getElem?_map, hl, Option.map_some]
    · exact literal?_piece l

/-- Commas, parentheses and quotes of the other kind inside a literal, and an escape. -/
theorem splitArguments?_of_read_quotes :
    let text := "\tremove_outlook_schedule ( 'Bob\\'s \"tea\", (No.1)'\n) "
    read text = .ok (.remove "Bob's \"tea\", (No.1)") ∧
    ∃ l : Literal, Written text.toList .remove [l] ∧ splitArguments? text = some [l.piece] ∧
      literal? l.piece.toList = some ("Bob's \"tea\", (No.1)", []) := by
  intro text
  have hread : read text = .ok (.remove "Bob's \"tea\", (No.1)") := by decide +kernel
  obtain ⟨ls, hwritten, _, hsplit, hlength, harguments⟩ := splitArguments?_of_read.1 _ _ hread
  obtain ⟨l, rfl⟩ := List.length_eq_one_iff.mp hlength
  obtain ⟨hargument, hpiece⟩ := harguments 0 l rfl
  have htext : l.text = "Bob's \"tea\", (No.1)" := (Option.some.inj hargument).symm
  refine ⟨hread, l, hwritten, hsplit, ?_⟩
  rw [hpiece, htext]

end Datebook.Command
