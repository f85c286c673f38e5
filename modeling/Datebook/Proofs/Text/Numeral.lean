/-
  Datebook/Proofs/Text/Numeral.lean
  =================================
  **Different numbers have different numerals.**

  A numeral is a run of digits, never empty, and reading it gives the number back
  (`value_numeral`).  So texts that number the entries of a listing can be told
  apart: `1` is never taken for `10`.
-/
import Datebook.Text.Digits
import Mathlib.Logic.Function.Basic

namespace Datebook.Text

theorem numeral_injective : Function.Injective numeral := by
  intro m n h
  rw [← value_numeral m, h, value_numeral n]

theorem numeral_ne_nil (n : Nat) : numeral n ≠ [] := by
  rw [numeral, reversedDigits]
  split <;> simp

end Datebook.Text

namespace Datebook

theorem natText_injective : Function.Injective natText := by
  intro m n h
  exact Text.numeral_injective (String.ofList_injective h)

end Datebook
