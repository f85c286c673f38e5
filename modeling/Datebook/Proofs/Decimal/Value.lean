/-
  Datebook/Proofs/Decimal/Value.lean
  ==================================
  **The rational numbers that binary values denote.**

  A finite value `± m · 2^e` denotes a rational number (`Binary.value?`); what is no
  number and what is infinite denote none.  Comparisons with integers are made on
  quotients of natural numbers, and for finite values they are comparisons of the
  numbers denoted (`leInt_iff`, `intLe_iff`).
-/
import Datebook.Decimal.Binary
import Mathlib.Algebra.Order.Field.Power
import Mathlib.Data.Rat.Cast.Order
import Mathlib.Tactic.FieldSimp
import Mathlib.Tactic.Positivity

namespace Datebook

namespace BinaryFormat

/-! ### Quotients -/

theorem scale_den_pos (a : Nat) (e : Int) : 0 < (scale a e).2 := by
  rw [scale]
  split
  · exact Nat.one_pos
  · exact Nat.pow_pos (by decide)

/-- The quotient that stands for `a · 2^e` has this value. -/
theorem scale_div (a : Nat) (e : Int) :
    ((scale a e).1 : ℚ) / (scale a e).2 = a * 2 ^ e := by
  rw [scale]
  split
  · rename_i h
    obtain ⟨k, rfl⟩ := Int.eq_ofNat_of_zero_le h
    simp
  · rename_i h
    obtain ⟨k, rfl⟩ : ∃ k : Nat, e = -k := ⟨(-e).toNat, by omega⟩
    simp [div_eq_mul_inv]

end BinaryFormat

namespace Binary

open BinaryFormat

/-- The number that a finite value denotes. -/
def value? : Binary → Option ℚ
  | .finite negative m e => some (if negative then -(m * 2 ^ e) else m * 2 ^ e)
  | _ => none

/-- The numerator with its sign, over the denominator, is the number denoted. -/
theorem signed_scale (negative : Bool) (m : Nat) (e : Int) :
    ((if negative then -((scale m e).1 : Int) else (scale m e).1 : Int) : ℚ)
      = (if negative then -((m : ℚ) * 2 ^ e) else m * 2 ^ e) * (scale m e).2 := by
  have hden : ((scale m e).2 : ℚ) ≠ 0 := by
    have := scale_den_pos m e
    positivity
  have hnum : ((scale m e).1 : ℚ) = m * 2 ^ e * (scale m e).2 := by
    rw [← scale_div, div_mul_cancel₀ _ hden]
  cases negative
  · simp [hnum]
  · simp [hnum]

theorem leInt_iff {x : Binary} {q : ℚ} (h : x.value? = some q) (n : Int) :
    x.leInt n = true ↔ q ≤ n := by
  cases x with
  | nan => cases h
  | infinite negative => cases h
  | finite negative m e =>
    cases h
    have hden : (0 : ℚ) < (scale m e).2 := by
      have := scale_den_pos m e
      positivity
    simp only [leInt, decide_eq_true_eq]
    rw [← Int.cast_le (R := ℚ), signed_scale, Int.cast_mul, Int.cast_natCast,
      mul_le_mul_iff_left₀ hden]

theorem intLe_iff {x : Binary} {q : ℚ} (h : x.value? = some q) (n : Int) :
    intLe n x = true ↔ n ≤ q := by
  cases x with
  | nan => cases h
  | infinite negative => cases h
  | finite negative m e =>
    cases h
    have hden : (0 : ℚ) < (scale m e).2 := by
      have := scale_den_pos m e
      positivity
    simp only [intLe, decide_eq_true_eq]
    rw [← Int.cast_le (R := ℚ), signed_scale, Int.cast_mul, Int.cast_natCast,
      mul_le_mul_iff_left₀ hden]

theorem gtInt_iff {x : Binary} {q : ℚ} (h : x.value? = some q) (n : Int) :
    x.gtInt n = true ↔ n < q := by
  have hle := leInt_iff h n
  cases x with
  | nan => cases h
  | infinite negative => cases h
  | finite negative m e =>
    rw [gtInt, Bool.not_eq_true', ← Bool.not_eq_true, hle, not_le]
    simp

end Binary

end Datebook
