/-
  Datebook/Proofs/Text/Padded.lean
  ================================
  **Runs of digits read back**, alone and in front of other text.

  A padded number has exactly its width, unless the number needs more places
  (`length_padded`), and the zeros in front do not change its value.  So a reader
  that takes a fixed number of digits, and one that takes as many as there are,
  both give back the number that was written.
-/
import Datebook.Proofs.Text.Numeral
import Datebook.Text.Blank
import Mathlib.Algebra.Group.Nat.Defs
import Mathlib.Data.List.Induction

namespace Datebook.Text

/-! ### Digits -/

theorem isBlank_of_isDigit {c : Char} (h : isDigit c = true) : isBlank c = false := by
  simp only [isDigit, Bool.and_eq_true, decide_eq_true_eq, Char.le_def, UInt32.le_iff_toNat_le]
    at h
  have hlow : 48 ≤ c.toNat := h.1
  have hhigh : c.toNat ≤ 57 := h.2
  rw [Bool.eq_false_iff]
  simp only [isBlank, ne_eq, Bool.or_eq_true, Bool.and_eq_true, decide_eq_true_eq, beq_iff_eq]
  omega

theorem isDigit_of_mem_head? {ds : List Char} (hne : ds ≠ [])
    (hds : ∀ c ∈ ds, isDigit c = true) (rest : List Char) :
    ∀ c ∈ (ds ++ rest).head?, isDigit c = true := by
  cases ds with
  | nil => exact absurd rfl hne
  | cons d ds =>
    intro c hc
    cases hc
    exact hds d (by simp)

/-- A run of digits ends where no digit follows. -/
theorem takeWhile_isDigit_append {ds rest : List Char} (hds : ∀ c ∈ ds, isDigit c = true)
    (hrest : ∀ c ∈ rest.head?, isDigit c = false) : (ds ++ rest).takeWhile isDigit = ds := by
  rw [List.takeWhile_append_of_pos hds]
  cases rest with
  | nil => simp
  | cons c rest => simp [hrest c (by simp)]

theorem dropWhile_isDigit_append {ds rest : List Char} (hds : ∀ c ∈ ds, isDigit c = true)
    (hrest : ∀ c ∈ rest.head?, isDigit c = false) : (ds ++ rest).dropWhile isDigit = rest := by
  rw [List.dropWhile_append_of_pos hds]
  cases rest with
  | nil => rfl
  | cons c rest => simp [hrest c (by simp)]

/-! ### Numerals -/

theorem numeral_zero : numeral 0 = ['0'] := by
  rw [numeral, reversedDigits, if_pos (by decide)]
  rfl

/-- The first digit of a number other than zero is not zero. -/
theorem head?_numeral_ne_zero {n : Nat} (h : n ≠ 0) : (numeral n).head? ≠ some '0' := by
  have hlast : ∀ n, n ≠ 0 → ∃ d, d ≠ 0 ∧ (reversedDigits n).getLast? = some d ∧ d < 10 := by
    intro n hn
    fun_induction reversedDigits n with
    | case1 n hsmall => exact ⟨n, hn, rfl, hsmall⟩
    | case2 n hbig ih =>
      obtain ⟨d, hd, hlast, hlt⟩ := ih (by omega)
      exact ⟨d, hd, by simp [List.getLast?_cons, hlast], hlt⟩
  obtain ⟨d, hd, hget, hlt⟩ := hlast n h
  rw [numeral, List.head?_map, List.head?_reverse, hget, Option.map_some]
  intro hzero
  have hvalue := digitValue_digitChar hlt
  rw [Option.some.inj hzero] at hvalue
  exact hd hvalue.symm

/-! ### Values -/

theorem value_append_singleton (ds : List Char) (d : Char) :
    value (ds ++ [d]) = 10 * value ds + digitValue d := by
  simp [value, List.foldl_append]

theorem value_zeros_append (k : Nat) (ds : List Char) :
    value (List.replicate k '0' ++ ds) = value ds := by
  induction k with
  | zero => rfl
  | succ k ih => exact ih

theorem value_append_zeros (ds : List Char) (k : Nat) :
    value (ds ++ List.replicate k '0') = value ds * 10 ^ k := by
  induction k with
  | zero => simp
  | succ k ih =>
    have hzero : digitValue '0' = 0 := rfl
    rw [List.replicate_succ', ← List.append_assoc, value_append_singleton, ih, hzero,
      Nat.add_zero, Nat.mul_comm 10, Nat.mul_assoc, Nat.pow_succ]

theorem digitValue_lt {c : Char} (h : isDigit c = true) : digitValue c < 10 := by
  simp only [isDigit, Bool.and_eq_true, decide_eq_true_eq, Char.le_def, UInt32.le_iff_toNat_le]
    at h
  have hhigh : c.toNat ≤ 57 := h.2
  have hzero : '0'.toNat = 48 := rfl
  rw [digitValue, hzero]
  omega

theorem value_lt {ds : List Char} (h : ∀ c ∈ ds, isDigit c = true) :
    value ds < 10 ^ ds.length := by
  induction ds using List.reverseRecOn with
  | nil => decide
  | append_singleton ds d ih =>
    have hlead := ih fun c hc => h c (by simp [hc])
    have hlast := digitValue_lt (h d (by simp))
    rw [value_append_singleton, List.length_append, List.length_singleton, Nat.pow_succ]
    omega

/-! ### Padding -/

theorem isDigit_of_mem_zeros {k : Nat} {c : Char} (h : c ∈ List.replicate k '0') :
    isDigit c = true := by
  rw [List.eq_of_mem_replicate h]
  decide

theorem isDigit_of_mem_padded {w n : Nat} {c : Char} (h : c ∈ padded w n) : isDigit c = true := by
  rcases List.mem_append.mp h with hzero | hnumeral
  · exact isDigit_of_mem_zeros hzero
  · exact isDigit_of_mem_numeral hnumeral

theorem padded_ne_nil (w n : Nat) : padded w n ≠ [] := by
  simp [padded, numeral_ne_nil]

theorem le_length_padded (w n : Nat) : w ≤ (padded w n).length := by
  simp only [padded, List.length_append, List.length_replicate]
  omega

theorem value_padded (w n : Nat) : value (padded w n) = n := by
  rw [padded, value_zeros_append, value_numeral]

theorem length_reversedDigits_le {w n : Nat} (hw : 0 < w) (h : n < 10 ^ w) :
    (reversedDigits n).length ≤ w := by
  induction w generalizing n with
  | zero => cases hw
  | succ w ih =>
    rw [reversedDigits]
    split
    · simp
    · rename_i hn
      have hlast : n / 10 < 10 ^ w := by
        rw [Nat.pow_succ] at h
        omega
      -- a number of two digits or more leaves at least one place for the others
      have hw' : 0 < w := by
        rcases Nat.eq_zero_or_pos w with rfl | hw'
        · simp at h
          omega
        · exact hw'
      have := ih hw' hlast
      simp only [List.length_cons]
      omega

/-- A number that fits has its width, with zeros where it is shorter. -/
theorem length_padded {w n : Nat} (hw : 0 < w) (h : n < 10 ^ w) : (padded w n).length = w := by
  have hnumeral : (numeral n).length ≤ w := by
    simpa [numeral] using length_reversedDigits_le hw h
  simp only [padded, List.length_append, List.length_replicate]
  omega

end Datebook.Text
