/-
  Datebook/Proofs/Decimal/Layout.lean
  ===================================
  **A binary32 value is written as a JSON number that reads back as it.**

  The digits are the shortest ones, which read back (`shortest_reads`).  What is left
  is where the point stands: `positional` puts it before the digits, behind them or
  between them, and the layout with an exponent behind the first one.  Zeros that are
  filled in change nothing in front of the digits, and behind them they are made up
  for by the exponent (`ofDecimal_mul_pow`).
-/
import Datebook.Proofs.Decimal.Shortest
import Datebook.Proofs.Json.Pretty

namespace Datebook

open Datebook.Text Datebook.Decimal Datebook.BinaryFormat

/-- The text is that of a JSON number, and the binary32 value nearest to it is `x`. -/
def Json.Denotes (t : String) (x : Binary) : Prop :=
  ∃ p : Json.NumberParts, t = String.ofList p.chars ∧
    binary32.ofDecimal p.negative p.digits p.exponent = x

theorem Json.NumberParts.denotes (p : Json.NumberParts) :
    Json.Denotes (String.ofList p.chars) (binary32.ofDecimal p.negative p.digits p.exponent) :=
  ⟨p, rfl, rfl⟩

theorem Json.Denotes.plain {t : String} {x : Binary} (h : Json.Denotes t x) :
    (Json.number t).Plain := by
  obtain ⟨p, rfl, -⟩ := h
  exact .number p

namespace Decimal

/-! ### Where the point may stand -/

section

variable (negative : Bool) {d : Nat} (hd : 0 < d)

/-- The point splits the digits, or a fraction starts behind the first of them. -/
def splitParts {k : Nat} (hk : 0 < k) (power : Option Int) : Json.NumberParts where
  negative := negative
  whole := (numeral d).take k
  fraction := (numeral d).drop k
  power := power
  whole_ne_nil := by simp [hk.ne', numeral_ne_nil]
  isDigit_whole := fun _ hc => isDigit_of_mem_numeral (List.mem_of_mem_take hc)
  whole_zero := fun hzero => by
    rw [List.head?_take, if_neg hk.ne'] at hzero
    exact absurd hzero (head?_numeral_ne_zero hd.ne')
  isDigit_fraction := fun _ hc => isDigit_of_mem_numeral (List.mem_of_mem_drop hc)

/-- The digits stand behind the point, after `k` zeros. -/
def belowParts (d k : Nat) : Json.NumberParts where
  negative := negative
  whole := ['0']
  fraction := List.replicate k '0' ++ numeral d
  power := none
  whole_ne_nil := List.cons_ne_nil _ _
  isDigit_whole := List.forall_mem_singleton.mpr (by decide)
  whole_zero := fun _ => rfl
  isDigit_fraction := fun _ hc => by
    rcases List.mem_append.mp hc with hzero | hdigit
    · exact isDigit_of_mem_zeros hzero
    · exact isDigit_of_mem_numeral hdigit

/-- The digits stand before the point, with `k` zeros behind them, and a zero behind
    the point. -/
def aboveParts (k : Nat) : Json.NumberParts where
  negative := negative
  whole := numeral d ++ List.replicate k '0'
  fraction := ['0']
  power := none
  whole_ne_nil := by simp [numeral_ne_nil]
  isDigit_whole := fun _ hc => by
    rcases List.mem_append.mp hc with hdigit | hzero
    · exact isDigit_of_mem_numeral hdigit
    · exact isDigit_of_mem_zeros hzero
  whole_zero := fun hzero => by
    rw [List.head?_append_of_ne_nil _ (numeral_ne_nil d)] at hzero
    exact absurd hzero (head?_numeral_ne_zero hd.ne')
  isDigit_fraction := List.forall_mem_singleton.mpr (by decide)

theorem ofDecimal_splitParts (f : BinaryFormat) {k : Nat} (hk : 0 < k)
    (hle : k ≤ (numeral d).length) (power : Option Int) :
    f.ofDecimal negative (splitParts negative hd hk power).digits
        (splitParts negative hd hk power).exponent
      = f.ofDecimal negative d (power.getD 0 + k - (numeral d).length) := by
  have hdigits : (splitParts negative hd hk power).digits = d := by
    simp [Json.NumberParts.digits, splitParts, value_numeral]
  rw [hdigits]
  congr 1
  simp only [Json.NumberParts.exponent, splitParts, List.length_drop]
  omega

theorem ofDecimal_belowParts (f : BinaryFormat) (k : Nat) :
    f.ofDecimal negative (belowParts negative d k).digits (belowParts negative d k).exponent
      = f.ofDecimal negative d (-(k + (numeral d).length : Nat)) := by
  have hdigits : (belowParts negative d k).digits = d := by
    rw [Json.NumberParts.digits, belowParts, List.singleton_append, ← List.cons_append,
      ← List.replicate_succ, value_zeros_append, value_numeral]
  rw [hdigits]
  simp [Json.NumberParts.exponent, belowParts]

theorem ofDecimal_aboveParts (f : BinaryFormat) (k : Nat) :
    f.ofDecimal negative (aboveParts negative hd k).digits (aboveParts negative hd k).exponent
      = f.ofDecimal negative d k := by
  have hdigits : (aboveParts negative hd k).digits = d * 10 ^ (k + 1) := by
    have hzeros : List.replicate k '0' ++ ['0'] = List.replicate (k + 1) '0' :=
      List.replicate_succ'.symm
    rw [Json.NumberParts.digits, aboveParts, List.append_assoc, hzeros, value_append_zeros,
      value_numeral]
  have hexponent : (aboveParts negative hd k).exponent = -1 := rfl
  rw [hdigits, hexponent, ofDecimal_mul_pow f negative hd]
  congr 1
  omega

/-! ### The layouts -/

/-- The layout with a point, and a zero where nothing stands behind it. -/
def pointed (parts : List Char × List Char) : List Char :=
  parts.1 ++ '.' :: if parts.2.isEmpty then ['0'] else parts.2

include hd in
theorem exists_parts_positional (e : Int) :
    ∃ p : Json.NumberParts,
      p.chars = Binary.signChars negative ++
        pointed (positional (numeral d) ((numeral d).length + e)) ∧
      p.negative = negative ∧
      ∀ f : BinaryFormat, f.ofDecimal negative p.digits p.exponent = f.ofDecimal negative d e := by
  rw [positional]
  split
  · -- the digits stand behind the point
    rename_i hpoint
    refine ⟨belowParts negative d (-((numeral d).length + e)).toNat, ?_, rfl, fun f => ?_⟩
    · simp [Json.NumberParts.chars, Json.NumberParts.fractionChars, Json.NumberParts.powerChars,
        belowParts, pointed, numeral_ne_nil]
    · rw [ofDecimal_belowParts]
      congr 1
      omega
  rename_i hpoint
  split
  · -- the digits stand before it
    rename_i hlength
    obtain ⟨k, rfl⟩ : ∃ k : Nat, e = k := ⟨e.toNat, by omega⟩
    have hzeros : ((numeral d).length + (k : Int)).toNat - (numeral d).length = k := by omega
    refine ⟨aboveParts negative hd k, ?_, rfl, fun f => ofDecimal_aboveParts negative hd f k⟩
    rw [hzeros]
    simp [Json.NumberParts.chars, Json.NumberParts.fractionChars, Json.NumberParts.powerChars,
      aboveParts, pointed]
  · -- it splits them
    rename_i hlength
    have hk : 0 < ((numeral d).length + e).toNat := by omega
    refine ⟨splitParts negative hd hk none, ?_, rfl, fun f => ?_⟩
    · have hne : (numeral d).drop ((numeral d).length + e).toNat ≠ [] := by
        rw [ne_eq, List.drop_eq_nil_iff]
        omega
      simp [Json.NumberParts.chars, Json.NumberParts.fractionChars, Json.NumberParts.powerChars,
        splitParts, pointed, hne]
    · rw [ofDecimal_splitParts negative hd f hk (by omega)]
      congr 1
      simp only [Option.getD_none]
      omega

end

/-- A binary32 value is written as a number that denotes it. -/
theorem denotes_jsonText {m : Nat} {e : Int} (hc : binary32.Canonical m e) (negative : Bool) :
    Json.Denotes (Binary.finite negative m e).jsonText (.finite negative m e) := by
  rw [Binary.jsonText]
  split
  · -- zero has one exponent only, the least
    rename_i hm
    subst hm
    have hleast : e = binary32.minExponent := hc.full (by decide)
    have hread := (belowParts negative 0 0).denotes
    rw [show (belowParts negative 0 0).negative = negative from rfl, ofDecimal_belowParts,
      ofDecimal, if_pos rfl, ← hleast] at hread
    have htext : (belowParts negative 0 0).chars = Binary.signChars negative ++ ['0', '.', '0'] := by
      simp [Json.NumberParts.chars, Json.NumberParts.fractionChars, Json.NumberParts.powerChars,
        belowParts, numeral_zero]
    rwa [htext] at hread
  rename_i hm
  have hreads := shortest_reads (Nat.pos_of_ne_zero hm) hc negative
  have hd := shortest_digits_pos (Nat.pos_of_ne_zero hm) hc
  generalize shortest m e = s at hreads hd
  dsimp only
  split
  · obtain ⟨p, hchars, hsign, hvalue⟩ := exists_parts_positional negative hd s.exponent
    have hread := p.denotes
    rw [hsign, hvalue, hreads, hchars] at hread
    simpa only [pointed, List.append_assoc] using hread
  · have hlength := length_numeral_pos s.digits
    have hread := (splitParts negative hd Nat.one_pos
      (some ((numeral s.digits).length + s.exponent - 1))).denotes
    have hexponent : ((numeral s.digits).length + s.exponent - 1) + ((1 : Nat) : Int)
        - (numeral s.digits).length = s.exponent := by omega
    rw [show (splitParts negative hd _ _).negative = negative from rfl,
      ofDecimal_splitParts negative hd binary32 Nat.one_pos hlength, Option.getD_some, hexponent,
      hreads] at hread
    have htail : (numeral s.digits).length = 1 ↔ (numeral s.digits).drop 1 = [] := by
      rw [List.drop_eq_nil_iff]
      omega
    simpa [Json.NumberParts.chars, Json.NumberParts.fractionChars, Json.NumberParts.powerChars,
      splitParts, htail] using hread

end Decimal

end Datebook
