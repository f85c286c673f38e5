/-
  Datebook/Proofs/Decimal/Shortest.lean
  =====================================
  **Nine digits read back.**

  For every positive binary32 value `x = m · 2^e` one of the decimals that
  `shortest` tries reads back as `x`, so it always finds one.  It is enough to look
  at nine digits, cut off: if `10^k` is the place of the ninth digit, then

      10^k · 10^8 ≤ x < 2^24 · 2^e,

  so what was cut off is less than `10^k < 2^e / 4`, and `roundRatio_below` applies.

  Dropping zeros from the end of the digits changes the decimal but not the number,
  hence not what it reads as (`ofDecimal_mul_ten`).
-/
import Datebook.Decimal.Shortest
import Datebook.Proofs.Decimal.Rounding
import Datebook.Proofs.Text.Padded

namespace Datebook.Decimal

open Datebook.Text Datebook.BinaryFormat

/-! ### Powers of ten -/

theorem ten_zpow_pos (k : Int) : (0 : ℚ) < 10 ^ k := zpow_pos (by norm_num) k

theorem scaleTen_den_pos (a : Nat) (k : Int) : 0 < (scaleTen a k).2 := by
  rw [scaleTen]
  split
  · exact Nat.one_pos
  · exact Nat.pow_pos (by decide)

theorem scaleTen_num_pos {a : Nat} (ha : 0 < a) (k : Int) : 0 < (scaleTen a k).1 := by
  rw [scaleTen]
  split
  · exact Nat.mul_pos ha (Nat.pow_pos (by decide))
  · exact ha

/-- The quotient that stands for `a · 10^k` has this value. -/
theorem scaleTen_div (a : Nat) (k : Int) :
    ((scaleTen a k).1 : ℚ) / (scaleTen a k).2 = a * 10 ^ k := by
  rw [scaleTen]
  split
  · rename_i h
    obtain ⟨j, rfl⟩ := Int.eq_ofNat_of_zero_le h
    simp
  · rename_i h
    obtain ⟨j, rfl⟩ : ∃ j : Nat, k = -j := ⟨(-k).toNat, by omega⟩
    simp [div_eq_mul_inv]

/-! ### Lengths of numerals -/

theorem length_numeral (n : Nat) : (numeral n).length = (reversedDigits n).length := by
  simp [numeral]

theorem length_numeral_pos (n : Nat) : 0 < (numeral n).length :=
  List.length_pos_iff.mpr (numeral_ne_nil n)

theorem lt_pow_length_numeral (n : Nat) : n < 10 ^ (numeral n).length := by
  have h := value_lt fun c (hc : c ∈ numeral n) => isDigit_of_mem_numeral hc
  rwa [value_numeral] at h

theorem pow_length_numeral_le {n : Nat} (hn : 0 < n) : 10 ^ ((numeral n).length - 1) ≤ n := by
  by_contra hlt
  rcases Nat.eq_zero_or_pos ((numeral n).length - 1) with hone | hmore
  · rw [hone, Nat.pow_zero] at hlt
    omega
  · have hle := length_reversedDigits_le hmore (not_le.mp hlt)
    rw [← length_numeral] at hle
    omega

theorem length_numeral_mul_ten {n : Nat} (hn : 0 < n) :
    (numeral (n * 10)).length = (numeral n).length + 1 := by
  have hdiv : n * 10 / 10 = n := by omega
  rw [length_numeral, length_numeral, reversedDigits, if_neg (by omega), List.length_cons, hdiv]

/-! ### Reading decimals -/

/-- Between the cut-offs a decimal is rounded as the number that it denotes. -/
theorem ofDecimal_eq (f : BinaryFormat) (negative : Bool) {d : Nat} (hd : 0 < d) (k : Int) :
    f.ofDecimal negative d k =
      if 400 < ((numeral d).length : Int) + k then .infinite negative
      else if ((numeral d).length : Int) + k < -400 then .finite negative 0 f.minExponent
      else f.roundRatio negative (scaleTen d k).1 (scaleTen d k).2 := by
  simp only [ofDecimal, if_neg hd.ne', scaleTen]
  split
  · rfl
  · split
    · rfl
    · split <;> rfl

theorem ofDecimal_mul_ten (f : BinaryFormat) (negative : Bool) {d : Nat} (hd : 0 < d) (k : Int) :
    f.ofDecimal negative (d * 10) k = f.ofDecimal negative d (k + 1) := by
  have hplaces : ((numeral (d * 10)).length : Int) + k = (numeral d).length + (k + 1) := by
    rw [length_numeral_mul_ten hd]
    omega
  have hvalue : ((scaleTen (d * 10) k).1 : ℚ) / (scaleTen (d * 10) k).2
      = (scaleTen d (k + 1)).1 / (scaleTen d (k + 1)).2 := by
    rw [scaleTen_div, scaleTen_div, zpow_add_one₀ (by norm_num)]
    push_cast
    ring
  rw [ofDecimal_eq f negative (by omega), ofDecimal_eq f negative hd, hplaces,
    roundRatio_congr f negative (scaleTen_den_pos _ _) (scaleTen_den_pos _ _) hvalue]

theorem ofDecimal_mul_pow (f : BinaryFormat) (negative : Bool) {d : Nat} (hd : 0 < d) (k : Int)
    (j : Nat) : f.ofDecimal negative (d * 10 ^ j) k = f.ofDecimal negative d (k + j) := by
  induction j generalizing k with
  | zero => simp
  | succ j ih =>
    have hpos : 0 < d * 10 ^ j := Nat.mul_pos hd (Nat.pow_pos (by decide))
    rw [Nat.pow_succ, ← Nat.mul_assoc, ofDecimal_mul_ten f negative hpos, ih]
    congr 1
    push_cast
    ring

theorem ofDecimal_sign {f : BinaryFormat} {d m : Nat} {k e : Int}
    (h : f.ofDecimal false d k = .finite false m e) (negative : Bool) :
    f.ofDecimal negative d k = .finite negative m e := by
  rcases Nat.eq_zero_or_pos d with rfl | hd
  · simp only [ofDecimal, if_true, Binary.finite.injEq, true_and] at h ⊢
    exact h
  · rw [ofDecimal_eq f _ hd] at h ⊢
    split
    · rename_i hlarge
      rw [if_pos hlarge] at h
      cases h
    · rename_i hlarge
      rw [if_neg hlarge] at h
      split
      · rename_i hsmall
        rw [if_pos hsmall] at h
        cases h
        rfl
      · rename_i hsmall
        rw [if_neg hsmall] at h
        exact roundRatio_sign h negative

theorem ofDecimal_normal (f : BinaryFormat) (negative : Bool) (s : Scientific) (fuel : Nat) :
    f.ofDecimal negative (s.normal fuel).digits (s.normal fuel).exponent
      = f.ofDecimal negative s.digits s.exponent := by
  induction fuel generalizing s with
  | zero => rfl
  | succ fuel ih =>
    rw [Scientific.normal]
    split
    · rename_i h
      have hpos : 0 < s.digits / 10 := by omega
      have hback : s.digits / 10 * 10 = s.digits := by omega
      rw [ih, ← ofDecimal_mul_ten f negative hpos, hback]
    · rfl

/-! ### The first digit -/

theorem tensUpTo_spec {num den fuel : Nat} (h : den ≤ num * 10 ^ fuel) :
    den ≤ num * 10 ^ tensUpTo num den fuel := by
  induction fuel generalizing num with
  | zero => exact h
  | succ fuel ih =>
    rw [tensUpTo]
    split
    · rename_i hle
      simpa using hle
    · rw [Nat.pow_succ, Nat.mul_comm (10 ^ fuel), ← Nat.mul_assoc] at h
      have := ih h
      rw [Nat.pow_succ, Nat.mul_comm (10 ^ _), ← Nat.mul_assoc]
      exact this

theorem ten_zpow_decade_le {num den : Nat} (hnum : 0 < num) (hden : 0 < den) :
    (10 : ℚ) ^ decade num den ≤ num / den := by
  have hden' : (0 : ℚ) < den := by exact_mod_cast hden
  rw [le_div_iff₀ hden', decade]
  split
  · rename_i hle
    have hq : 0 < num / den := Nat.div_pos hle hden
    have hpow := pow_length_numeral_le hq
    have hlength := length_numeral_pos (num / den)
    have hexponent : ((numeral (num / den)).length : Int) - 1
        = ((numeral (num / den)).length - 1 : Nat) := by omega
    rw [hexponent, zpow_natCast]
    exact_mod_cast (Nat.mul_le_mul_right den hpow).trans (Nat.div_mul_le_self num den)
  · have hfuel : den ≤ num * 10 ^ (numeral den).length :=
      (lt_pow_length_numeral den).le.trans (Nat.le_mul_of_pos_left _ hnum)
    have hspec : (den : ℚ) ≤ num * 10 ^ tensUpTo num den (numeral den).length := by
      exact_mod_cast tensUpTo_spec hfuel
    rw [zpow_neg, zpow_natCast, inv_mul_le_iff₀ (by positivity), mul_comm]
    exact hspec

/-! ### The tries -/

theorem reads_of_candidate? {target : Binary} {num den places : Nat} {s : Scientific}
    (h : candidate? target num den places = some s) :
    binary32.ofDecimal false s.digits s.exponent = target := by
  simp only [candidate?] at h
  split at h
  · rename_i hlow hhigh
    cases h
    split
    · exact beq_iff_eq.mp hlow
    · exact beq_iff_eq.mp hhigh
  · rename_i hlow _
    cases h
    exact beq_iff_eq.mp hlow
  · rename_i _ hhigh
    cases h
    exact beq_iff_eq.mp hhigh
  · cases h

theorem candidate?_ne_none {target : Binary} {num den places d : Nat}
    (hd : num * (scaleTen den (decade num den - (places : Int) + 1)).2
      / (scaleTen den (decade num den - (places : Int) + 1)).1 = d)
    (h : binary32.ofDecimal false d (decade num den - (places : Int) + 1) = target) :
    candidate? target num den places ≠ none := by
  subst hd
  simp only [candidate?, h, beq_self_eq_true]
  split <;> simp_all

/-- The digits that are left when a quotient is cut off at the place `10 ^ k`. -/
theorem cut_bounds (num : Nat) {den : Nat} (hden : 0 < den) (k : Int) :
    ((num * (scaleTen den k).2 / (scaleTen den k).1 : Nat) : ℚ) * 10 ^ k ≤ num / den ∧
      (num : ℚ) / den
        < ((num * (scaleTen den k).2 / (scaleTen den k).1 : Nat) + 1) * 10 ^ k := by
  have hp : (0 : ℚ) < (scaleTen den k).1 := by exact_mod_cast scaleTen_num_pos hden k
  have hq : (0 : ℚ) < (scaleTen den k).2 := by exact_mod_cast scaleTen_den_pos den k
  have hden' : (0 : ℚ) < den := by exact_mod_cast hden
  have hten := ten_zpow_pos k
  -- the quotient that is cut off is the number in units of the place
  have hunits : ((num * (scaleTen den k).2 : Nat) : ℚ) / (scaleTen den k).1
      = num / den / 10 ^ k := by
    have hvalue := scaleTen_div den k
    rw [div_eq_iff hq.ne'] at hvalue
    rw [Nat.cast_mul, hvalue]
    field_simp
  rw [← le_div_iff₀ hten, ← div_lt_iff₀ hten, ← hunits]
  constructor
  · rw [le_div_iff₀ hp]
    exact_mod_cast Nat.div_mul_le_self _ _
  · rw [div_lt_iff₀ hp]
    exact_mod_cast (Nat.div_lt_iff_lt_mul (scaleTen_num_pos hden k)).mp (Nat.lt_succ_self _)

/-- A positive binary32 value is at least `2 ^ -149` and less than `2 ^ 128`. -/
theorem binary32_bounds {m : Nat} {e : Int} (hm : 0 < m) (hc : binary32.Canonical m e) :
    (10 : ℚ) ^ (-45 : Int) < m * 2 ^ e ∧ (m : ℚ) * 2 ^ e < 10 ^ (39 : Int) := by
  have hlt : m < 2 ^ 24 := hc.lt
  have hleast : -149 ≤ e := hc.least
  have hfits : e + 24 ≤ 128 := hc.fits
  have hpos := two_zpow_pos e
  constructor
  · calc (10 : ℚ) ^ (-45 : Int) < 1 * 2 ^ (-149 : Int) := by norm_num
      _ ≤ m * 2 ^ e :=
        mul_le_mul (by exact_mod_cast hm) (zpow_le_zpow_right₀ (by norm_num) hleast)
          (two_zpow_pos _).le (Nat.cast_nonneg m)
  · calc (m : ℚ) * 2 ^ e < 2 ^ 24 * 2 ^ e :=
          mul_lt_mul_of_pos_right (by exact_mod_cast hlt) hpos
      _ ≤ 2 ^ 24 * 2 ^ (104 : Int) :=
        mul_le_mul_of_nonneg_left (zpow_le_zpow_right₀ (by norm_num) (by omega)) (by norm_num)
      _ < 10 ^ (39 : Int) := by norm_num

/-- Nine digits, cut off, read back. -/
theorem ofDecimal_nine {m d : Nat} {e k : Int} (hm : 0 < m) (hc : binary32.Canonical m e)
    (hplace : (10 : ℚ) ^ k * 10 ^ 8 ≤ m * 2 ^ e) (hlow : (d : ℚ) * 10 ^ k ≤ m * 2 ^ e)
    (hhigh : (m : ℚ) * 2 ^ e < (d + 1) * 10 ^ k) :
    binary32.ofDecimal false d k = .finite false m e := by
  have hpos := two_zpow_pos e
  have hten := ten_zpow_pos k
  have hlt : (m : ℚ) < 2 ^ 24 := by exact_mod_cast hc.lt
  obtain ⟨hleast, hmost⟩ := binary32_bounds hm hc
  -- what is cut off is less than a quarter of the last binary place
  have hquarter : (10 : ℚ) ^ k < 2 ^ e / 4 := by
    have := mul_lt_mul_of_pos_right hlt hpos
    norm_num at this hplace
    linarith
  have hd : 0 < d := by
    rw [Nat.pos_iff_ne_zero]
    rintro rfl
    rw [Nat.cast_zero, zero_add, one_mul] at hhigh
    linarith
  -- the places of the decimal lie between the cut-offs
  have hplaces : ((numeral d).length : Int) + k ≤ 39 := by
    have hlength := length_numeral_pos d
    have hpow : (10 : ℚ) ^ ((numeral d).length - 1) ≤ d := by
      exact_mod_cast pow_length_numeral_le hd
    have hsmall : (10 : ℚ) ^ ((((numeral d).length - 1 : Nat) : Int) + k) < 10 ^ (39 : Int) := by
      rw [zpow_add₀ (by norm_num), zpow_natCast]
      exact ((mul_le_mul_of_nonneg_right hpow hten.le).trans hlow).trans_lt hmost
    rw [zpow_lt_zpow_iff_right₀ (by norm_num)] at hsmall
    omega
  have hplaces' : -45 < ((numeral d).length : Int) + k := by
    have hpow : (d : ℚ) + 1 ≤ 10 ^ (numeral d).length := by
      exact_mod_cast lt_pow_length_numeral d
    have hlarge : (10 : ℚ) ^ (-45 : Int) < 10 ^ (((numeral d).length : Int) + k) := by
      rw [zpow_add₀ (by norm_num) ((numeral d).length : Int), zpow_natCast]
      exact (hleast.trans hhigh).trans_le (mul_le_mul_of_nonneg_right hpow hten.le)
    rwa [zpow_lt_zpow_iff_right₀ (by norm_num)] at hlarge
  rw [ofDecimal_eq _ _ hd, if_neg (by omega), if_neg (by omega)]
  apply roundRatio_below (by decide) hc (scaleTen_num_pos hd k) (scaleTen_den_pos d k)
  · rw [scaleTen_div]
    linarith
  · rwa [scaleTen_div]

/-! ### The shortest decimal -/

theorem shortest_reads {m : Nat} {e : Int} (hm : 0 < m) (hc : binary32.Canonical m e)
    (negative : Bool) :
    binary32.ofDecimal negative (shortest m e).digits (shortest m e).exponent
      = .finite negative m e := by
  apply ofDecimal_sign
  have hnum : 0 < (scale m e).1 := scale_num_pos hm e
  have hden := scale_den_pos m e
  have hvalue := scale_div m e
  simp only [shortest]
  split
  · -- every decimal that is found reads back, and so does its normal form
    rename_i s hs
    obtain ⟨i, -, hi⟩ := List.exists_of_findSome?_eq_some hs
    rw [ofDecimal_normal]
    exact reads_of_candidate? hi
  · -- the ninth try finds one
    rename_i hnone
    refine absurd (List.findSome?_eq_none_iff.mp hnone 8 (by decide)) ?_
    obtain ⟨hlow, hhigh⟩ := cut_bounds (scale m e).1 hden
      (decade (scale m e).1 (scale m e).2 - ((8 + 1 : Nat) : Int) + 1)
    have hdecade := ten_zpow_decade_le hnum hden
    rw [hvalue] at hlow hhigh hdecade
    refine candidate?_ne_none rfl (ofDecimal_nine hm hc ?_ hlow hhigh)
    rw [← zpow_natCast, ← zpow_add₀ (by norm_num)]
    refine le_of_eq_of_le ?_ hdecade
    congr 1
    push_cast
    ring

theorem shortest_digits_pos {m : Nat} {e : Int} (hm : 0 < m) (hc : binary32.Canonical m e) :
    0 < (shortest m e).digits := by
  have hreads := shortest_reads hm hc false
  rw [Nat.pos_iff_ne_zero]
  intro hzero
  rw [hzero, ofDecimal, if_pos rfl] at hreads
  cases hreads
  exact hm.ne' rfl

end Datebook.Decimal
