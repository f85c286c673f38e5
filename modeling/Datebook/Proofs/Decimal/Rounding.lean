/-
  Datebook/Proofs/Decimal/Rounding.lean
  =====================================
  **Rounding to a binary format**, as arithmetic on rational numbers.

  The exponent of a rounded quotient is found from the lengths of numerator and
  denominator; it is the one that the size of the quotient asks for
  (`exponentFor_eq`).  So rounding depends on the rational number only, and not on
  the quotient that stands for it (`roundRatio_congr`).

  What rounding gives is written in the one way that a format has for it
  (`Canonical`): the mantissa is full, unless the exponent is the least one.

  A number that lies below a value of the format, by less than a quarter of the
  last place, is rounded to that value (`roundRatio_below`).  A quarter, and not a
  half, since below a power of two the places are half as wide.
-/
import Datebook.Proofs.Decimal.Value
import Mathlib.Tactic.Linarith
import Mathlib.Tactic.Ring

namespace Datebook.BinaryFormat

/-! ### The size of a quotient -/

/-- The number is at least half of `2 ^ t` and less than it. -/
def HasSize (x : ℚ) (t : Int) : Prop := 2 ^ (t - 1) ≤ x ∧ x < 2 ^ t

theorem HasSize.unique {x : ℚ} {t u : Int} (ht : HasSize x t) (hu : HasSize x u) : t = u := by
  have hlt : (2 : ℚ) ^ (t - 1) < 2 ^ u := ht.1.trans_lt hu.2
  have hlt' : (2 : ℚ) ^ (u - 1) < 2 ^ t := hu.1.trans_lt ht.2
  rw [zpow_lt_zpow_iff_right₀ (by norm_num)] at hlt hlt'
  omega

theorem two_zpow_pos (e : Int) : (0 : ℚ) < 2 ^ e := zpow_pos (by norm_num) e

theorem two_zpow_succ (e : Int) : (2 : ℚ) ^ (e + 1) = 2 * 2 ^ e := by
  rw [zpow_add_one₀ (by norm_num), mul_comm]

/-- The lengths in binary digits give the size of a quotient up to one. -/
theorem log2_bounds {num den : Nat} (hnum : 0 < num) (hden : 0 < den) :
    (2 : ℚ) ^ ((Nat.log2 num : Int) - Nat.log2 den - 1) ≤ num / den ∧
      (num : ℚ) / den < 2 ^ ((Nat.log2 num : Int) - Nat.log2 den + 1) := by
  have hlow : (2 : ℚ) ^ (Nat.log2 num) ≤ num := by exact_mod_cast Nat.log2_self_le hnum.ne'
  have hhigh : (num : ℚ) < 2 ^ (Nat.log2 num + 1) := by exact_mod_cast Nat.lt_log2_self
  have hlow' : (2 : ℚ) ^ (Nat.log2 den) ≤ den := by exact_mod_cast Nat.log2_self_le hden.ne'
  have hhigh' : (den : ℚ) < 2 ^ (Nat.log2 den + 1) := by exact_mod_cast Nat.lt_log2_self
  have hdenPos : (0 : ℚ) < den := by exact_mod_cast hden
  generalize Nat.log2 num = a at *
  generalize Nat.log2 den = b at *
  constructor
  · rw [le_div_iff₀ hdenPos]
    calc (2 : ℚ) ^ ((a : Int) - b - 1) * den
        ≤ 2 ^ ((a : Int) - b - 1) * 2 ^ (b + 1) :=
          mul_le_mul_of_nonneg_left hhigh'.le (two_zpow_pos _).le
      _ = 2 ^ a := by
          rw [← zpow_natCast, ← zpow_natCast, ← zpow_add₀ (by norm_num)]
          congr 1
          push_cast
          ring
      _ ≤ num := hlow
  · rw [div_lt_iff₀ hdenPos]
    calc (num : ℚ) < 2 ^ (a + 1) := hhigh
      _ = 2 ^ ((a : Int) - b + 1) * 2 ^ b := by
          rw [← zpow_natCast, ← zpow_natCast, ← zpow_add₀ (by norm_num)]
          congr 1
          push_cast
          ring
      _ ≤ 2 ^ ((a : Int) - b + 1) * den := mul_le_mul_of_nonneg_left hlow' (two_zpow_pos _).le

theorem scale_le_iff (num den : Nat) (hden : 0 < den) (k : Int) :
    (scale den k).1 ≤ num * (scale den k).2 ↔ (2 : ℚ) ^ k ≤ num / den := by
  have hden' : (0 : ℚ) < den := by exact_mod_cast hden
  have hscale : (0 : ℚ) < (scale den k).2 := by exact_mod_cast scale_den_pos den k
  have hvalue := scale_div den k
  rw [div_eq_iff hscale.ne'] at hvalue
  rw [← Nat.cast_le (α := ℚ), Nat.cast_mul, hvalue, mul_le_mul_iff_left₀ hscale,
    le_div_iff₀ hden', mul_comm]

theorem exponentFor_eq (f : BinaryFormat) {num den : Nat} (hnum : 0 < num) (hden : 0 < den)
    {t : Int} (ht : HasSize (num / den) t) :
    f.exponentFor num den = max (t - f.precision) f.minExponent := by
  obtain ⟨hlow, hhigh⟩ := log2_bounds hnum hden
  have hfull := scale_le_iff num den hden ((Nat.log2 num : Int) - Nat.log2 den)
  have hmax : ∀ e : Int, (if e < f.minExponent then f.minExponent else e) = max e f.minExponent := by
    intro e
    rw [max_def]
    split <;> split <;> omega
  simp only [exponentFor, hmax]
  generalize (Nat.log2 num : Int) - Nat.log2 den = k at *
  split
  · rename_i hle
    have hsize : HasSize (num / den) (k + 1) := ⟨by simpa using hfull.mp hle, hhigh⟩
    rw [hsize.unique ht]
  · rename_i hle
    have hsize : HasSize (num / den) k := ⟨hlow, lt_of_not_ge fun h => hle (hfull.mpr h)⟩
    rw [hsize.unique ht]

theorem exists_hasSize {num den : Nat} (hnum : 0 < num) (hden : 0 < den) :
    ∃ t, HasSize ((num : ℚ) / den) t := by
  obtain ⟨hlow, hhigh⟩ := log2_bounds hnum hden
  by_cases h : (2 : ℚ) ^ ((Nat.log2 num : Int) - Nat.log2 den) ≤ num / den
  · exact ⟨_, by simpa using h, hhigh⟩
  · exact ⟨_, hlow, lt_of_not_ge h⟩

/-! ### The nearest natural number -/

theorem roundQuotient_bounds (a : Nat) {b : Nat} (hb : 0 < b) :
    2 * (roundQuotient a b * b) ≤ 2 * a + b ∧ 2 * a ≤ 2 * (roundQuotient a b * b) + b := by
  have hdiv : a / b * b + a % b = a := by rw [Nat.mul_comm, Nat.div_add_mod]
  have hmod := Nat.mod_lt a hb
  have hsucc : (a / b + 1) * b = a / b * b + b := Nat.succ_mul _ _
  rw [roundQuotient]
  split
  · omega
  · split
    · omega
    · split <;> omega

/-- The nearest natural number is at most a half away. -/
theorem roundQuotient_near (a : Nat) {b : Nat} (hb : 0 < b) :
    (a : ℚ) / b - 1 / 2 ≤ roundQuotient a b ∧ (roundQuotient a b : ℚ) ≤ a / b + 1 / 2 := by
  have hb' : (0 : ℚ) < b := by exact_mod_cast hb
  obtain ⟨hle, hge⟩ := roundQuotient_bounds a hb
  have hle' : (2 : ℚ) * (roundQuotient a b * b) ≤ 2 * a + b := by exact_mod_cast hle
  have hge' : (2 : ℚ) * a ≤ 2 * (roundQuotient a b * b) + b := by exact_mod_cast hge
  constructor
  · rw [sub_le_iff_le_add, div_le_iff₀ hb']
    linarith
  · rw [← sub_le_iff_le_add, le_div_iff₀ hb']
    linarith

/-- A natural number less than a half away is the nearest one. -/
theorem roundQuotient_eq {a b n : Nat} (hb : 0 < b) (hlow : (n : ℚ) - 1 / 2 < a / b)
    (hhigh : (a : ℚ) / b < n + 1 / 2) : roundQuotient a b = n := by
  obtain ⟨hge, hle⟩ := roundQuotient_near a hb
  have hlt : (roundQuotient a b : ℚ) < n + 1 := by linarith
  have hgt : (n : ℚ) < roundQuotient a b + 1 := by linarith
  have hlt' : roundQuotient a b < n + 1 := by exact_mod_cast hlt
  have hgt' : n < roundQuotient a b + 1 := by exact_mod_cast hgt
  omega

theorem roundQuotient_mul {c : Nat} (hc : 0 < c) (a b : Nat) :
    roundQuotient (c * a) (c * b) = roundQuotient a b := by
  have hlt : 2 * (c * (a % b)) < c * b ↔ 2 * (a % b) < b := by
    rw [Nat.mul_left_comm, Nat.mul_lt_mul_left hc]
  have hgt : c * b < 2 * (c * (a % b)) ↔ b < 2 * (a % b) := by
    rw [Nat.mul_left_comm, Nat.mul_lt_mul_left hc]
  simp only [roundQuotient, Nat.mul_div_mul_left _ _ hc, Nat.mul_mod_mul_left, hlt, hgt]

theorem roundQuotient_congr {a b c d : Nat} (hb : 0 < b) (hd : 0 < d)
    (h : (a : ℚ) / b = c / d) : roundQuotient a b = roundQuotient c d := by
  have hb' : (b : ℚ) ≠ 0 := by exact_mod_cast hb.ne'
  have hd' : (d : ℚ) ≠ 0 := by exact_mod_cast hd.ne'
  rw [div_eq_div_iff hb' hd'] at h
  have hcross : a * d = c * b := by exact_mod_cast h
  calc roundQuotient a b = roundQuotient (d * a) (d * b) := (roundQuotient_mul hd a b).symm
    _ = roundQuotient (b * c) (b * d) := by rw [Nat.mul_comm d a, hcross, Nat.mul_comm c b,
        Nat.mul_comm d b]
    _ = roundQuotient c d := roundQuotient_mul hb c d

/-! ### Rounding a quotient -/

theorem scale_num_pos {a : Nat} (ha : 0 < a) (e : Int) : 0 < (scale a e).1 := by
  rw [scale]
  split
  · exact Nat.mul_pos ha (Nat.pow_pos (by decide))
  · exact ha

/-- What is rounded to a natural number is the quotient in units of the last place. -/
theorem scaled_div {den : Nat} (hden : 0 < den) (num : Nat) (e : Int) :
    ((num * (scale den e).2 : Nat) : ℚ) / (scale den e).1 = num / den / 2 ^ e := by
  have hden' : (den : ℚ) ≠ 0 := by exact_mod_cast hden.ne'
  have hnum' : ((scale den e).1 : ℚ) ≠ 0 := by exact_mod_cast (scale_num_pos hden e).ne'
  have hscale' : ((scale den e).2 : ℚ) ≠ 0 := by exact_mod_cast (scale_den_pos den e).ne'
  have hvalue := scale_div den e
  rw [div_eq_iff hscale'] at hvalue
  rw [Nat.cast_mul, hvalue]
  have htwo := (two_zpow_pos e).ne'
  field_simp

/-- Mantissa and exponent before it is asked whether they fit. -/
def roundedParts (f : BinaryFormat) (num den : Nat) : Nat × Int :=
  let e := f.exponentFor num den
  let m := roundQuotient (num * (scale den e).2) (scale den e).1
  if m = 2 ^ f.precision then (2 ^ (f.precision - 1), e + 1) else (m, e)

theorem roundRatio_eq (f : BinaryFormat) (negative : Bool) {num : Nat} (hnum : 0 < num)
    (den : Nat) :
    f.roundRatio negative num den =
      if f.maxExponent < (f.roundedParts num den).2 + f.precision then .infinite negative
      else .finite negative (f.roundedParts num den).1 (f.roundedParts num den).2 := by
  rw [roundRatio, if_neg hnum.ne']
  rfl

theorem roundRatio_congr (f : BinaryFormat) (negative : Bool) {a b c d : Nat} (hb : 0 < b)
    (hd : 0 < d) (h : (a : ℚ) / b = c / d) :
    f.roundRatio negative a b = f.roundRatio negative c d := by
  have hb' : (b : ℚ) ≠ 0 := by exact_mod_cast hb.ne'
  have hd' : (d : ℚ) ≠ 0 := by exact_mod_cast hd.ne'
  rcases Nat.eq_zero_or_pos a with rfl | ha
  · have hc : c = 0 := by
      rw [Nat.cast_zero, zero_div, eq_comm, div_eq_zero_iff] at h
      exact_mod_cast h.resolve_right hd'
    simp [roundRatio, hc]
  · have hc : 0 < c := by
      rw [Nat.pos_iff_ne_zero]
      rintro rfl
      rw [Nat.cast_zero, zero_div, div_eq_zero_iff] at h
      exact ha.ne' (by exact_mod_cast h.resolve_right hb')
    obtain ⟨t, ht⟩ := exists_hasSize ha hb
    have hexponent : f.exponentFor a b = f.exponentFor c d := by
      rw [exponentFor_eq f ha hb ht, exponentFor_eq f hc hd (h ▸ ht)]
    have hparts : f.roundedParts a b = f.roundedParts c d := by
      simp only [roundedParts, hexponent]
      rw [roundQuotient_congr (scale_num_pos hb _) (scale_num_pos hd _)
        (by rw [scaled_div hb, scaled_div hd, h])]
    rw [roundRatio_eq f negative ha, roundRatio_eq f negative hc, hparts]

/-- The sign is carried along. -/
theorem roundRatio_sign {f : BinaryFormat} {num den m : Nat} {e : Int}
    (h : f.roundRatio false num den = .finite false m e) (negative : Bool) :
    f.roundRatio negative num den = .finite negative m e := by
  rcases Nat.eq_zero_or_pos num with rfl | hnum
  · simp only [roundRatio, if_true, Binary.finite.injEq, true_and] at h ⊢
    exact h
  · rw [roundRatio_eq f _ hnum] at h ⊢
    split at h
    · cases h
    · rename_i hfits
      rw [if_neg hfits]
      cases h
      rfl

theorem roundRatio_ne_nan (f : BinaryFormat) (negative : Bool) (num den : Nat) :
    f.roundRatio negative num den ≠ .nan := by
  rcases Nat.eq_zero_or_pos num with rfl | hnum
  · simp [roundRatio]
  · rw [roundRatio_eq f negative hnum]
    split <;> nofun

theorem round_eq_nan_iff (f : BinaryFormat) (x : Binary) : f.round x = .nan ↔ x = .nan := by
  cases x with
  | nan => simp [round]
  | infinite negative => simp [round]
  | finite negative m e => simp [round, roundRatio_ne_nan]

/-! ### How values are written -/

/-- The one way to write a value of a format: the mantissa is full, or the exponent is
    the least one. -/
structure Canonical (f : BinaryFormat) (m : Nat) (e : Int) : Prop where
  lt : m < 2 ^ f.precision
  least : f.minExponent ≤ e
  full : m < 2 ^ (f.precision - 1) → e = f.minExponent
  fits : e + f.precision ≤ f.maxExponent

/-- The value is one of the format. -/
def Has (f : BinaryFormat) : Binary → Prop
  | .finite _ m e => f.Canonical m e
  | _ => True

section

variable {f : BinaryFormat} (hprecision : 0 < f.precision)

include hprecision

theorem two_pow_pred : (2 : ℚ) ^ f.precision = 2 * 2 ^ (f.precision - 1) := by
  rw [← pow_succ']
  congr 1
  omega

/-- In units of the last place a quotient fills the mantissa, and at least half of it
    unless the exponent is the least one. -/
theorem units_bounds {num den : Nat} (hnum : 0 < num) (hden : 0 < den) :
    (num : ℚ) / den / 2 ^ f.exponentFor num den < 2 ^ f.precision ∧
      (f.exponentFor num den ≠ f.minExponent →
        (2 : ℚ) ^ (f.precision - 1) ≤ num / den / 2 ^ f.exponentFor num den) := by
  obtain ⟨t, ht⟩ := exists_hasSize hnum hden
  have hexponent := exponentFor_eq f hnum hden ht
  have hpos := two_zpow_pos (f.exponentFor num den)
  constructor
  · rw [div_lt_iff₀ hpos, ← zpow_natCast, ← zpow_add₀ (by norm_num)]
    refine ht.2.trans_le (zpow_le_zpow_right₀ (by norm_num) ?_)
    omega
  · intro hne
    rw [le_div_iff₀ hpos, ← zpow_natCast, ← zpow_add₀ (by norm_num)]
    refine (zpow_le_zpow_right₀ (by norm_num) ?_).trans ht.1
    omega

theorem canonical_of_roundRatio (hrange : f.minExponent + f.precision ≤ f.maxExponent)
    {num den m : Nat} {e : Int} {negative negative' : Bool} (hden : 0 < den)
    (h : f.roundRatio negative num den = .finite negative' m e) : f.Canonical m e := by
  rcases Nat.eq_zero_or_pos num with rfl | hnum
  · simp only [roundRatio, if_true, Binary.finite.injEq] at h
    obtain ⟨-, rfl, rfl⟩ := h
    exact ⟨Nat.pow_pos (by decide), le_rfl, fun _ => rfl, hrange⟩
  · obtain ⟨hhigh, hlow⟩ := units_bounds hprecision hnum hden (f := f)
    obtain ⟨t, ht⟩ := exists_hasSize hnum hden
    have hleast : f.minExponent ≤ f.exponentFor num den := by
      rw [exponentFor_eq f hnum hden ht]
      exact le_max_right _ _
    rw [roundRatio_eq f _ hnum] at h
    split at h
    · cases h
    rename_i hfits
    obtain ⟨hnear, hnear'⟩ := roundQuotient_near
      (num * (scale den (f.exponentFor num den)).2) (scale_num_pos hden (f.exponentFor num den))
    rw [scaled_div hden] at hnear hnear'
    simp only [Binary.finite.injEq, roundedParts] at h hfits
    generalize roundQuotient (num * (scale den (f.exponentFor num den)).2)
      (scale den (f.exponentFor num den)).1 = n at *
    have hn : n < 2 ^ f.precision + 1 := by
      have : (n : ℚ) < 2 ^ f.precision + 1 := by linarith
      exact_mod_cast this
    split at h
    · -- the mantissa has run over: half of the power, one exponent higher
      rename_i hover
      rw [if_pos hover] at hfits
      obtain ⟨-, rfl, rfl⟩ := h
      exact ⟨Nat.pow_lt_pow_right (by decide) (by omega), by omega, fun h => absurd h (lt_irrefl _),
        by omega⟩
    · rename_i hover
      rw [if_neg hover] at hfits
      obtain ⟨-, rfl, rfl⟩ := h
      refine ⟨by omega, hleast, fun hsmall => ?_, by omega⟩
      by_contra hne
      have hhalf := hlow hne
      have hfull : 2 ^ (f.precision - 1) < n + 1 := by
        have : (2 : ℚ) ^ (f.precision - 1) < n + 1 := by linarith
        exact_mod_cast this
      omega

theorem has_roundRatio (hrange : f.minExponent + f.precision ≤ f.maxExponent) (negative : Bool)
    (num : Nat) {den : Nat} (hden : 0 < den) : f.Has (f.roundRatio negative num den) := by
  cases h : f.roundRatio negative num den with
  | nan => trivial
  | infinite negative => trivial
  | finite negative m e => exact canonical_of_roundRatio hprecision hrange hden h

/-- Whatever is rounded to a format is a value of it. -/
theorem has_round (hrange : f.minExponent + f.precision ≤ f.maxExponent) (x : Binary) :
    f.Has (f.round x) := by
  cases x with
  | nan => trivial
  | infinite negative => trivial
  | finite negative m e => exact has_roundRatio hprecision hrange negative _ (scale_den_pos m e)

theorem has_ofInt (hrange : f.minExponent + f.precision ≤ f.maxExponent) (n : Int) :
    f.Has (f.ofInt n) :=
  has_roundRatio hprecision hrange _ _ Nat.one_pos

/-- The size of a number just below a value of the format: as for a full mantissa, or
    one less, and then the value is a power of two. -/
theorem size_below {x : ℚ} {t : Int} {m : Nat} {e : Int} (hc : f.Canonical m e)
    (hlow : ((m : ℚ) - 1 / 4) * 2 ^ e < x) (hhigh : x ≤ m * 2 ^ e) (ht : HasSize x t) :
    max (t - f.precision) f.minExponent = e ∨
      (m = 2 ^ (f.precision - 1) ∧ t = e + f.precision - 1 ∧ f.minExponent < e) := by
  have hm : (m : ℚ) < 2 ^ f.precision := by exact_mod_cast hc.lt
  have hpos := two_zpow_pos e
  have hleast := hc.least
  have htop : t ≤ e + f.precision := by
    have hlt : (2 : ℚ) ^ (t - 1) < 2 ^ (e + f.precision) := by
      rw [zpow_add₀ (by norm_num), zpow_natCast, mul_comm]
      exact (ht.1.trans hhigh).trans_lt (mul_lt_mul_of_pos_right hm hpos)
    rw [zpow_lt_zpow_iff_right₀ (by norm_num)] at hlt
    omega
  by_cases hsame : t = e + f.precision ∨ e = f.minExponent
  · left
    omega
  right
  rw [not_or] at hsame
  have hge : (2 : ℚ) ^ (f.precision - 1) ≤ m := by
    exact_mod_cast not_lt.mp fun h => hsame.2 (hc.full h)
  have hone : (1 : ℚ) ≤ 2 ^ (f.precision - 1) := one_le_pow₀ (by norm_num)
  have htopValue : (2 : ℚ) ^ (e + f.precision - 1) = 2 ^ (f.precision - 1) * 2 ^ e := by
    rw [← zpow_natCast, ← zpow_add₀ (by norm_num)]
    congr 1
    omega
  have hbelow : ((m : ℚ) - 1 / 4) * 2 ^ e < 2 ^ (f.precision - 1) * 2 ^ e := by
    refine hlow.trans (ht.2.trans_le ?_)
    rw [← htopValue]
    exact zpow_le_zpow_right₀ (by norm_num) (by omega)
  have hpower : m < 2 ^ (f.precision - 1) + 1 := by
    have hlt := lt_of_mul_lt_mul_right hbelow hpos.le
    have : (m : ℚ) < 2 ^ (f.precision - 1) + 1 := by linarith
    exact_mod_cast this
  have hge' : 2 ^ (f.precision - 1) ≤ m := by exact_mod_cast hge
  have hsize : e + f.precision - 1 ≤ t := by
    have hlt : (2 : ℚ) ^ (e + f.precision - 1 - 1) < 2 ^ t := by
      refine lt_of_le_of_lt ?_ (hlow.trans ht.2)
      have hhalf := two_zpow_succ (e + f.precision - 1 - 1)
      rw [sub_add_cancel, htopValue] at hhalf
      have hscaled := mul_le_mul_of_nonneg_right (show (2 : ℚ) ^ (f.precision - 1) / 2
        ≤ m - 1 / 4 by linarith) hpos.le
      linarith
    rw [zpow_lt_zpow_iff_right₀ (by norm_num)] at hlt
    omega
  omega

/-- A number just below a value of the format, by less than a quarter of the last
    place, is rounded to it. -/
theorem roundRatio_below {num den m : Nat} {e : Int} (hc : f.Canonical m e) (hnum : 0 < num)
    (hden : 0 < den) (hlow : ((m : ℚ) - 1 / 4) * 2 ^ e < num / den)
    (hhigh : (num : ℚ) / den ≤ m * 2 ^ e) (negative : Bool) :
    f.roundRatio negative num den = .finite negative m e := by
  have hpos := two_zpow_pos e
  have hfits := hc.fits
  obtain ⟨t, ht⟩ := exists_hasSize hnum hden
  have hexponent := exponentFor_eq f hnum hden ht
  have hparts : f.roundedParts num den = (m, e) := by
    rcases size_below hprecision hc hlow hhigh ht with he | ⟨hm, hsize, hleast⟩
    · -- the number has the exponent of the value, and the mantissa is the nearest
      rw [he] at hexponent
      have hnear : roundQuotient (num * (scale den e).2) (scale den e).1 = m := by
        apply roundQuotient_eq (scale_num_pos hden e)
        · rw [scaled_div hden, lt_div_iff₀ hpos]
          exact lt_of_le_of_lt (mul_le_mul_of_nonneg_right (by linarith) hpos.le) hlow
        · rw [scaled_div hden, div_lt_iff₀ hpos]
          exact lt_of_le_of_lt hhigh (mul_lt_mul_of_pos_right (by linarith) hpos)
      simp only [roundedParts, hexponent, hnear, if_neg hc.lt.ne]
    · -- below a power of two the places are half as wide, and the mantissa runs over
      have he : f.exponentFor num den = e - 1 := by omega
      have hhalf := two_pow_pred hprecision
      have hmValue : (m : ℚ) = 2 ^ (f.precision - 1) := by exact_mod_cast hm
      have hstep := two_zpow_succ (e - 1)
      have hpos' := two_zpow_pos (e - 1)
      rw [sub_add_cancel] at hstep
      rw [hstep, hmValue] at hlow hhigh
      have hnear : roundQuotient (num * (scale den (e - 1)).2) (scale den (e - 1)).1
          = 2 ^ f.precision := by
        apply roundQuotient_eq (scale_num_pos hden (e - 1))
        · rw [scaled_div hden, lt_div_iff₀ hpos', Nat.cast_pow, Nat.cast_ofNat, hhalf]
          linarith
        · rw [scaled_div hden, div_lt_iff₀ hpos', Nat.cast_pow, Nat.cast_ofNat, hhalf]
          linarith
      simp only [roundedParts, he, hnear, if_true, hm, sub_add_cancel]
  rw [roundRatio_eq f negative hnum, hparts, if_neg (by omega)]

end

end Datebook.BinaryFormat
