/-
  Datebook/Decimal/Binary.lean
  ============================
  **Binary floating-point values**, exactly.

  A finite value is `± m · 2^e` with natural `m`; nothing is computed with
  machine floats, so every comparison and every rounding below is arithmetic on
  integers.  A `BinaryFormat` says how many binary digits a mantissa has, the
  least exponent, and where overflow starts; rounding takes the nearest value of
  the format, and of two equally near ones the one with the even mantissa.

  Settings are read as binary64 and kept as binary32: `BinaryFormat.round` is
  applied twice, and that is not the same as rounding once.
-/
import Datebook.Text.Digits

namespace Datebook

inductive Binary where
  | nan
  | infinite (negative : Bool)
  | finite (negative : Bool) (mantissa : Nat) (exponent : Int)
  deriving DecidableEq, Repr

structure BinaryFormat where
  /-- Binary digits of a full mantissa. -/
  precision : Nat
  /-- The exponent of the last digit of the smallest values. -/
  minExponent : Int
  /-- Values of `2 ^ maxExponent` and above do not fit. -/
  maxExponent : Int
  deriving DecidableEq, Repr

namespace BinaryFormat

def binary64 : BinaryFormat := ⟨53, -1074, 1024⟩

def binary32 : BinaryFormat := ⟨24, -149, 128⟩

/-- The quotient rounded to the nearest natural number, halves to the even one. -/
def roundQuotient (num den : Nat) : Nat :=
  let q := num / den
  let r := num % den
  if 2 * r < den then q
  else if den < 2 * r then q + 1
  else if q % 2 = 0 then q else q + 1

/-- `a · 2^e` as a quotient of natural numbers. -/
def scale (a : Nat) (e : Int) : Nat × Nat :=
  if 0 ≤ e then (a * Nat.pow 2 e.toNat, 1) else (a, Nat.pow 2 (-e).toNat)

/-- The exponent at which `num / den`, both positive, has a full mantissa, or the
    least one of the format if that is greater. -/
def exponentFor (f : BinaryFormat) (num den : Nat) : Int :=
  let k : Int := (Nat.log2 num : Int) - (Nat.log2 den : Int)
  let (p, q) := scale den k
  let atLeast := p ≤ num * q
  let e := (if atLeast then k + 1 else k) - f.precision
  if e < f.minExponent then f.minExponent else e

/-- The value of the format nearest to `± num / den`. -/
def roundRatio (f : BinaryFormat) (negative : Bool) (num den : Nat) : Binary :=
  if num = 0 then .finite negative 0 f.minExponent
  else
    let e := f.exponentFor num den
    let (p, q) := scale den e
    let m := roundQuotient (num * q) p
    let (m, e) :=
      if m = Nat.pow 2 f.precision then (Nat.pow 2 (f.precision - 1), e + 1) else (m, e)
    if f.maxExponent < e + f.precision then .infinite negative
    else .finite negative m e

/-- The value of the format nearest to a given one. -/
def round (f : BinaryFormat) : Binary → Binary
  | .nan => .nan
  | .infinite negative => .infinite negative
  | .finite negative m e =>
    let (num, den) := scale m e
    f.roundRatio negative num den

/-- The value of the format nearest to an integer. -/
def ofInt (f : BinaryFormat) (n : Int) : Binary := f.roundRatio (decide (n < 0)) n.natAbs 1

/-- The value of the format nearest to `± digits · 10^exponent`.  The two cut-offs
    spare the powers that no format here could show. -/
def ofDecimal (f : BinaryFormat) (negative : Bool) (digits : Nat) (exponent : Int) : Binary :=
  if digits = 0 then .finite negative 0 f.minExponent
  else
    let places : Int := (Text.numeral digits).length + exponent
    if 400 < places then .infinite negative
    else if places < -400 then .finite negative 0 f.minExponent
    else if 0 ≤ exponent then f.roundRatio negative (digits * Nat.pow 10 exponent.toNat) 1
    else f.roundRatio negative digits (Nat.pow 10 (-exponent).toNat)

end BinaryFormat

namespace Binary

/-- Whether a value is at most an integer; not so for `nan`. -/
def leInt : Binary → Int → Bool
  | .nan, _ => false
  | .infinite negative, _ => negative
  | .finite negative m e, n =>
    let (num, den) := BinaryFormat.scale m e
    decide ((if negative then -(num : Int) else num) ≤ n * den)

/-- Whether an integer is at most a value; not so for `nan`. -/
def intLe : Int → Binary → Bool
  | _, .nan => false
  | _, .infinite negative => !negative
  | n, .finite negative m e =>
    let (num, den) := BinaryFormat.scale m e
    decide (n * den ≤ (if negative then -(num : Int) else num))

/-- Whether the value is greater than an integer; not so for `nan`. -/
def gtInt (x : Binary) (n : Int) : Bool :=
  match x with
  | .nan => false
  | x => !x.leInt n

end Binary

end Datebook
