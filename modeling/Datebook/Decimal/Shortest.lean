/-
  Datebook/Decimal/Shortest.lean
  ==============================
  **The shortest decimal that reads back.**

  Of all decimals that round to a given binary32 value, the ones with the fewest
  digits are taken, and of these the nearest.  For each number of digits only the
  two neighbours of the value on that decimal grid are tried: whenever any point
  of the grid reads back, one of the neighbours does.

  Two layouts write the digits: `Binary.text` without an exponent, as a person
  reads a setting, and `Binary.jsonText` as JSON numbers are written, where very
  large and very small values get one.
-/
import Datebook.Decimal.Binary

namespace Datebook.Decimal

open Datebook.Text

/-- `digits · 10^exponent` -/
structure Scientific where
  digits : Nat
  exponent : Int
  deriving DecidableEq, Repr

/-- `a · 10^k` as a quotient of natural numbers. -/
def scaleTen (a : Nat) (k : Int) : Nat × Nat :=
  if 0 ≤ k then (a * Nat.pow 10 k.toNat, 1) else (a, Nat.pow 10 (-k).toNat)

/-- The least `j`, up to `fuel`, for which `num · 10^j` reaches `den`. -/
def tensUpTo (num den : Nat) : Nat → Nat
  | 0 => 0
  | fuel + 1 => if den ≤ num then 0 else tensUpTo (num * 10) den fuel + 1

/-- The `k` with `10^k ≤ num / den < 10^(k+1)`. -/
def decade (num den : Nat) : Int :=
  if den ≤ num then ((numeral (num / den)).length : Int) - 1
  else -(tensUpTo num den (numeral den).length : Int)

/-- Drop the zeros at the end of the digits, into the exponent. -/
def Scientific.normal (s : Scientific) : (fuel : Nat) → Scientific
  | 0 => s
  | fuel + 1 =>
    if s.digits % 10 = 0 ∧ s.digits ≠ 0 then
      (Scientific.mk (s.digits / 10) (s.exponent + 1)).normal fuel
    else s

/-- The neighbour of `num / den` with at most `places` digits that reads back as
    `target`, and the nearer one if both do. -/
def candidate? (target : Binary) (num den : Nat) (places : Nat) : Option Scientific :=
  let k := decade num den - (places : Int) + 1
  let (p, q) := scaleTen den k
  let low := num * q / p
  let reads := fun d => BinaryFormat.binary32.ofDecimal false d k == target
  let lowIsNearer := 2 * (num * q - low * p) ≤ p
  match reads low, reads (low + 1) with
  | true, true => some ⟨if lowIsNearer then low else low + 1, k⟩
  | true, false => some ⟨low, k⟩
  | false, true => some ⟨low + 1, k⟩
  | false, false => none

/-- The shortest decimal of the positive binary32 value `m · 2^e`.  Nine digits
    always suffice. -/
def shortest (m : Nat) (e : Int) : Scientific :=
  let (num, den) := BinaryFormat.scale m e
  let target := Binary.finite false m e
  let found := (List.range 9).findSome? fun i => candidate? target num den (i + 1)
  match found with
  | some s => s.normal 9
  | none => ⟨0, 0⟩

/-- The digits with a point, where `point` counts the digits before it.  Zeros
    fill the gap between the digits and the point. -/
def positional (ds : List Char) (point : Int) : List Char × List Char :=
  if point ≤ 0 then (['0'], List.replicate (-point).toNat '0' ++ ds)
  else if ds.length ≤ point.toNat then
    (ds ++ List.replicate (point.toNat - ds.length) '0', [])
  else (ds.take point.toNat, ds.drop point.toNat)

end Datebook.Decimal

namespace Datebook.Binary

open Datebook.Text Datebook.Decimal

def signChars (negative : Bool) : List Char := if negative then ['-'] else []

/-- The layout for people: no exponent, and no point behind a whole number. -/
def text : Binary → String
  | .nan => "NaN"
  | .infinite negative => String.ofList (signChars negative ++ ['i', 'n', 'f'])
  | .finite negative m e =>
    if m = 0 then String.ofList (signChars negative ++ ['0'])
    else
      let s := shortest m e
      let ds := numeral s.digits
      let (whole, fraction) := positional ds (ds.length + s.exponent)
      String.ofList
        (signChars negative ++ whole ++ if fraction.isEmpty then [] else '.' :: fraction)

/-- The layout of JSON numbers: positional while at most four zeros stand between
    the point and the digits and at most thirteen places before the point, with
    `.0` behind whole numbers; otherwise with an exponent.  What is no number is
    `null`. -/
def jsonText : Binary → String
  | .nan => "null"
  | .infinite _ => "null"
  | .finite negative m e =>
    if m = 0 then String.ofList (signChars negative ++ ['0', '.', '0'])
    else
      let s := shortest m e
      let ds := numeral s.digits
      let point : Int := ds.length + s.exponent
      if -4 ≤ point ∧ point ≤ 13 then
        let (whole, fraction) := positional ds point
        String.ofList
          (signChars negative ++ whole ++ '.' :: if fraction.isEmpty then ['0'] else fraction)
      else
        let tail := if ds.length = 1 then [] else '.' :: ds.drop 1
        String.ofList (signChars negative ++ ds.take 1 ++ tail ++ ['e'] ++
          (intText (point - 1)).toList)

end Datebook.Binary
