/-
  Datebook/Uuid.lean
  ==================
  **Universally unique identifiers**: 32 hexadecimal digits.

  They are written in groups of 8, 4, 4, 4 and 12 digits, in small letters, and
  read in four forms: without the hyphens, with them, with them in braces, and as
  a `urn:uuid:`.  `Uuid.random` spreads a number over the digits that are free in
  version 4, so that different numbers below `2 ^ 122` give different ids.
-/
import Datebook.Text.Digits
import Datebook.Text.Search

namespace Datebook

structure Uuid where
  digits : List (Fin 16)
  isFull : digits.length = 32
  deriving DecidableEq, Repr

namespace Uuid

open Datebook.Text

def hexChars (ds : List (Fin 16)) : List Char := ds.map fun d => hexDigit d.val

def chars (u : Uuid) : List Char :=
  let ds := hexChars u.digits
  ds.take 8 ++ '-' :: (ds.drop 8).take 4 ++ '-' :: (ds.drop 12).take 4 ++
    '-' :: (ds.drop 16).take 4 ++ '-' :: ds.drop 20

def text (u : Uuid) : String := String.ofList u.chars

/-! ### Reading -/

def hexDigit? (c : Char) : Option (Fin 16) :=
  (hexValue? c).bind fun n => if h : n < 16 then some ⟨n, h⟩ else none

def ofHex? (cs : List Char) : Option Uuid := do
  let ds ← cs.mapM hexDigit?
  if h : ds.length = 32 then some ⟨ds, h⟩ else none

/-- The hyphenated form. -/
def ofHyphenated? (cs : List Char) : Option Uuid :=
  if cs.length = 36 ∧ cs[8]? = some '-' ∧ cs[13]? = some '-' ∧ cs[18]? = some '-' ∧
      cs[23]? = some '-' then
    ofHex? (cs.take 8 ++ (cs.drop 9).take 4 ++ (cs.drop 14).take 4 ++ (cs.drop 19).take 4 ++
      cs.drop 24)
  else none

def readChars? (cs : List Char) : Option Uuid :=
  if cs.length = 32 then ofHex? cs
  else if cs.length = 36 then ofHyphenated? cs
  else if cs.length = 38 then
    if cs.head? = some '\x7b' ∧ cs.getLast? = some '\x7d' then ofHyphenated? cs.tail.dropLast
    else none
  else (dropLead? "urn:uuid:".toList cs).bind ofHyphenated?

/-- Read an identifier in any of its forms. -/
def read? (s : String) : Option Uuid := readChars? s.toList

/-! ### Making -/

/-- The last `k` hexadecimal digits of a number, the first of them first. -/
def hexOf (n : Nat) : (k : Nat) → List (Fin 16)
  | 0 => []
  | k + 1 => Fin.ofNat 16 (n / Nat.pow 16 k) :: hexOf n k

theorem length_hexOf (n k : Nat) : (hexOf n k).length = k := by
  induction k with
  | zero => rfl
  | succ k ih => simp [hexOf, ih]

/-- The version 4 identifier that carries the last 122 bits of a number. -/
def random (n : Nat) : Uuid where
  digits := hexOf (n / Nat.pow 2 74) 12 ++ 4 :: hexOf (n / Nat.pow 2 62) 3 ++
    Fin.ofNat 16 (8 + n / Nat.pow 2 60 % 4) :: hexOf n 15
  isFull := by simp [length_hexOf]

/-- Whether the identifier is one of version 4. -/
def isVersion4 (u : Uuid) : Bool :=
  u.digits[12]? == some 4 && (u.digits[16]?.any fun d => 8 ≤ d.val && d.val < 12)

end Uuid

end Datebook
