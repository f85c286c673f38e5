/-
  Datebook/Text/Digits.lean
  =========================
  **Decimal and hexadecimal digits.**

  `numeral n` is the decimal text of `n` without leading zeros; `padded w n`
  fills it with zeros to `w` places.  `value` reads a run of digits back, and
  `value_numeral` says that it does.  Integers are written with a sign only when
  negative.
-/
namespace Datebook.Text

/-- The ASCII digits, and no others: `٣` is a digit of Unicode but not of any
    format read here. -/
def isDigit (c : Char) : Bool := '0' ≤ c && c ≤ '9'

def digitValue (c : Char) : Nat := c.toNat - '0'.toNat

def digitChar (n : Nat) : Char := Char.ofNat ('0'.toNat + n)

/-- The digits of `n`, last digit first. -/
def reversedDigits (n : Nat) : List Nat :=
  if n < 10 then [n] else n % 10 :: reversedDigits (n / 10)

/-- The decimal text of a natural number. -/
def numeral (n : Nat) : List Char := (reversedDigits n).reverse.map digitChar

/-- The number a run of digits denotes. -/
def value (ds : List Char) : Nat := ds.foldl (fun n d => 10 * n + digitValue d) 0

/-- The decimal text, filled with zeros in front to at least `w` places. -/
def padded (w n : Nat) : List Char :=
  let ds := numeral n
  List.replicate (w - ds.length) '0' ++ ds

theorem isDigit_digitChar {n : Nat} (h : n < 10) : isDigit (digitChar n) = true := by
  have : ∀ m : Fin 10, isDigit (digitChar m) = true := by decide
  exact this ⟨n, h⟩

theorem digitValue_digitChar {n : Nat} (h : n < 10) : digitValue (digitChar n) = n := by
  have : ∀ m : Fin 10, digitValue (digitChar m) = m := by decide
  exact this ⟨n, h⟩

theorem lt_of_mem_reversedDigits {n d : Nat} (h : d ∈ reversedDigits n) : d < 10 := by
  fun_induction reversedDigits n with
  | case1 n hn => simp at h; omega
  | case2 n hn ih =>
    simp only [List.mem_cons] at h
    rcases h with rfl | h
    · omega
    · exact ih h

/-- A numeral consists of digits. -/
theorem isDigit_of_mem_numeral {n : Nat} {c : Char} (h : c ∈ numeral n) : isDigit c = true := by
  simp only [numeral, List.mem_map, List.mem_reverse] at h
  obtain ⟨d, hd, rfl⟩ := h
  exact isDigit_digitChar (lt_of_mem_reversedDigits hd)

/-- Reading a numeral gives the number back. -/
theorem value_numeral (n : Nat) : value (numeral n) = n := by
  have general : ∀ m : Nat,
      (reversedDigits m).foldr (fun d k => 10 * k + digitValue (digitChar d)) 0 = m := by
    intro m
    fun_induction reversedDigits m with
    | case1 m hm => simp [digitValue_digitChar hm]
    | case2 m hm ih => simp [ih, digitValue_digitChar (Nat.mod_lt m (by omega))]; omega
  simp [value, numeral, List.foldl_reverse, List.foldr_map, general]

/-! ### Hexadecimal -/

/-- The sixteen digits, in lower case. -/
def hexDigit (n : Nat) : Char :=
  if n < 10 then Char.ofNat ('0'.toNat + n) else Char.ofNat ('a'.toNat + (n - 10))

/-- The sixteen digits, in upper case. -/
def hexDigitUpper (n : Nat) : Char :=
  if n < 10 then Char.ofNat ('0'.toNat + n) else Char.ofNat ('A'.toNat + (n - 10))

/-- The value of a hexadecimal digit of either case. -/
def hexValue? (c : Char) : Option Nat :=
  if '0' ≤ c && c ≤ '9' then some (c.toNat - '0'.toNat)
  else if 'a' ≤ c && c ≤ 'f' then some (c.toNat - 'a'.toNat + 10)
  else if 'A' ≤ c && c ≤ 'F' then some (c.toNat - 'A'.toNat + 10)
  else none

theorem hexValue?_hexDigit {n : Nat} (h : n < 16) : hexValue? (hexDigit n) = some n := by
  have : ∀ m : Fin 16, hexValue? (hexDigit m) = some m.val := by decide
  exact this ⟨n, h⟩

end Datebook.Text

namespace Datebook

/-- The decimal text of a natural number. -/
def natText (n : Nat) : String := String.ofList (Text.numeral n)

/-- The decimal text of an integer. -/
def intText (n : Int) : String :=
  if n < 0 then "-" ++ natText n.natAbs else natText n.natAbs

end Datebook
