/-
  Datebook/Proofs/Json/Leaves.lean
  ================================
  **Strings and the parts of numbers are read back from their JSON text**, in front
  of anything that may follow them.

  The escapes are undone one character at a time, so a string is read back for
  every text there is: quotes, backslashes and control characters included.  Only
  a number may run into what follows it, and `EndsNumber` says what may not follow.
-/
import Datebook.Json.Record
import Datebook.Proofs.Text.Padded

namespace Datebook.Json

open Datebook.Text

/-! ### Strings -/

theorem hex4?_controlEscape {n : Nat} (h : n < 32) (rest : List Char) :
    hex4? ('0' :: '0' :: hexDigit (n / 16) :: hexDigit (n % 16) :: rest) = some (n, rest) := by
  have hzero : hexValue? '0' = some 0 := by decide
  have hhigh := hexValue?_hexDigit (show n / 16 < 16 by omega)
  have hlow := hexValue?_hexDigit (show n % 16 < 16 by omega)
  simp only [hex4?, hzero, hhigh, hlow, Option.bind_eq_bind, Option.bind_some]
  congr
  omega

theorem units?_plain {c : Char} (hquote : c ≠ '"') (hslash : c ≠ '\\')
    (hcontrol : ¬ c.toNat < 32) (rest : List Char) :
    units? (c :: rest) = (units? rest).map fun (us, r) => (.char c :: us, r) := by
  rw [units?]
  · simp [hcontrol, hslash]
  · exact hquote
  · intro digits h
    exact absurd h hslash
  · intro a more h
    exact absurd h hslash

theorem units?_short {a c : Char} (ha : a ≠ 'u') (h : shortEscape? a = some c) (rest : List Char) :
    units? ('\\' :: a :: rest) = (units? rest).map fun (us, r) => (.char c :: us, r) := by
  rw [units?]
  · simp [h]
  · exact ha

theorem units?_unicode {digits rest : List Char} {n : Nat} (h : hex4? digits = some (n, rest)) :
    units? ('\\' :: 'u' :: digits)
      = (units? rest).map fun (us, r) => (Unit16.ofCode n :: us, r) := by
  rw [units?]
  split <;> simp_all

/-- The codes of surrogates are far above those of the control characters. -/
theorem ofCode_control {c : Char} (h : c.toNat < 32) : Unit16.ofCode c.toNat = .char c := by
  rw [Unit16.ofCode, if_neg (by omega), if_neg (by omega), Char.ofNat_toNat]

/-- An escaped character is read as that character. -/
theorem units?_escapeChar (c : Char) (rest : List Char) :
    units? (escapeChar c ++ rest) = (units? rest).map fun (us, r) => (.char c :: us, r) := by
  by_cases hquote : c = '"'
  · subst hquote
    exact units?_short (by decide) (by decide) rest
  by_cases hslash : c = '\\'
  · subst hslash
    exact units?_short (by decide) (by decide) rest
  by_cases hn : c = '\n'
  · subst hn
    exact units?_short (by decide) (by decide) rest
  by_cases hr : c = '\r'
  · subst hr
    exact units?_short (by decide) (by decide) rest
  by_cases ht : c = '\t'
  · subst ht
    exact units?_short (by decide) (by decide) rest
  by_cases hb : c.toNat = 8
  · have hc : c = '\x08' := Char.toNat_inj.mp hb
    subst hc
    exact units?_short (by decide) (by decide) rest
  by_cases hf : c.toNat = 12
  · have hc : c = '\x0c' := Char.toNat_inj.mp hf
    subst hc
    exact units?_short (by decide) (by decide) rest
  by_cases hcontrol : c.toNat < 32
  · have hescape : escapeChar c
        = ['\\', 'u', '0', '0', hexDigit (c.toNat / 16), hexDigit (c.toNat % 16)] := by
      simp [escapeChar, *]
    rw [hescape, ← ofCode_control hcontrol]
    exact units?_unicode (hex4?_controlEscape hcontrol rest)
  · have hescape : escapeChar c = [c] := by
      simp only [escapeChar, if_false, *]
    rw [hescape]
    exact units?_plain hquote hslash hcontrol rest

theorem units?_quote (s rest : List Char) :
    units? (s.flatMap escapeChar ++ '"' :: rest) = some (s.map .char, rest) := by
  induction s with
  | nil => simp [units?]
  | cons c s ih =>
    rw [List.flatMap_cons, List.append_assoc, units?_escapeChar, ih]
    simp

theorem textOfUnits?_chars (s : List Char) : textOfUnits? (s.map .char) = some s := by
  induction s with
  | nil => rfl
  | cons c s ih => simp [textOfUnits?, ih]

theorem string?_quote (s : String) (rest : List Char) :
    string? (s.toList.flatMap escapeChar ++ '"' :: rest) = some (some s, rest) := by
  simp [string?, units?_quote, textOfUnits?_chars]

/-! ### White space -/

theorem skipSpace_cons {c : Char} (h : isSpace c = false) (cs : List Char) :
    skipSpace (c :: cs) = c :: cs := by
  simp [skipSpace, h]

theorem skipSpace_append {space : List Char} (h : ∀ c ∈ space, isSpace c = true)
    (cs : List Char) : skipSpace (space ++ cs) = skipSpace cs := by
  rw [skipSpace, List.dropWhile_append_of_pos h, skipSpace]

/-! ### Numbers -/

/-- What may stand behind a number: nothing that could continue it. -/
def EndsNumber (rest : List Char) : Prop :=
  ∀ c ∈ rest.head?, isDigit c = false ∧ c ≠ '.' ∧ c ≠ 'e' ∧ c ≠ 'E'

theorem EndsNumber.cons {c : Char} (h : isDigit c = false ∧ c ≠ '.' ∧ c ≠ 'e' ∧ c ≠ 'E')
    (cs : List Char) : EndsNumber (c :: cs) := by
  intro d hd
  cases hd
  exact h

theorem digits?_append {ds rest : List Char} (hne : ds ≠ []) (hds : ∀ c ∈ ds, isDigit c = true)
    (hrest : ∀ c ∈ rest.head?, isDigit c = false) : Json.digits? (ds ++ rest) = some (ds, rest) := by
  simp [Json.digits?, takeWhile_isDigit_append hds hrest, dropWhile_isDigit_append hds hrest, hne]

theorem digits?_numeral (n : Nat) {rest : List Char} (hrest : ∀ c ∈ rest.head?, isDigit c = false) :
    Json.digits? (numeral n ++ rest) = some (numeral n, rest) :=
  digits?_append (numeral_ne_nil n) (fun _ hc => isDigit_of_mem_numeral hc) hrest

/-- Digits are read as a whole number unless there is a superfluous zero in front. -/
theorem whole?_append {ds rest : List Char} (hne : ds ≠ []) (hds : ∀ c ∈ ds, isDigit c = true)
    (hzero : ds.head? = some '0' → ds = ['0']) (hrest : ∀ c ∈ rest.head?, isDigit c = false) :
    whole? (ds ++ rest) = some (ds, rest) := by
  by_cases hlead : ds.head? = some '0'
  · have hstop : ([] ++ rest).takeWhile isDigit = [] := takeWhile_isDigit_append (by simp) hrest
    rw [List.nil_append] at hstop
    rw [hzero hlead]
    simp [whole?, hstop]
  · have hread := digits?_append hne hds hrest
    cases ds with
    | nil => exact absurd rfl hne
    | cons d ds =>
      have hd : d ≠ '0' := by simpa using hlead
      rw [List.cons_append, whole?]
      · exact hread
      · intro more hmore
        exact hd (List.cons.inj hmore).1

/-- A numeral has no superfluous zero in front. -/
theorem numeral_eq_zero_of_head? {n : Nat} (h : (numeral n).head? = some '0') :
    numeral n = ['0'] := by
  have hn : n = 0 := by
    by_contra hn
    exact head?_numeral_ne_zero hn h
  rw [hn, numeral_zero]

theorem exponent?_of_ends {rest : List Char} (h : EndsNumber rest) :
    exponent? rest = some ([], rest) := by
  cases rest with
  | nil => rfl
  | cons c rest =>
    obtain ⟨-, -, hsmall, hlarge⟩ := h c rfl
    simp [exponent?, hsmall, hlarge]

theorem toList_natText (n : Nat) : (natText n).toList = numeral n := by
  simp [natText]

/-- No sign stands in front of a natural number. -/
theorem numeral_append_ne_sign (n : Nat) (rest more : List Char) :
    numeral n ++ rest ≠ '-' :: more := by
  intro h
  have hhead := isDigit_of_mem_head? (numeral_ne_nil n) (fun _ hc => isDigit_of_mem_numeral hc) rest
  rw [h] at hhead
  exact absurd (hhead '-' rfl) (by decide)

theorem integer?_ofInt (n : Int) : integer? (ofInt n) = some n := by
  have hdigits : (numeral n.natAbs).all isDigit = true := by
    rw [List.all_eq_true]
    exact fun c hc => isDigit_of_mem_numeral hc
  rw [ofInt, intText]
  split
  case isTrue hneg =>
    have hvalue : n.natAbs ≠ 0 := by omega
    have htext : ("-" ++ natText n.natAbs).toList = '-' :: numeral n.natAbs := by
      simp [toList_natText]
    have hback : -(n.natAbs : Int) = n := by omega
    simp only [integer?, htext, hdigits, if_true, value_numeral, hvalue, if_false, hback]
  case isFalse hpos =>
    have hback : (n.natAbs : Int) = n := by omega
    rw [integer?, toList_natText]
    split
    · rename_i more htext
      exact absurd (by simpa using htext) (numeral_append_ne_sign n.natAbs [] more)
    · rw [if_pos hdigits, value_numeral, hback]

theorem int64?_ofInt {n : Int} (hlow : -9223372036854775808 ≤ n) (hhigh : n < 9223372036854775808) :
    int64? (ofInt n) = some n := by
  simp [int64?, integer?_ofInt, hlow, hhigh]

end Datebook.Json
