/-
  Datebook/Proofs/Json/Number.lean
  ================================
  **What a JSON number is**: digits, perhaps with a fraction behind a point, perhaps
  with a power of ten.

  `NumberParts` carries what the grammar asks of the parts: digits before the point
  without a superfluous zero in front, and digits only behind it.  Whatever is put
  together from parts is read as one number, up to its last character
  (`number?_chars`), and stands for `± digits · 10^exponent`.
-/
import Datebook.Decimal.Shortest
import Datebook.Proofs.Json.Leaves

namespace Datebook.Json

open Datebook.Text

/-- The characters a number may start with. -/
def StartsNumber (c : Char) : Prop := isDigit c = true ∨ c = '-'

theorem StartsNumber.ne {c d : Char} (h : StartsNumber c) (hd : isDigit d = false ∧ d ≠ '-') :
    c ≠ d := by
  rintro rfl
  rcases h with h | h
  · rw [hd.1] at h
    cases h
  · exact hd.2 h

theorem StartsNumber.isSpace_eq_false {c : Char} (h : StartsNumber c) : isSpace c = false := by
  have h₁ := h.ne (d := ' ') (by decide)
  have h₂ := h.ne (d := '\t') (by decide)
  have h₃ := h.ne (d := '\n') (by decide)
  have h₄ := h.ne (d := '\r') (by decide)
  simp [isSpace, h₁, h₂, h₃, h₄]

theorem value?_number {c : Char} (hc : StartsNumber c) (fuel : Nat) (cs : List Char) :
    value? (fuel + 1) (c :: cs) = (Json.number? (c :: cs)).map fun (t, r) => (.number t, r) := by
  rw [value?]
  · exact List.cons_ne_nil c cs
  -- no other kind of value starts with a digit or a sign
  all_goals
    intro rest h
    exact hc.ne (by decide) (List.cons.inj h).1

/-- A number in its parts.  An empty fraction is not written. -/
structure NumberParts where
  negative : Bool
  whole : List Char
  fraction : List Char
  power : Option Int
  whole_ne_nil : whole ≠ []
  isDigit_whole : ∀ c ∈ whole, isDigit c = true
  /-- Only a zero on its own starts with a zero. -/
  whole_zero : whole.head? = some '0' → whole = ['0']
  isDigit_fraction : ∀ c ∈ fraction, isDigit c = true

namespace NumberParts

variable (p : NumberParts)

def fractionChars : List Char := if p.fraction.isEmpty then [] else '.' :: p.fraction

def powerChars : List Char :=
  match p.power with
  | none => []
  | some n => 'e' :: (intText n).toList

/-- The number as it is written. -/
def chars : List Char :=
  Binary.signChars p.negative ++ p.whole ++ p.fractionChars ++ p.powerChars

/-- All the digits, as if there were no point. -/
def digits : Nat := value (p.whole ++ p.fraction)

/-- The power of ten of the last digit. -/
def exponent : Int := p.power.getD 0 - p.fraction.length

/-- A whole number has no other parts. -/
def ofInt (n : Int) : NumberParts where
  negative := decide (n < 0)
  whole := numeral n.natAbs
  fraction := []
  power := none
  whole_ne_nil := numeral_ne_nil _
  isDigit_whole := fun _ => isDigit_of_mem_numeral
  whole_zero := numeral_eq_zero_of_head?
  isDigit_fraction := nofun

theorem chars_ofInt (n : Int) : String.ofList (ofInt n).chars = intText n := by
  rw [← String.toList_inj, String.toList_ofList, intText]
  by_cases hn : n < 0
  · simp [chars, ofInt, fractionChars, powerChars, Binary.signChars, hn, toList_natText]
  · simp [chars, ofInt, fractionChars, powerChars, Binary.signChars, hn, toList_natText]

/-! ### Reading the parts -/

theorem exponent?_intText (n : Int) {rest : List Char} (h : EndsNumber rest) :
    exponent? ('e' :: ((intText n).toList ++ rest)) = some ('e' :: (intText n).toList, rest) := by
  have hrest : ∀ c ∈ rest.head?, isDigit c = false := fun c hc => (h c hc).1
  have hdigits := digits?_numeral n.natAbs hrest
  rw [intText]
  split
  · simp [exponent?, toList_natText, hdigits]
  · -- the first character is a digit, and no sign
    have hhead := isDigit_of_mem_head? (numeral_ne_nil n.natAbs)
      (fun _ hc => isDigit_of_mem_numeral hc) rest
    rw [toList_natText]
    cases hcs : numeral n.natAbs ++ rest with
    | nil => simp [numeral_ne_nil] at hcs
    | cons d ds =>
      rw [hcs] at hhead hdigits
      have hplus : d ≠ '+' := by
        rintro rfl
        cases hhead '+' rfl
      have hminus : d ≠ '-' := by
        rintro rfl
        cases hhead '-' rfl
      simp [exponent?, hplus, hminus, hdigits]

theorem exponent?_powerChars {rest : List Char} (h : EndsNumber rest) :
    exponent? (p.powerChars ++ rest) = some (p.powerChars, rest) := by
  rw [powerChars]
  split
  · exact exponent?_of_ends h
  · exact exponent?_intText _ h

/-- A power starts with a letter. -/
theorem head?_powerChars {rest : List Char} (h : EndsNumber rest) :
    ∀ c ∈ (p.powerChars ++ rest).head?, isDigit c = false ∧ c ≠ '.' := by
  rw [powerChars]
  split
  · exact fun c hc => ⟨(h c hc).1, (h c hc).2.1⟩
  · intro c hc
    cases hc
    decide

theorem fraction?_fractionChars {rest : List Char}
    (h : ∀ c ∈ rest.head?, isDigit c = false ∧ c ≠ '.') :
    Json.fraction? (p.fractionChars ++ rest) = some (p.fractionChars, rest) := by
  rw [fractionChars]
  split
  · cases rest with
    | nil => rfl
    | cons c rest =>
      rw [List.nil_append, Json.fraction?]
      intro more hmore
      exact (h c rfl).2 (List.cons.inj hmore).1
  · rename_i hne
    have hdigits := digits?_append (by simpa using hne) p.isDigit_fraction fun c hc => (h c hc).1
    simp [Json.fraction?, hdigits]

theorem head?_fractionChars {rest : List Char}
    (h : ∀ c ∈ rest.head?, isDigit c = false ∧ c ≠ '.') :
    ∀ c ∈ (p.fractionChars ++ rest).head?, isDigit c = false := by
  rw [fractionChars]
  split
  · exact fun c hc => (h c hc).1
  · intro c hc
    cases hc
    decide

/-! ### Reading the number -/

/-- A number is read up to its last character. -/
theorem number?_chars {rest : List Char} (h : EndsNumber rest) :
    Json.number? (p.chars ++ rest) = some (String.ofList p.chars, rest) := by
  have hpower := p.exponent?_powerChars h
  have hbehind := p.head?_powerChars h
  have hfraction := p.fraction?_fractionChars hbehind
  have hwhole := whole?_append p.whole_ne_nil p.isDigit_whole p.whole_zero
    (p.head?_fractionChars hbehind)
  cases hsign : p.negative with
  | true => simp [Json.number?, chars, hsign, Binary.signChars, hwhole, hfraction, hpower]
  | false =>
    simp only [chars, hsign, Binary.signChars, List.append_assoc]
    rw [Json.number?]
    · simp [hwhole, hfraction, hpower]
    · -- the first character is a digit, and no sign
      intro more hmore
      have hhead := isDigit_of_mem_head? p.whole_ne_nil p.isDigit_whole
        (p.fractionChars ++ (p.powerChars ++ rest))
      simp only [Bool.false_eq_true, if_false, List.nil_append] at hmore
      rw [hmore] at hhead
      cases hhead '-' rfl

theorem exists_head_chars : ∃ c cs, p.chars = c :: cs ∧ StartsNumber c := by
  cases hsign : p.negative with
  | true =>
    refine ⟨'-', p.whole ++ p.fractionChars ++ p.powerChars, ?_, .inr rfl⟩
    simp [chars, hsign, Binary.signChars]
  | false =>
    cases hwhole : p.whole with
    | nil => exact absurd hwhole p.whole_ne_nil
    | cons d ds =>
      refine ⟨d, ds ++ p.fractionChars ++ p.powerChars, ?_, .inl ?_⟩
      · simp [chars, hsign, Binary.signChars, hwhole]
      · exact p.isDigit_whole d (by simp [hwhole])

end NumberParts

end Datebook.Json
