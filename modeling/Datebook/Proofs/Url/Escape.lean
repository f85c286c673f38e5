/-
  Datebook/Proofs/Url/Escape.lean
  ===============================
  **What undoing the escapes of a path segment gives back.**

  Putting a text into a path escapes some of its characters, but never a percent sign,
  so an escape that the text itself contains stays one (`percentDecode_percentEncode`).
  The text comes back if it contains none (`decode_percentEncode`), and otherwise
  something shorter does (`noEscape_of_length_le`).
-/
import Datebook.Url.Basic

namespace Datebook.Url

open Datebook.Text

/-! ### Bytes -/

theorem utf8_ne_nil (c : Char) : utf8 c ≠ [] := by
  have hpos := c.utf8Size_pos
  intro h
  rw [utf8, List.map_eq_nil_iff, ← List.length_eq_zero_iff, String.length_utf8EncodeChar] at h
  omega

theorem lt_of_mem_utf8 {c : Char} {b : Nat} (h : b ∈ utf8 c) : b < 256 := by
  obtain ⟨byte, _, rfl⟩ := List.mem_map.mp h
  exact byte.toNat_lt

theorem map_toUInt8_utf8 (cs : List Char) :
    (cs.flatMap utf8).map Nat.toUInt8 = cs.flatMap String.utf8EncodeChar := by
  induction cs with
  | nil => rfl
  | cons c cs ih =>
    rw [List.flatMap_cons, List.map_append, ih, List.flatMap_cons, utf8, List.map_map]
    congr 1
    simp [Function.comp_def]

/-- The bytes of a text are the bytes of that text only. -/
theorem textOfBytes?_eq_some_iff {bytes : List Nat} {s : String} :
    textOfBytes? bytes = some s ↔
      bytes.map Nat.toUInt8 = s.toList.flatMap String.utf8EncodeChar := by
  have hbytes : s.toByteArray = (s.toList.flatMap String.utf8EncodeChar).toByteArray := by
    rw [← List.utf8Encode, ← String.toByteArray_ofList, String.ofList_toList]
  have harray : (⟨(bytes.map Nat.toUInt8).toArray⟩ : ByteArray) =
      (bytes.map Nat.toUInt8).toByteArray := by
    ext1
    rw [List.data_toByteArray]
  rw [textOfBytes?, harray, String.fromUTF8?, ← List.toByteArray_inj, ← hbytes]
  constructor
  · intro h
    split at h
    · cases h
      rfl
    · cases h
  · intro h
    have hvalid : (bytes.map Nat.toUInt8).toByteArray.IsValidUTF8 := by
      rw [h]
      exact s.isValidUTF8
    rw [dif_pos hvalid, Option.some.injEq, ← String.toByteArray_inj]
    exact h

/-! ### Escapes -/

/-- Whether the text starts with a percent sign and two hexadecimal digits. -/
def startsEscape : List Char → Bool
  | '%' :: a :: b :: _ => (hexValue? a).isSome && (hexValue? b).isSome
  | _ => false

/-- Nowhere in the text do two hexadecimal digits follow a percent sign. -/
def NoEscape (cs : List Char) : Prop :=
  ∀ a b, (hexValue? a).isSome → (hexValue? b).isSome → ¬ ['%', a, b] <:+: cs

theorem startsEscape_iff {cs : List Char} : startsEscape cs = true ↔
    ∃ a b, (hexValue? a).isSome ∧ (hexValue? b).isSome ∧ ['%', a, b] <+: cs := by
  constructor
  · intro h
    unfold startsEscape at h
    split at h
    · rename_i a b rest
      rw [Bool.and_eq_true] at h
      exact ⟨a, b, h.1, h.2, rest, rfl⟩
    · cases h
  · rintro ⟨a, b, ha, hb, rest, rfl⟩
    simp [startsEscape, ha, hb]

theorem noEscape_cons_iff {c : Char} {cs : List Char} :
    NoEscape (c :: cs) ↔ startsEscape (c :: cs) = false ∧ NoEscape cs := by
  rw [← Bool.not_eq_true, startsEscape_iff]
  constructor
  · intro h
    constructor
    · rintro ⟨a, b, ha, hb, hstart⟩
      exact h a b ha hb hstart.isInfix
    · intro a b ha hb hinside
      exact h a b ha hb (hinside.trans (List.suffix_cons c cs).isInfix)
  · rintro ⟨hstart, hinside⟩ a b ha hb h
    rcases List.infix_cons_iff.mp h with h | h
    · exact hstart ⟨a, b, ha, hb, h⟩
    · exact hinside a b ha hb h

theorem noEscape_nil : NoEscape [] := by
  intro a b _ _ h
  exact absurd h.length_le (by simp)

instance decidableNoEscape : DecidablePred NoEscape
  | [] => isTrue noEscape_nil
  | _ :: cs =>
    have := decidableNoEscape cs
    decidable_of_iff _ noEscape_cons_iff.symm

/-! ### Undoing escapes -/

theorem percentDecode_cons {c : Char} {cs : List Char} (h : startsEscape (c :: cs) = false) :
    percentDecode (c :: cs) = utf8 c ++ percentDecode cs := by
  rw [percentDecode.eq_def]
  split
  · rename_i a b rest heq
    cases heq
    split
    · rename_i ha hb
      simp [startsEscape, ha, hb] at h
    · rfl
  · rename_i heq
    cases heq
    rfl
  · rename_i heq
    cases heq

theorem percentDecode_of_escape {a b : Char} {h l : Nat} (ha : hexValue? a = some h)
    (hb : hexValue? b = some l) (cs : List Char) :
    percentDecode ('%' :: a :: b :: cs) = (16 * h + l) :: percentDecode cs := by
  simp [percentDecode, ha, hb]

/-- A text goes on with an escape, or with a character that stands for itself. -/
@[elab_as_elim]
theorem escape_induction {motive : List Char → Prop} (nil : motive [])
    (escape : ∀ (a b : Char) (h l : Nat) (cs : List Char), hexValue? a = some h →
      hexValue? b = some l → motive cs → motive ('%' :: a :: b :: cs))
    (plain : ∀ (c : Char) (cs : List Char), startsEscape (c :: cs) = false → motive cs →
      motive (c :: cs)) (cs : List Char) : motive cs := by
  fun_induction percentDecode cs with
  | case1 a b cs h l hb ha ih => exact escape a b h l cs ha hb ih
  | case2 a b cs hex ih =>
    refine plain _ _ ?_ ih
    rw [startsEscape, Bool.and_eq_false_iff, Option.isSome_eq_false_iff, Option.isSome_eq_false_iff,
      Option.isNone_iff_eq_none, Option.isNone_iff_eq_none]
    cases ha : hexValue? a with
    | none => exact .inl rfl
    | some h =>
      cases hb : hexValue? b with
      | none => exact .inr rfl
      | some l => exact absurd hb (hex h l ha)
  | case3 c cs hshort ih =>
    refine plain c cs ?_ ih
    rw [← Bool.not_eq_true, startsEscape_iff]
    rintro ⟨a, b, _, _, rest, hrest⟩
    cases hrest
    exact hshort a b rest rfl rfl
  | case4 => exact nil

theorem percentDecode_of_noEscape {cs : List Char} (h : NoEscape cs) :
    percentDecode cs = cs.flatMap utf8 := by
  induction cs with
  | nil => rfl
  | cons c cs ih =>
    obtain ⟨hstart, hinside⟩ := noEscape_cons_iff.mp h
    rw [percentDecode_cons hstart, ih hinside, List.flatMap_cons]

theorem length_percentDecode_le (cs : List Char) :
    (percentDecode cs).length ≤ (cs.flatMap utf8).length := by
  induction cs using escape_induction with
  | nil => exact Nat.le_refl _
  | escape a b h l cs ha hb ih =>
    have hpos := List.length_pos_iff.mpr (utf8_ne_nil a)
    rw [percentDecode_of_escape ha hb]
    simp only [List.length_cons, List.flatMap_cons, List.length_append]
    omega
  | plain c cs hstart ih =>
    rw [percentDecode_cons hstart, List.flatMap_cons, List.length_append, List.length_append]
    exact Nat.add_le_add_left ih _

/-- Whatever keeps its number of bytes had no escape. -/
theorem noEscape_of_length_le {cs : List Char}
    (h : (cs.flatMap utf8).length ≤ (percentDecode cs).length) : NoEscape cs := by
  induction cs using escape_induction with
  | nil => exact noEscape_nil
  | escape a b h l cs ha hb ih =>
    have hposa := List.length_pos_iff.mpr (utf8_ne_nil a)
    have hposb := List.length_pos_iff.mpr (utf8_ne_nil b)
    have hle := length_percentDecode_le cs
    rw [percentDecode_of_escape ha hb] at h
    simp only [List.length_cons, List.flatMap_cons, List.length_append] at h
    omega
  | plain c cs hstart ih =>
    rw [percentDecode_cons hstart, List.flatMap_cons, List.length_append, List.length_append] at h
    exact noEscape_cons_iff.mpr ⟨hstart, ih (Nat.le_of_add_le_add_left h)⟩

/-! ### Escaping for a path and undoing it -/

theorem hexValue?_hexDigitUpper {n : Nat} (h : n < 16) : hexValue? (hexDigitUpper n) = some n := by
  have hall : ∀ m : Fin 16, hexValue? (hexDigitUpper m) = some m.val := by decide
  exact hall ⟨n, h⟩

theorem percentDecode_escapeByte {b : Nat} (hb : b < 256) (cs : List Char) :
    percentDecode (escapeByte b ++ cs) = b :: percentDecode cs := by
  have hhigh := hexValue?_hexDigitUpper (show b / 16 < 16 by omega)
  have hlow := hexValue?_hexDigitUpper (show b % 16 < 16 by omega)
  rw [escapeByte]
  simp only [List.cons_append, List.nil_append]
  rw [percentDecode_of_escape hhigh hlow, Nat.div_add_mod]

theorem percentDecode_escapeBytes {bytes : List Nat} (h : ∀ b ∈ bytes, b < 256) (cs : List Char) :
    percentDecode (bytes.flatMap escapeByte ++ cs) = bytes ++ percentDecode cs := by
  induction bytes with
  | nil => rfl
  | cons b bytes ih =>
    obtain ⟨hb, hbytes⟩ := List.forall_mem_cons.mp h
    rw [List.flatMap_cons, List.append_assoc, percentDecode_escapeByte hb, ih hbytes]
    rfl

/-- Whether a character stands for itself in a path. -/
def staysInPath (c : Char) : Bool := c.toNat < 128 && keepInPath c

theorem percentEncode_cons (c : Char) (cs : List Char) :
    percentEncode keepInPath (c :: cs) =
      (if staysInPath c then [c] else (utf8 c).flatMap escapeByte) ++
        percentEncode keepInPath cs := rfl

theorem percentEncode_cons_of_stays {c : Char} (h : staysInPath c = true) (cs : List Char) :
    percentEncode keepInPath (c :: cs) = c :: percentEncode keepInPath cs := by
  rw [percentEncode_cons, if_pos h]
  rfl

/-- The digits of an escape are never escaped themselves. -/
theorem staysInPath_of_hexValue? {c : Char} (h : (hexValue? c).isSome) : staysInPath c = true := by
  have hle : c ≤ 'f' := by
    unfold hexValue? at h
    simp only [Bool.and_eq_true, decide_eq_true_eq] at h
    split at h
    · rename_i hdigit
      exact Char.le_trans hdigit.2 (by decide)
    · split at h
      · rename_i hsmall
        exact hsmall.2
      · split at h
        · rename_i hcapital
          exact Char.le_trans hcapital.2 (by decide)
        · cases h
  have hall : ∀ n : Fin 103, (hexValue? (Char.ofNat n)).isSome →
      staysInPath (Char.ofNat n) = true := by decide
  have hc := hall ⟨c.toNat, Nat.lt_succ_of_le hle⟩
  rw [Char.ofNat_toNat] at hc
  exact hc h

/-- An escape that starts the encoded text starts the text itself: every escape that
    encoding adds begins with a percent sign, which is no digit. -/
theorem eq_of_percentEncode_hex {a : Char} {cs rest : List Char} (ha : (hexValue? a).isSome)
    (h : percentEncode keepInPath cs = a :: rest) :
    ∃ cs', cs = a :: cs' ∧ percentEncode keepInPath cs' = rest := by
  cases cs with
  | nil => cases h
  | cons c cs =>
    by_cases hc : staysInPath c = true
    · rw [percentEncode_cons_of_stays hc, List.cons.injEq] at h
      exact ⟨cs, by rw [h.1], h.2⟩
    · rw [percentEncode_cons, if_neg hc] at h
      obtain ⟨b, bytes, hbytes⟩ := List.exists_cons_of_ne_nil (utf8_ne_nil c)
      rw [hbytes, List.flatMap_cons, escapeByte] at h
      simp only [List.cons_append, List.cons.injEq] at h
      rw [← h.1] at ha
      exact absurd ha (by decide)

theorem startsEscape_percentEncode {c : Char} {cs : List Char}
    (h : startsEscape (c :: cs) = false) :
    startsEscape (c :: percentEncode keepInPath cs) = false := by
  rw [← Bool.not_eq_true, startsEscape_iff] at h ⊢
  rintro ⟨a, b, ha, hb, rest, hrest⟩
  simp only [List.cons_append, List.nil_append, List.cons.injEq] at hrest
  obtain ⟨cs₁, rfl, hcs₁⟩ := eq_of_percentEncode_hex ha hrest.2.symm
  obtain ⟨cs₂, rfl, _⟩ := eq_of_percentEncode_hex hb hcs₁
  exact h ⟨a, b, ha, hb, cs₂, by rw [hrest.1]; rfl⟩

/-- Escaping a text for a path adds nothing that undoing its escapes would not take
    away again, and so leaves what was read from it as it was. -/
theorem percentDecode_percentEncode (cs : List Char) :
    percentDecode (percentEncode keepInPath cs) = percentDecode cs := by
  induction cs using escape_induction with
  | nil => rfl
  | escape a b h l cs ha hb ih =>
    have hstaysa := staysInPath_of_hexValue? (Option.isSome_of_eq_some ha)
    have hstaysb := staysInPath_of_hexValue? (Option.isSome_of_eq_some hb)
    rw [percentEncode_cons_of_stays (by decide), percentEncode_cons_of_stays hstaysa,
      percentEncode_cons_of_stays hstaysb, percentDecode_of_escape ha hb,
      percentDecode_of_escape ha hb, ih]
  | plain c cs hstart ih =>
    by_cases hc : staysInPath c = true
    · rw [percentEncode_cons_of_stays hc, percentDecode_cons (startsEscape_percentEncode hstart),
        percentDecode_cons hstart, ih]
    · rw [percentEncode_cons, if_neg hc, percentDecode_escapeBytes (fun b => lt_of_mem_utf8),
        percentDecode_cons hstart, ih]

/-- A text in which no percent sign looks like an escape comes back from a path. -/
theorem decode_percentEncode {s : String} (h : NoEscape s.toList) :
    textOfBytes? (percentDecode (percentEncode keepInPath s.toList)) = some s := by
  rw [percentDecode_percentEncode, percentDecode_of_noEscape h, textOfBytes?_eq_some_iff,
    map_toUInt8_utf8]

theorem length_of_textOfBytes? {bytes : List Nat} {s : String} (h : textOfBytes? bytes = some s) :
    (s.toList.flatMap utf8).length = bytes.length := by
  rw [textOfBytes?_eq_some_iff, ← map_toUInt8_utf8] at h
  have hlength := congrArg List.length h
  rw [List.length_map, List.length_map] at hlength
  exact hlength.symm

end Datebook.Url
