/-
  Datebook/Proofs/Uuid.lean
  =========================
  **An identifier is read back from its hyphenated text.**

  The five groups have fixed widths, so the hyphens stand where the reader looks
  for them, and what is left without them is the run of 32 digits.
-/
import Datebook.Uuid

namespace Datebook.Uuid

open Datebook.Text

@[simp] theorem hexDigit?_hexDigit (d : Fin 16) : hexDigit? (hexDigit d.val) = some d := by
  simp [hexDigit?, hexValue?_hexDigit d.isLt]

theorem mapM_hexDigit?_hexChars (ds : List (Fin 16)) : (hexChars ds).mapM hexDigit? = some ds := by
  have hpure : (hexDigit? ∘ fun d : Fin 16 => hexDigit d.val) = pure := funext hexDigit?_hexDigit
  rw [hexChars, List.mapM_map, hpure, List.mapM_pure]
  simp

theorem ofHex?_hexChars (u : Uuid) : ofHex? (hexChars u.digits) = some u := by
  simp [ofHex?, mapM_hexDigit?_hexChars, u.isFull]

theorem ofHyphenated?_groups {a b c d e : List Char} (ha : a.length = 8) (hb : b.length = 4)
    (hc : c.length = 4) (hd : d.length = 4) (he : e.length = 12) :
    ofHyphenated? (a ++ '-' :: (b ++ '-' :: (c ++ '-' :: (d ++ '-' :: e))))
      = ofHex? (a ++ b ++ c ++ d ++ e) := by
  rw [ofHyphenated?, if_pos (by simp [ha, hb, hc, hd, he])]
  simp (disch := omega) [List.drop_append, List.drop_eq_nil_of_le, ha, hb, hc, hd]

theorem read?_text (u : Uuid) : read? u.text = some u := by
  have hlength : (hexChars u.digits).length = 32 := by
    simp [hexChars, u.isFull]
  have hdigits := ofHex?_hexChars u
  -- every group is what `take` and `drop` cut out of the 32 digits
  have htext : u.text.toList = u.chars := by simp [text]
  have hgroups : ofHyphenated? u.chars = some u := by
    rw [← hdigits, chars]
    simp only [List.append_assoc, List.cons_append]
    rw [ofHyphenated?_groups (by simp [hlength]) (by simp [hlength]) (by simp [hlength])
      (by simp [hlength]) (by simp [hlength])]
    congr 1
    generalize hexChars u.digits = ds
    have h12 : ds.drop 12 = (ds.drop 8).drop 4 := by simp
    have h16 : ds.drop 16 = (ds.drop 12).drop 4 := by simp
    have h20 : ds.drop 20 = (ds.drop 16).drop 4 := by simp
    rw [List.append_assoc, h20, List.take_append_drop, List.append_assoc, h16,
      List.take_append_drop, List.append_assoc, h12, List.take_append_drop, List.take_append_drop]
  have hwhole : u.chars.length = 36 := by
    simp [chars, hlength]
  simp [read?, htext, readChars?, hwhole, hgroups]

end Datebook.Uuid
