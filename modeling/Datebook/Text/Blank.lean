/-
  Datebook/Text/Blank.lean
  ========================
  **White space** in the two senses this library needs.

    * `isBlank` — the Unicode property `White_Space`.  People paste replies and
      settings from anywhere, so trimming and the datetime readers use this set.
    * `isGap` — space, tab, carriage return and line feed only.  This is what
      the command language allows between its tokens; a no-break space inside a
      call is a mistake that the reader reports.

  Scanners work on `List Char`, so that they recurse on the text itself; the
  `String` forms are wrappers.  `trim` is the composition of its two halves, and
  both halves are idempotent (`trimStart_trimStart`, `trimEnd_trimEnd`).
-/
namespace Datebook.Text

/-- The Unicode property `White_Space`, as code point ranges. -/
def isBlank (c : Char) : Bool :=
  let n := c.toNat
  (0x09 ≤ n && n ≤ 0x0D) || n == 0x20 || n == 0x85 || n == 0xA0 || n == 0x1680 ||
    (0x2000 ≤ n && n ≤ 0x200A) || n == 0x2028 || n == 0x2029 || n == 0x202F ||
    n == 0x205F || n == 0x3000

/-- The separators of the command language. -/
def isGap (c : Char) : Bool :=
  c == ' ' || c == '\t' || c == '\r' || c == '\n'

/-- Every separator of the command language is Unicode white space. -/
theorem isBlank_of_isGap {c : Char} (h : isGap c = true) : isBlank c = true := by
  simp only [isGap, Bool.or_eq_true, beq_iff_eq] at h
  rcases h with ((rfl | rfl) | rfl) | rfl <;> decide

/-! ### Trimming -/

def trimStart (cs : List Char) : List Char := cs.dropWhile isBlank

def trimEnd (cs : List Char) : List Char := (cs.reverse.dropWhile isBlank).reverse

/-- Drop the white space at both ends. -/
def trim (cs : List Char) : List Char := trimEnd (trimStart cs)

/-- Drop every `c` at both ends. -/
def trimChar (c : Char) (cs : List Char) : List Char :=
  ((cs.dropWhile (· == c)).reverse.dropWhile (· == c)).reverse

theorem dropWhile_dropWhile (p : Char → Bool) (cs : List Char) :
    (cs.dropWhile p).dropWhile p = cs.dropWhile p := by
  induction cs with
  | nil => rfl
  | cons c cs ih =>
    by_cases h : p c = true
    · simp [h, ih]
    · simp [h]

theorem trimStart_trimStart (cs : List Char) : trimStart (trimStart cs) = trimStart cs :=
  dropWhile_dropWhile isBlank cs

theorem trimEnd_trimEnd (cs : List Char) : trimEnd (trimEnd cs) = trimEnd cs := by
  simp [trimEnd, dropWhile_dropWhile]

end Datebook.Text

namespace Datebook

/-- The text without the white space at its ends. -/
def trimText (s : String) : String := String.ofList (Text.trim s.toList)

/-- The text without the white space at its end. -/
def trimTextEnd (s : String) : String := String.ofList (Text.trimEnd s.toList)

end Datebook
