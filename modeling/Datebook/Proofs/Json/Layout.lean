/-
  Datebook/Proofs/Json/Layout.lean
  ================================
  **Values are read back from their text**, whatever white space stands between
  them.

  The reader recurses on a bound that every level and every item lowers.  The text
  has a character for each of them, so its own length is bound enough, and this is
  what `ReadAs` carries: the value is read for every bound from the length of its
  text on.

  Items and members are `joined` by commas, with the same white space in front of
  each.  The layout on one line and the one on several differ in this space only.
-/
import Datebook.Proofs.Json.Number

namespace Datebook.Json

open Datebook.Text

/-- The characters are the text of the value. -/
structure ReadAs (cs : List Char) (v : Json) : Prop where
  /-- A value starts with neither white space nor the end of an array. -/
  starts : ∃ c more, cs = c :: more ∧ isSpace c = false ∧ c ≠ ']'
  reads : ∀ fuel rest, cs.length ≤ fuel → EndsNumber rest →
    value? fuel (cs ++ rest) = some (v, rest)

namespace ReadAs

theorem skipSpace_eq {cs : List Char} {v : Json} (h : ReadAs cs v) (rest : List Char) :
    skipSpace (cs ++ rest) = cs ++ rest := by
  obtain ⟨c, more, rfl, hc, -⟩ := h.starts
  exact skipSpace_cons hc _

/-- A text is never empty, so the bound allows one step. -/
theorem of_step {c : Char} {cs : List Char} {v : Json} (hc : isSpace c = false ∧ c ≠ ']')
    (hstep : ∀ fuel rest, (c :: cs).length ≤ fuel + 1 → EndsNumber rest →
      value? (fuel + 1) (c :: cs ++ rest) = some (v, rest)) : ReadAs (c :: cs) v := by
  refine ⟨⟨c, cs, rfl, hc⟩, fun fuel rest hfuel hrest => ?_⟩
  obtain ⟨fuel, rfl⟩ := Nat.exists_eq_succ_of_ne_zero (n := fuel) (by
    rintro rfl
    simp at hfuel)
  exact hstep fuel rest hfuel hrest

/-- A whole text, with nothing around it. -/
theorem read? {s : String} {v : Json} (h : ReadAs s.toList v) : Json.read? s = some v := by
  have hstart := h.skipSpace_eq []
  have hread := h.reads (s.toList.length + 1) [] (by omega) (by simp [EndsNumber])
  have hend : skipSpace [] = [] := rfl
  rw [List.append_nil] at hstart hread
  simp [Json.read?, readChars?, hstart, hread, hend]

/-! ### Leaves -/

theorem null : ReadAs (chars .null) .null := by
  change ReadAs ['n', 'u', 'l', 'l'] .null
  exact of_step (by decide) fun _ _ _ _ => by simp [value?, word?]

theorem bool (b : Bool) : ReadAs (chars (.bool b)) (.bool b) := by
  cases b
  · change ReadAs ['f', 'a', 'l', 's', 'e'] (.bool false)
    exact of_step (by decide) fun _ _ _ _ => by simp [value?, word?]
  · change ReadAs ['t', 'r', 'u', 'e'] (.bool true)
    exact of_step (by decide) fun _ _ _ _ => by simp [value?, word?]

theorem number (p : NumberParts) : ReadAs p.chars (.number (String.ofList p.chars)) := by
  obtain ⟨c, cs, htext, hc⟩ := p.exists_head_chars
  rw [htext]
  refine of_step ⟨hc.isSpace_eq_false, hc.ne (by decide)⟩ fun fuel rest _ hrest => ?_
  have hnumber := p.number?_chars hrest
  rw [htext, List.cons_append] at hnumber
  rw [List.cons_append, value?_number hc, hnumber, Option.map_some]

theorem string (s : String) : ReadAs (quote s.toList) (.string s) :=
  of_step (c := '"') (by decide) fun _ _ _ _ => by simp [value?, string?_quote]

theorem emptyArray : ReadAs ['[', ']'] (.array []) :=
  of_step (by decide) fun _ _ _ _ => by simp [value?, skipSpace_cons (c := ']') (by decide)]

theorem emptyObject : ReadAs ['\x7b', '\x7d'] (.object []) :=
  of_step (by decide) fun _ _ _ _ => by simp [value?, skipSpace_cons (c := '\x7d') (by decide)]

end ReadAs

/-! ### Items and members -/

/-- Texts with commas between them, and white space in front of each. -/
def joined (space : List Char) : List (List Char) → List Char
  | [] => []
  | [t] => space ++ t
  | t :: u :: rest => space ++ t ++ ',' :: joined space (u :: rest)

/-- A member of an object, with white space behind the colon. -/
def memberText (gap : List Char) (text : Json → List Char) (m : String × Json) : List Char :=
  quote m.1.toList ++ ':' :: (gap ++ text m.2)

theorem value?_array {rest : List Char} (h : ∀ r, skipSpace rest ≠ ']' :: r) (fuel : Nat) :
    value? (fuel + 1) ('[' :: rest)
      = (items? fuel (skipSpace rest)).map fun (vs, r) => (.array vs, r) := by
  rw [value?]
  split
  · rename_i r hclose
    exact absurd hclose (h r)
  · rfl

theorem value?_object {rest : List Char} (h : ∀ r, skipSpace rest ≠ '\x7d' :: r) (fuel : Nat) :
    value? (fuel + 1) ('\x7b' :: rest)
      = (members? fuel (skipSpace rest)).map fun (ms, r) => (ofMembers ms, r) := by
  rw [value?]
  split
  · rename_i r hclose
    exact absurd hclose (h r)
  · rfl

theorem ofMembers_some (members : List (String × Json)) :
    ofMembers (members.map fun m => (some m.1, m.2)) = .object members := by
  have hnames : (members.map fun m => (some m.1, m.2)).mapM
      (fun (m : Option String × Json) => m.1.map fun k => (k, m.2)) = some members := by
    rw [List.mapM_map]
    exact List.mapM_pure.trans (by simp)
  simp [ofMembers, hnames]

section

variable {space closing gap : List Char} (hspace : ∀ c ∈ space, isSpace c = true)
  (hclosing : ∀ c ∈ closing, isSpace c = true) (hgap : ∀ c ∈ gap, isSpace c = true)
  (text : Json → List Char)

include hclosing in
/-- White space ends a number, and so does a closing bracket. -/
theorem endsNumber_closing (c : Char) (hc : isDigit c = false ∧ c ≠ '.' ∧ c ≠ 'e' ∧ c ≠ 'E')
    (rest : List Char) : EndsNumber (closing ++ c :: rest) := by
  cases closing with
  | nil => exact .cons hc rest
  | cons d ds =>
    refine .cons ?_ _
    have hd : isSpace d = true := hclosing d (by simp)
    simp only [isSpace, Bool.or_eq_true, beq_iff_eq] at hd
    rcases hd with ((rfl | rfl) | rfl) | rfl <;> decide

include hspace hclosing

theorem items?_joined {items : List Json} (hne : items ≠ [])
    (hread : ∀ v ∈ items, ReadAs (text v) v) {fuel : Nat}
    (hfuel : (joined space (items.map text)).length < fuel) (rest : List Char) :
    items? fuel (skipSpace (joined space (items.map text) ++ (closing ++ ']' :: rest)))
      = some (items, rest) := by
  induction items generalizing fuel with
  | nil => exact absurd rfl hne
  | cons v items ih =>
    have hv := hread v (by simp)
    obtain ⟨fuel, rfl⟩ := Nat.exists_eq_succ_of_ne_zero (Nat.ne_zero_of_lt hfuel)
    cases items with
    | nil =>
      have hlength : (text v).length ≤ fuel := by
        simp [joined] at hfuel
        omega
      have hfirst := hv.reads fuel _ hlength (endsNumber_closing hclosing ']' (by decide) rest)
      rw [List.map_singleton, joined, List.append_assoc, skipSpace_append hspace, hv.skipSpace_eq,
        items?, hfirst]
      simp [skipSpace_append hclosing, skipSpace_cons (c := ']') (by decide)]
    | cons w more =>
      have hlength : (text v).length ≤ fuel ∧
          (joined space ((w :: more).map text)).length < fuel := by
        simp [joined] at hfuel ⊢
        omega
      have hfirst := hv.reads fuel
        (',' :: (joined space ((w :: more).map text) ++ (closing ++ ']' :: rest)))
        hlength.1 (.cons (by decide) _)
      have hmore := ih (by simp) (fun x hx => hread x (by simp [hx])) hlength.2
      rw [List.map_cons] at hfirst hmore
      rw [List.map_cons, List.map_cons, joined, List.append_assoc, List.append_assoc,
        List.cons_append, skipSpace_append hspace, hv.skipSpace_eq, items?, hfirst]
      simp [skipSpace_cons (c := ',') (by decide), hmore]

include hgap in
theorem members?_joined {members : List (String × Json)} (hne : members ≠ [])
    (hread : ∀ m ∈ members, ReadAs (text m.2) m.2) {fuel : Nat}
    (hfuel : (joined space (members.map (memberText gap text))).length < fuel)
    (rest : List Char) :
    members? fuel (skipSpace (joined space (members.map (memberText gap text)) ++
        (closing ++ '\x7d' :: rest)))
      = some (members.map fun m => (some m.1, m.2), rest) := by
  induction members generalizing fuel with
  | nil => exact absurd rfl hne
  | cons m members ih =>
    obtain ⟨k, v⟩ := m
    have hv : ReadAs (text v) v := hread (k, v) (by simp)
    have hname : ∀ cs, skipSpace (memberText gap text (k, v) ++ cs)
        = '"' :: (k.toList.flatMap escapeChar ++ '"' :: ':' :: (gap ++ (text v ++ cs))) := by
      intro cs
      simp [memberText, quote, skipSpace_cons (c := '"') (by decide)]
    have hcolon := skipSpace_cons (c := ':') (by decide)
    obtain ⟨fuel, rfl⟩ := Nat.exists_eq_succ_of_ne_zero (Nat.ne_zero_of_lt hfuel)
    cases members with
    | nil =>
      have hlength : (text v).length ≤ fuel := by
        simp [joined, memberText] at hfuel
        omega
      have hfirst := hv.reads fuel _ hlength (endsNumber_closing hclosing '\x7d' (by decide) rest)
      rw [List.map_singleton, joined, List.append_assoc, skipSpace_append hspace, hname, members?]
      simp [string?_quote, hcolon, skipSpace_append hgap, hv.skipSpace_eq, hfirst,
        skipSpace_append hclosing, skipSpace_cons (c := '\x7d') (by decide)]
    | cons w more =>
      have hlength : (text v).length ≤ fuel ∧
          (joined space ((w :: more).map (memberText gap text))).length < fuel := by
        simp [joined, memberText] at hfuel ⊢
        omega
      have hfirst := hv.reads fuel
        (',' :: (joined space ((w :: more).map (memberText gap text)) ++
          (closing ++ '\x7d' :: rest)))
        hlength.1 (.cons (by decide) _)
      have hmore := ih (by simp) (fun x hx => hread x (by simp [hx])) hlength.2
      rw [List.map_cons] at hfirst hmore
      rw [List.map_cons, List.map_cons, joined, List.append_assoc, List.append_assoc,
        List.cons_append, skipSpace_append hspace, hname, members?]
      simp [string?_quote, hcolon, skipSpace_append hgap, hv.skipSpace_eq, hfirst,
        skipSpace_cons (c := ',') (by decide), hmore]

theorem ReadAs.array {items : List Json} (hne : items ≠ [])
    (hread : ∀ v ∈ items, ReadAs (text v) v) :
    ReadAs ('[' :: (joined space (items.map text) ++ (closing ++ [']']))) (.array items) := by
  refine .of_step (by decide) fun fuel rest hfuel _ => ?_
  have hlength : (joined space (items.map text)).length < fuel := by
    simp at hfuel
    omega
  have hitems := items?_joined hspace hclosing text hne hread hlength rest
  -- the first item does not close the array
  have hopen : ∀ r, skipSpace (joined space (items.map text) ++ (closing ++ ']' :: rest))
      ≠ ']' :: r := by
    cases items with
    | nil => exact absurd rfl hne
    | cons v items =>
      obtain ⟨c, cs, htext, hc, hclose⟩ := (hread v (by simp)).starts
      cases items <;>
        simp [joined, skipSpace_append hspace, htext, skipSpace_cons hc, hclose]
  simp [value?_array hopen, hitems]

include hgap in
theorem ReadAs.object {members : List (String × Json)} (hne : members ≠ [])
    (hread : ∀ m ∈ members, ReadAs (text m.2) m.2) :
    ReadAs ('\x7b' :: (joined space (members.map (memberText gap text)) ++ (closing ++ ['\x7d'])))
      (.object members) := by
  refine .of_step (by decide) fun fuel rest hfuel _ => ?_
  have hlength : (joined space (members.map (memberText gap text))).length < fuel := by
    simp at hfuel
    omega
  have hmembers := members?_joined hspace hclosing hgap text hne hread hlength rest
  -- the first member starts with its name
  have hopen : ∀ r, skipSpace (joined space (members.map (memberText gap text)) ++
      (closing ++ '\x7d' :: rest)) ≠ '\x7d' :: r := by
    cases members with
    | nil => exact absurd rfl hne
    | cons m members =>
      have hquote := skipSpace_cons (c := '"') (by decide)
      cases members <;> simp [joined, skipSpace_append hspace, memberText, quote, hquote]
  simp [value?_object hopen, hmembers, ofMembers_some]

end

end Datebook.Json
