/-
  Datebook/Proofs/Transcript/Growth.lean
  ======================================
  **A transcript only grows**, whatever it was before: also one that was read from
  a text, where times may run backwards and ids may stand twice.

  Nothing is assumed of the entries that are there.  A change keeps every entry at
  its place, and all of it but the words of the last one (`ContinuedBy`); an entry
  that is added has the later of its own time and that of the entry before it, once
  and for all (`Placed`).  Both are kept by every further change, so the run goes
  forward from any start, and needs no order of the entries before.
-/
import Datebook.Proofs.Time.Order
import Datebook.Proofs.Transcript.Json

namespace Datebook.Transcript

/-! ### Single changes -/

/-- Every entry of `s` stands at its place in `t`, and at most the last of them has
    other words there. -/
def ContinuedBy (s t : Transcript) : Prop :=
  ∀ i e, s.entries[i]? = some e →
    ∃ message, t.entries[i]? = some { e with message } ∧ (i + 1 < s.length → message = e.message)

variable {s t u : Transcript}

theorem ContinuedBy.refl (t : Transcript) : t.ContinuedBy t :=
  fun _ e he => ⟨e.message, he, fun _ => rfl⟩

theorem ContinuedBy.length_le (h : s.ContinuedBy t) : s.length ≤ t.length := by
  by_contra hlt
  obtain ⟨e, he⟩ : ∃ e, s.entries[t.length]? = some e :=
    ⟨_, List.getElem?_eq_getElem (not_le.mp hlt)⟩
  obtain ⟨message, hmessage, _⟩ := h _ e he
  exact absurd (List.getElem?_eq_some_iff.mp hmessage).1 (Nat.lt_irrefl _)

theorem ContinuedBy.trans (hst : s.ContinuedBy t) (htu : t.ContinuedBy u) : s.ContinuedBy u := by
  intro i e he
  obtain ⟨message, ht, hmessage⟩ := hst i e he
  obtain ⟨message', hu, hmessage'⟩ := htu i _ ht
  refine ⟨message', hu, fun hi => ?_⟩
  rw [hmessage' (Nat.lt_of_lt_of_le hi hst.length_le)]
  exact hmessage hi

theorem continuedBy_push (t : Transcript) (e : Entry) : t.ContinuedBy (t.push e) := by
  intro i x hx
  refine ⟨x.message, ?_, fun _ => rfl⟩
  rw [entries_push, List.getElem?_append_left (List.getElem?_eq_some_iff.mp hx).1]
  exact hx

theorem endsWith_eq_true_iff {id : Uuid} :
    t.endsWith id = true ↔ ∃ before e, t.entries = before ++ [e] ∧ e.id = id := by
  rw [endsWith]
  cases hlast : t.last? with
  | none =>
    rw [last?, List.getLast?_eq_none_iff] at hlast
    simp [hlast]
  | some e =>
    obtain ⟨before, hentries⟩ := last?_eq_some_iff.mp hlast
    simp [hentries]

theorem replaceLast_of_endsWith {before : List Entry} {e : Entry} (h : t.entries = before ++ [e])
    (message : String) : (t.replaceLast e.id message).entries = before ++ [{ e with message }] := by
  have hlast : t.last? = some e := last?_eq_some_iff.mpr ⟨before, h⟩
  simp [replaceLast, hlast, h]

theorem replaceLast_of_not_endsWith {id : Uuid} (h : t.endsWith id = false) (message : String) :
    t.replaceLast id message = t := by
  rw [endsWith] at h
  rw [replaceLast]
  cases hlast : t.last? with
  | none => rfl
  | some e =>
    rw [hlast] at h
    exact if_neg (beq_eq_false_iff_ne.mp h)

theorem continuedBy_replaceLast (t : Transcript) (id : Uuid) (message : String) :
    t.ContinuedBy (t.replaceLast id message) := by
  cases hends : t.endsWith id with
  | false =>
    rw [replaceLast_of_not_endsWith hends]
    exact .refl t
  | true =>
    obtain ⟨before, e, hentries, rfl⟩ := endsWith_eq_true_iff.mp hends
    intro i x hx
    rw [hentries] at hx
    rw [replaceLast_of_endsWith hentries, length, hentries]
    by_cases hi : i < before.length
    · rw [List.getElem?_append_left hi] at hx ⊢
      exact ⟨x.message, hx, fun _ => rfl⟩
    · rw [List.getElem?_append_right (not_lt.mp hi), List.getElem?_singleton] at hx ⊢
      split at hx
      · rename_i hzero
        cases hx
        refine ⟨message, by rw [if_pos hzero], fun hlast => ?_⟩
        rw [List.length_append, List.length_singleton] at hlast
        omega
      · cases hx

theorem length_replaceLast (t : Transcript) (id : Uuid) (message : String) :
    (t.replaceLast id message).length = t.length := by
  have hids := map_replaceLast (f := Entry.id) (fun _ _ => rfl) t id message
  simpa [length] using congrArg List.length hids

/-! ### Entries that were added -/

/-- At this place stands what became of `e`: its own id, intent and speaker, and the later of
    its own time and that of the entry before it. -/
def Placed (t : Transcript) (i : Nat) (e : Entry) : Prop :=
  ∃ x, t.entries[i]? = some x ∧ x.id = e.id ∧ x.intent = e.intent ∧ x.speaker = e.speaker ∧
    (i = 0 → x.time = e.time) ∧
    ∀ j previous, i = j + 1 → t.entries[j]? = some previous → x.time = max e.time previous.time

theorem exists_clamp_eq (t : Transcript) (e : Entry) : ∃ time, t.clamp e = { e with time } := by
  rw [clamp]
  split
  · exact ⟨_, rfl⟩
  · exact ⟨e.time, rfl⟩

theorem placed_push (t : Transcript) (e : Entry) : (t.push e).Placed t.length e := by
  obtain ⟨time, htime⟩ := exists_clamp_eq t e
  refine ⟨t.clamp e, ?_, ?_, ?_, ?_, ?_, ?_⟩
  · rw [entries_push]
    exact List.getElem?_concat_length
  · rw [htime]
  · rw [htime]
  · rw [htime]
  · intro hzero
    have hempty : t.last? = none := List.getLast?_eq_none_iff.mpr (List.length_eq_zero_iff.mp hzero)
    simp only [clamp, hempty]
  · intro j previous hj hprevious
    have hlt : j < t.entries.length := by
      change t.entries.length = j + 1 at hj
      omega
    rw [entries_push, List.getElem?_append_left hlt] at hprevious
    have hlast : t.last? = some previous := by
      rw [last?, List.getLast?_eq_getElem?, ← hprevious]
      congr 1
      change t.entries.length = j + 1 at hj
      omega
    simp only [clamp, hlast, Instant.latest_eq_max]

/-- Where an entry was placed it stays, with its time. -/
theorem Placed.of_continuedBy {i : Nat} {e : Entry} (h : t.Placed i e) (htu : t.ContinuedBy u) :
    u.Placed i e := by
  obtain ⟨x, hx, hid, hintent, hspeaker, hfirst, hbehind⟩ := h
  obtain ⟨message, hmessage, _⟩ := htu i x hx
  refine ⟨_, hmessage, hid, hintent, hspeaker, hfirst, ?_⟩
  intro j previous hj hprevious
  have hlt : j < t.entries.length := by
    have := (List.getElem?_eq_some_iff.mp hx).1
    omega
  -- the entry before has kept its time as well
  have hmax := hbehind j _ hj (List.getElem?_eq_getElem hlt)
  obtain ⟨message', hmessage', _⟩ := htu j _ (List.getElem?_eq_getElem hlt)
  rw [hmessage', Option.some.injEq] at hprevious
  rw [← hprevious]
  exact hmax

/-! ### Any number of changes -/

namespace Change

/-- The entry that a change adds, before its time is looked at. -/
def added? : Change → Option Entry
  | .append stamp intent speaker message =>
    some { id := stamp.id, intent, speaker, message, time := stamp.time }
  | .push e => some e
  | .replaceLast .. | .clear | .load _ => none

/-- The change leaves what is there, and at most replaces the last words. -/
def Extends : Change → Prop
  | .append .. | .push _ | .replaceLast .. => True
  | .clear | .load _ => False

end Change

theorem apply_of_added? {c : Change} {e : Entry} (h : c.added? = some e) : t.apply c = t.push e := by
  cases c with
  | append | push =>
    cases h
    rfl
  | replaceLast | clear | load => cases h

theorem apply_of_not_added? {c : Change} (h : c.added? = none) (hc : c.Extends) :
    ∃ id message, t.apply c = t.replaceLast id message := by
  cases c with
  | append | push => cases h
  | replaceLast id message => exact ⟨id, message, rfl⟩
  | clear | load => exact hc.elim

/-- What changes make of a transcript, whatever it is: the entries that were there, and
    behind them the ones that were added, each at its place. -/
theorem continuedBy_foldl {changes : List Change} (h : ∀ c ∈ changes, c.Extends) (s : Transcript) :
    s.ContinuedBy (changes.foldl apply s) ∧
      (changes.foldl apply s).length = s.length + (changes.filterMap Change.added?).length ∧
      ∀ i e, (changes.filterMap Change.added?)[i]? = some e →
        (changes.foldl apply s).Placed (s.length + i) e := by
  induction changes generalizing s with
  | nil => exact ⟨.refl s, rfl, fun i e he => by cases he⟩
  | cons c changes ih =>
    obtain ⟨hcontinued, hlength, hplaced⟩ := ih (fun x hx => h x (by simp [hx])) (s.apply c)
    rw [List.foldl_cons]
    cases hadded : c.added? with
    | none =>
      obtain ⟨id, message, happly⟩ := apply_of_not_added? (t := s) hadded (h c (by simp))
      rw [happly] at hcontinued hlength hplaced ⊢
      rw [length_replaceLast] at hlength hplaced
      rw [List.filterMap_cons_none hadded]
      exact ⟨(continuedBy_replaceLast s id message).trans hcontinued, hlength, hplaced⟩
    | some e =>
      have happly : s.apply c = s.push e := apply_of_added? hadded
      have hpush : (s.push e).length = s.length + 1 := by simp [length]
      rw [happly] at hcontinued hlength hplaced ⊢
      rw [List.filterMap_cons_some hadded]
      refine ⟨(continuedBy_push s e).trans hcontinued, ?_, ?_⟩
      · rw [hlength, hpush, List.length_cons]
        omega
      · intro i x hx
        cases i with
        | zero =>
          cases hx
          exact (placed_push s e).of_continuedBy hcontinued
        | succ i =>
          have hrest := hplaced i x hx
          rwa [hpush, show s.length + 1 + i = s.length + (i + 1) by omega] at hrest

/-- From the last entry of the start on, times never go back. -/
theorem time_le_of_placed {added : List Entry} {k : Nat} (hlength : t.length = k + added.length)
    (hplaced : ∀ i e, added[i]? = some e → t.Placed (k + i) e) {i j : Nat} {x y : Entry}
    (hi : k ≤ i + 1) (hij : i ≤ j) (hx : t.entries[i]? = some x) (hy : t.entries[j]? = some y) :
    x.time ≤ y.time := by
  induction j, hij using Nat.le_induction generalizing y with
  | base =>
    rw [hx, Option.some.injEq] at hy
    exact le_of_eq (congrArg Entry.time hy)
  | succ j hij ih =>
    have hj : j + 1 < t.entries.length := (List.getElem?_eq_some_iff.mp hy).1
    have hprevious : t.entries[j]? = some t.entries[j] := List.getElem?_eq_getElem (by omega)
    have hnew : j + 1 - k < added.length := by
      change t.entries.length = k + added.length at hlength
      omega
    obtain ⟨y', hy', _, _, _, _, hbehind⟩ := hplaced _ _ (List.getElem?_eq_getElem hnew)
    rw [show k + (j + 1 - k) = j + 1 by omega] at hy' hbehind
    rw [hy, Option.some.injEq] at hy'
    subst hy'
    rw [hbehind j _ rfl hprevious]
    exact (ih hprevious).trans (le_max_right _ _)

/-- **Adding and replacing words leave what was said**, from any start.  The entries of the
    start stay where they are, and all but the last of them as they are.  Behind them
    stand the entries that were added, in their order, with the later of their own time
    and that of the entry before; so from the last entry of the start on, times never go
    back.  Words are replaced exactly where the last entry has the id, and there alone.
    A model is given who said what, entry by entry. -/
theorem continued_and_placed (start : Transcript) (changes : List Change)
    (h : ∀ c ∈ changes, c.Extends) :
    let t := changes.foldl apply start
    let added := changes.filterMap Change.added?
    (start.ContinuedBy t ∧ t.length = start.length + added.length ∧
      (∀ i e, added[i]? = some e → t.Placed (start.length + i) e) ∧
      ∀ i j x y, start.length ≤ i + 1 → i ≤ j → t.entries[i]? = some x → t.entries[j]? = some y →
        x.time ≤ y.time) ∧
    (∀ e, ∃ time, (t.push e).entries = t.entries ++ [{ e with time }]) ∧
    (∀ id, t.endsWith id = true ↔ ∃ before e, t.entries = before ++ [e] ∧ e.id = id) ∧
    (∀ before e message, t.entries = before ++ [e] →
      (t.replaceLast e.id message).entries = before ++ [{ e with message }]) ∧
    (∀ id message, t.endsWith id = false → t.replaceLast id message = t) ∧
    t.messages.length = t.length ∧
    ∀ (i : Nat) (e : Entry), t.entries[i]? = some e →
      t.messages[i]? = some ⟨e.speaker, e.message⟩ := by
  intro t added
  obtain ⟨hcontinued, hlength, hplaced⟩ := continuedBy_foldl h start
  refine ⟨⟨hcontinued, hlength, hplaced, ?_⟩, ?_, ?_, ?_, ?_, ?_, ?_⟩
  · intro i j x y hi hij hx hy
    exact time_le_of_placed hlength hplaced hi hij hx hy
  · intro e
    obtain ⟨time, htime⟩ := exists_clamp_eq t e
    exact ⟨time, by rw [entries_push, htime]⟩
  · intro id
    exact endsWith_eq_true_iff
  · intro before e message hentries
    exact replaceLast_of_endsWith hentries message
  · intro id message hends
    exact replaceLast_of_not_endsWith hends message
  · exact List.length_map _
  · intro i e he
    rw [messages, List.getElem?_map, he, Option.map_some]

/-- Nine in the morning of a day in March. -/
def march (day : Nat) (h : Date.Exists 2024 3 day) : Instant :=
  ⟨⟨⟨2024, 3, day, h⟩, ⟨9, 0, 0, 0, by decide⟩⟩⟩

/-- A transcript in which one id stands twice and time runs backwards. -/
def backwards : Transcript :=
  ⟨[ { id := Uuid.random 1, intent := 5, speaker := .user, message := "first",
       time := march 20 (by decide) },
     { id := Uuid.random 1, intent := 5, speaker := .assistant, message := "second",
       time := march 10 (by decide) } ]⟩

/-- Words are replaced under an id that is not the last one, and under the one that is; of
    the three entries that are added, one is early, one is late and one is early again. -/
def afterthoughts : List Change :=
  [ .replaceLast (Uuid.random 2) "not the last id",
    .replaceLast (Uuid.random 1) "second, replaced",
    .push
      { id := Uuid.random 1, intent := 3, speaker := .user, message := "early",
        time := march 1 (by decide) },
    .append ⟨Uuid.random 3, march 31 (by decide)⟩ 3 .assistant "late",
    .append ⟨Uuid.random 4, march 2 (by decide)⟩ 4 .user "early again" ]

/-- The start was read from a text. -/
theorem continued_and_placed_backwards :
    let t := afterthoughts.foldl apply backwards
    ofJsonText backwards.jsonText = .ok backwards ∧
      t.entries.map (fun e => (e.message, e.time))
        = [ ("first", march 20 (by decide)), ("second, replaced", march 10 (by decide)),
            ("early", march 10 (by decide)), ("late", march 31 (by decide)),
            ("early again", march 31 (by decide)) ] ∧
      backwards.ContinuedBy t ∧
      ∀ i e, (afterthoughts.filterMap Change.added?)[i]? = some e →
        t.Placed (backwards.length + i) e := by
  intro t
  have hfits : backwards.Fits := by simp [Fits, backwards, isInt64]
  have hregular : ∀ e ∈ backwards.entries, e.time.Regular := by decide
  have hextends : ∀ c ∈ afterthoughts, c.Extends := by simp [afterthoughts, Change.Extends]
  obtain ⟨⟨hcontinued, _, hplaced, _⟩, _⟩ := continued_and_placed backwards afterthoughts hextends
  exact ⟨ofJsonText_jsonText_iff.mpr ⟨hfits, hregular⟩, by decide +kernel, hcontinued, hplaced⟩

end Datebook.Transcript
