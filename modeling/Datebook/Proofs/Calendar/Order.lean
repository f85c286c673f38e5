/-
  Datebook/Proofs/Calendar/Order.lean
  ===================================
  **The calendar in memory keeps its events in the order in which they came.**

  An event is added at the end, changed at its place, and leaves no gap when it
  goes.  That is said of single operations by `Works`; here it is put together for
  sequences of them.

  Ids do not have to be distinct, and where they are not, changing and removing
  differ: the first event with the id is changed, and all of them are removed.
  But where they are distinct, and the new ones are new (`Fresh`), they stay so.

  What happens while the calendar is unavailable leaves no trace.  Of the steps of
  an outage only the one that ends it matters (`after_withoutOutages`), and without
  any switching at all, the operations that met an available calendar lead to the
  same events (`after_served`).
-/
import Datebook.Proofs.Calendar.Listing
import Datebook.Proofs.Calendar.Operation
import Datebook.Proofs.Text.Numeral
import Mathlib.Data.List.Nodup

namespace Datebook.MemoryCalendar

variable {m m' : MemoryCalendar} {op : Operation} {a : Answer}

theorem after_invariant {P : MemoryCalendar → Prop} (hkeep : ∀ m op, P m → P (m.perform op).2)
    (h : P m) (ops : List Operation) : P (m.after ops) := by
  induction ops generalizing m with
  | nil => exact h
  | cons op ops ih => exact ih (hkeep m op h)

/-! ### Distinct ids -/

/-- The ids of the events to come are new: none is that of a stored event, and none
    comes twice. -/
structure Fresh (m : MemoryCalendar) : Prop where
  apart : ∀ e ∈ m.events, ∀ k, m.ids.used ≤ k → e.id ≠ m.ids.item k
  distinct : ∀ j k, m.ids.used ≤ j → j < k → m.ids.item j ≠ m.ids.item k

theorem Works.ids (h : Works m op a m') :
    (List.Sublist (m'.events.map Event.id) (m.events.map Event.id) ∧ m'.ids = m.ids) ∨
      (m'.events.map Event.id = m.events.map Event.id ++ [m.ids.item m.ids.used] ∧
        m'.ids = m.ids.take.2) := by
  cases h with
  | listed | switched => exact .inl ⟨.refl _, rfl⟩
  | added d =>
    right
    refine ⟨?_, rfl⟩
    change (m.events ++ [_]).map Event.id = _
    rw [List.map_append]
    rfl
  | @updated id before after e d hevents _ he =>
    left
    refine ⟨?_, rfl⟩
    subst he
    change List.Sublist ((before ++ ⟨e.id, _, _, _⟩ :: after).map Event.id) _
    rw [hevents, List.map_append, List.map_append]
    exact .refl _
  | deleted => exact .inl ⟨List.filter_sublist.map _, rfl⟩

theorem ids_perform (m : MemoryCalendar) (op : Operation) :
    (List.Sublist ((m.perform op).2.events.map Event.id) (m.events.map Event.id) ∧
        (m.perform op).2.ids = m.ids) ∨
      ((m.perform op).2.events.map Event.id =
          m.events.map Event.id ++ [m.ids.item m.ids.used] ∧
        (m.perform op).2.ids = m.ids.take.2) := by
  rcases works_or_refused m op with ⟨hserved, a, m', hworks⟩ | ⟨fault, hrefused⟩
  · rw [perform_of_works hserved hworks]
    exact hworks.ids
  · rw [perform_of_refused hrefused]
    exact .inl ⟨.refl _, rfl⟩

theorem Fresh.perform (h : m.Fresh) (op : Operation) : (m.perform op).2.Fresh := by
  rcases ids_perform m op with ⟨hsublist, hids⟩ | ⟨hevents, hids⟩
  · constructor
    · intro e he k hk
      rw [hids] at hk ⊢
      obtain ⟨e', he', heq⟩ := List.mem_map.mp (hsublist.subset (List.mem_map_of_mem he))
      rw [← heq]
      exact h.apart e' he' k hk
    · rw [hids]
      exact h.distinct
  · constructor
    · intro e he k hk
      rw [hids] at hk ⊢
      have hmem := List.mem_map_of_mem (f := Event.id) he
      rw [hevents, List.mem_append, List.mem_singleton] at hmem
      rcases hmem with hold | hnew
      · obtain ⟨e', he', heq⟩ := List.mem_map.mp hold
        rw [← heq]
        exact h.apart e' he' k (Nat.le_of_succ_le hk)
      · rw [hnew]
        exact h.distinct _ k (Nat.le_refl _) hk
    · intro j k hj hjk
      rw [hids] at hj ⊢
      exact h.distinct j k (Nat.le_of_succ_le hj) hjk

theorem nodup_perform (h : m.Fresh) (hids : (m.events.map (·.id)).Nodup) (op : Operation) :
    ((m.perform op).2.events.map (·.id)).Nodup := by
  rcases ids_perform m op with ⟨hsublist, _⟩ | ⟨hevents, _⟩
  · exact hids.sublist hsublist
  · rw [hevents, List.nodup_append]
    refine ⟨hids, List.nodup_singleton _, ?_⟩
    intro id hid new hnew
    obtain ⟨e, he, rfl⟩ := List.mem_map.mp hid
    rw [List.mem_singleton.mp hnew]
    exact h.apart e he _ (Nat.le_refl _)

/-- **Distinct ids stay distinct**, through any operations. -/
theorem nodup_after (h : m.Fresh) (hids : (m.events.map (·.id)).Nodup) (ops : List Operation) :
    (m.after ops).Fresh ∧ ((m.after ops).events.map (·.id)).Nodup := by
  apply after_invariant (P := fun m => m.Fresh ∧ (m.events.map (·.id)).Nodup)
  · rintro m op ⟨hfresh, hids⟩
    exact ⟨hfresh.perform op, nodup_perform hfresh hids op⟩
  · exact ⟨h, hids⟩

/-! ### Outages -/

/-- The steps without those of outages: a step that meets the calendar unavailable and
    leaves it so is left out. -/
def Operation.withoutOutages : Bool → List Operation → List Operation
  | _, [] => []
  | available, op :: ops =>
    let later := withoutOutages (op.leaves available) ops
    if available || op.leaves available then op :: later else later

/-- Of the steps, the operations that met an available calendar; switching is left out. -/
def Operation.served : Bool → List Operation → List Operation
  | _, [] => []
  | available, op :: ops =>
    let later := served (op.leaves available) ops
    if available && !op.isSwitch then op :: later else later

theorem setAvailable_self {available : Bool} (h : m.store.available = available) :
    m.setAvailable available = m := by
  obtain ⟨⟨events, available'⟩, ids⟩ := m
  cases h
  rfl

theorem available_perform (m : MemoryCalendar) (op : Operation) :
    (m.perform op).2.store.available = op.leaves m.store.available := by
  rcases works_or_refused m op with ⟨hserved, a, m', hworks⟩ | ⟨fault, hrefused⟩
  · rw [perform_of_works hserved hworks]
    cases hworks <;> rfl
  · rw [perform_of_refused hrefused]
    cases hrefused with
    | unavailable hswitch =>
      cases op with
      | setAvailable => cases hswitch
      | list | add | update | delete => rfl
    | notFound _ htarget =>
      cases op with
      | update | delete => rfl
      | list | add | setAvailable => cases htarget

theorem perform_of_outage (havailable : m.store.available = false)
    (hleaves : op.leaves false = false) : (m.perform op).2 = m := by
  cases hswitch : op.isSwitch with
  | false => rw [perform_of_refused (.unavailable hswitch havailable)]
  | true =>
    cases op with
    | list | add | update | delete => cases hswitch
    | setAvailable available =>
      obtain rfl : available = false := hleaves
      exact setAvailable_self havailable

/-- **Of an outage only its end matters.** -/
theorem after_withoutOutages (m : MemoryCalendar) (ops : List Operation) :
    m.after (Operation.withoutOutages m.store.available ops) = m.after ops := by
  -- each step leaves another calendar, and it is there that the next one is judged
  induction ops generalizing m with
  | nil => rfl
  | cons op ops ih =>
    have hlater := ih (m.perform op).2
    rw [available_perform] at hlater
    rw [Operation.withoutOutages]
    split
    · rw [after_cons, after_cons, hlater]
    -- the step is part of an outage
    · rename_i houtage
      simp only [Bool.or_eq_true, not_or, Bool.not_eq_true] at houtage
      obtain ⟨havailable, hleaves⟩ := houtage
      rw [havailable] at hleaves
      have hnothing := perform_of_outage havailable hleaves
      rw [hnothing] at hlater
      rw [after_cons, hnothing, hlater]

/-- **Switching aside, what met an available calendar has done it all.** -/
theorem after_served (m : MemoryCalendar) (ops : List Operation) :
    (m.setAvailable true).after (Operation.served m.store.available ops) =
      (m.after ops).setAvailable true := by
  induction ops generalizing m with
  | nil => rfl
  | cons op ops ih =>
    have hlater := ih (m.perform op).2
    rw [available_perform] at hlater
    rw [Operation.served, after_cons, ← hlater]
    split
    · rename_i hserved
      simp only [Bool.and_eq_true, Bool.not_eq_true'] at hserved
      obtain ⟨havailable, hswitch⟩ := hserved
      have hleft : (m.perform op).2.store.available = true := by
        rw [available_perform, havailable]
        cases op with
        | setAvailable => cases hswitch
        | list | add | update | delete => rfl
      rw [after_cons, setAvailable_self havailable, setAvailable_self hleft]
    · rename_i hidle
      have hnothing : (m.perform op).2.setAvailable true = m.setAvailable true := by
        cases hswitch : op.isSwitch with
        | true =>
          cases op with
          | setAvailable => rfl
          | list | add | update | delete => cases hswitch
        | false =>
          have havailable : m.store.available = false := by simpa [hswitch] using hidle
          rw [perform_of_refused (.unavailable hswitch havailable)]
      rw [hnothing]

/-! ### The order of the events -/

/-- **The calendar in memory keeps its events in the order in which they came.**

    An operation fails exactly if the calendar is unavailable or has no event with the
    id that is asked for, and then nothing has changed.  One that succeeds has done
    what `Works` says of it.  A listing has the events in their order, with their
    places as ordinals, in decimal.

    Through any operations distinct ids stay distinct.  The steps of outages can be
    left out, except for those that end them; and without any switching, the
    operations that met an available calendar give the same events. -/
theorem insertion_ordered :
    (∀ (m : MemoryCalendar) (op : Operation),
      ((∃ failure, (m.perform op).1 = .error failure) ↔ op.isSwitch = false ∧
        (m.store.available = false ∨ ∃ id, op.target? = some id ∧ ∀ e ∈ m.events, e.id ≠ id)) ∧
      (∀ failure, (m.perform op).1 = .error failure → (m.perform op).2 = m) ∧
      ∀ a, (m.perform op).1 = .ok a → Works m op a (m.perform op).2) ∧
    (∀ es : List Event, (listing es).length = es.length ∧
      ∀ n : Nat, (listing es)[n]? =
        es[n]?.map fun e => ⟨natText n, e.id, e.subject, e.start, e.finish⟩) ∧
    ∀ m : MemoryCalendar,
      (m.Fresh → (m.events.map (·.id)).Nodup →
        ∀ ops, ((m.after ops).events.map (·.id)).Nodup) ∧
      ∀ ops, m.after (Operation.withoutOutages m.store.available ops) = m.after ops ∧
        ((m.setAvailable true).after (Operation.served m.store.available ops)).events =
          (m.after ops).events := by
  refine ⟨fun m op => ⟨?_, ?_, ?_⟩, fun es => ⟨length_listing es, getElem?_listing es⟩,
    fun m => ⟨?_, fun ops => ⟨after_withoutOutages m ops, ?_⟩⟩⟩
  · rw [← exists_refused_iff]
    constructor
    · rintro ⟨failure, hfailure⟩
      obtain ⟨_, fault, _, hrefused⟩ := perform_eq_error_iff.mp (Prod.ext hfailure rfl)
      exact ⟨fault, hrefused⟩
    · rintro ⟨fault, hrefused⟩
      rw [perform_of_refused hrefused]
      exact ⟨_, rfl⟩
  · intro failure hfailure
    exact (perform_eq_error_iff.mp (Prod.ext hfailure rfl)).1
  · intro a ha
    exact (perform_eq_ok_iff.mp (Prod.ext ha rfl)).2
  · intro hfresh hids ops
    exact (nodup_after hfresh hids ops).2
  · rw [after_served]
    rfl

/-- A calendar with these events; the ids of later ones are the numerals from 0. -/
def numbered (events : List Event) : MemoryCalendar := ⟨.ofEvents events, ⟨natText, 0⟩⟩

theorem fresh_numbered {events : List Event}
    (h : ∀ e ∈ events, e.id.toList.all Text.isDigit = false) : (numbered events).Fresh where
  apart e he k _ heq := by
    have hchars : e.id.toList = Text.numeral k := by
      rw [heq]
      exact String.toList_ofList
    have hdigits := h e he
    rw [hchars, List.all_eq_false] at hdigits
    obtain ⟨c, hc, hdigit⟩ := hdigits
    exact hdigit (Text.isDigit_of_mem_numeral hc)
  distinct j k _ hjk heq := absurd (natText_injective heq) (Nat.ne_of_lt hjk)

/-- Two events, one of which gets new contents, and during an outage an attempt to add a
    third. -/
theorem insertion_ordered_outage :
    let m := numbered [⟨"a", "Lunch", "", ""⟩, ⟨"b", "Tea", "", ""⟩]
    let noon : DateTime := ⟨⟨2024, 1, 1, by decide⟩, ⟨12, 0, 0, 0, by decide⟩⟩
    let d : EventDetails := ⟨"Walk", noon, noon⟩
    let outage := [.setAvailable false, .add d, .delete "b", .setAvailable true]
    (∃ failure, (m.perform (.delete "c")).1 = .error failure) ∧
    Works m (.delete "a") .done (m.perform (.delete "a")).2 ∧
    (Works m (.update "b" d) .done (m.perform (.update "b" d)).2 ∧
      (m.perform (.update "b" d)).2.events =
        [⟨"a", "Lunch", "", ""⟩, ⟨"b", "Walk", "2024-01-01T12:00:00", "2024-01-01T12:00:00"⟩]) ∧
    ((m.after (.add d :: outage)).events.map (·.id)).Nodup ∧
    (m.after [.add d, .setAvailable true, .update "b" d]) =
      m.after (.add d :: outage ++ [.update "b" d]) ∧
    (m.after [.add d, .update "b" d]).events =
      (m.after (.add d :: outage ++ [.update "b" d])).events := by
  intro m noon d outage
  have hfresh : m.Fresh := fresh_numbered (by decide +kernel)
  have hids : (m.events.map (·.id)).Nodup := by decide +kernel
  obtain ⟨hoperations, _, hsequences⟩ := insertion_ordered
  obtain ⟨hnodup, herased⟩ := hsequences m
  refine ⟨?_, ?_, ⟨?_, by decide +kernel⟩, hnodup hfresh hids _, ?_, ?_⟩
  · exact (hoperations m (.delete "c")).1.mpr ⟨rfl, .inr ⟨"c", rfl, by decide⟩⟩
  · exact (hoperations m (.delete "a")).2.2 _ rfl
  · exact (hoperations m (.update "b" d)).2.2 _ rfl
  · exact (herased (.add d :: outage ++ [.update "b" d])).1
  · exact (herased (.add d :: outage ++ [.update "b" d])).2

end Datebook.MemoryCalendar
