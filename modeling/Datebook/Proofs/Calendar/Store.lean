/-
  Datebook/Proofs/Calendar/Store.lean
  ===================================
  **When an operation on a store succeeds, and what it leaves.**

  One equivalence for each operation: it succeeds exactly if the store is
  available and holds what the operation asks for, and then leaves these events.
  Two lemmas say what updating and deleting do where the ids are distinct: of
  the events before and behind the one that is meant, nothing changes.
-/
import Datebook.Calendar.Store

namespace Datebook.Store

variable {s s' : Store} {id : String} {d : EventDetails}

/-! ### Operations -/

theorem list_eq_ok_iff {l : Listing} :
    s.list = .ok l ↔ s.available = true ∧ l = listing s.events := by
  cases h : s.available with
  | false => simp [list, contents, h, Except.map]
  | true =>
    simpa [list, contents, h, Except.map] using eq_comm

theorem add_eq_ok_iff : s.add id d = .ok s' ↔
    s.available = true ∧ s' = { s with events := s.events ++ [d.event id] } := by
  cases h : s.available with
  | false => simp [add, contents, h, bind, Except.bind]
  | true =>
    simpa [add, contents, h, bind, Except.bind, pure, Except.pure] using eq_comm

theorem update_eq_ok_iff : s.update id d = .ok s' ↔
    s.available = true ∧
      ∃ es, updateFirst? id d s.events = some es ∧ s' = { s with events := es } := by
  cases h : s.available with
  | false => simp [update, contents, h, bind, Except.bind]
  | true =>
    cases hes : updateFirst? id d s.events with
    | none => simp [update, contents, h, hes, bind, Except.bind]
    | some es =>
      simpa [update, contents, h, hes, bind, Except.bind, pure, Except.pure] using eq_comm

theorem delete_eq_ok_iff : s.delete id = .ok s' ↔
    s.available = true ∧ (∃ e ∈ s.events, e.id = id) ∧
      s' = { s with events := s.events.filter (·.id != id) } := by
  cases h : s.available with
  | false => simp [delete, contents, h, bind, Except.bind]
  | true =>
    by_cases hes : ∃ e ∈ s.events, e.id = id
    · simp [delete, contents, h, hes, bind, Except.bind, pure, Except.pure]
      exact eq_comm
    · simp [delete, contents, h, hes, bind, Except.bind]

/-! ### Operations that fail -/

theorem contents_of_unavailable (h : s.available = false) : s.contents = .error .unavailable := by
  rw [contents, h]
  rfl

theorem delete_of_missing (havailable : s.available = true) (hnone : ∀ e ∈ s.events, e.id ≠ id) :
    s.delete id = .error (.notFound id) := by
  have hany : s.events.any (·.id == id) = false := by simpa using hnone
  simp only [delete, contents, havailable, if_true, bind, Except.bind, hany]
  rfl

/-! ### The event that is meant -/

theorem updateFirst?_append {before : List Event} (hbefore : ∀ x ∈ before, x.id ≠ id)
    {e : Event} (he : e.id = id) (d : EventDetails) (after : List Event) :
    updateFirst? id d (before ++ e :: after) = some (before ++ e.withDetails d :: after) := by
  induction before with
  | nil => simp [updateFirst?, he]
  | cons x before ih =>
    have hx : x.id ≠ id := hbefore x (by simp)
    have hrest := ih fun y hy => hbefore y (List.mem_cons_of_mem x hy)
    simp [updateFirst?, hx, hrest]

theorem exists_of_updateFirst? {es es' : List Event} (h : updateFirst? id d es = some es') :
    ∃ before e after, es = before ++ e :: after ∧ (∀ x ∈ before, x.id ≠ id) ∧ e.id = id ∧
      es' = before ++ e.withDetails d :: after := by
  induction es generalizing es' with
  | nil => cases h
  | cons x es ih =>
    rw [updateFirst?] at h
    split at h
    · rename_i hx
      cases h
      exact ⟨[], x, es, rfl, by simp, hx, rfl⟩
    · rename_i hx
      obtain ⟨rest, hrest, rfl⟩ := Option.map_eq_some_iff.mp h
      obtain ⟨before, e, after, rfl, hbefore, he, rfl⟩ := ih hrest
      refine ⟨x :: before, e, after, rfl, ?_, he, rfl⟩
      intro y hy
      rcases List.mem_cons.mp hy with rfl | hy
      · exact hx
      · exact hbefore y hy

theorem updateFirst?_eq_none_iff {es : List Event} :
    updateFirst? id d es = none ↔ ∀ e ∈ es, e.id ≠ id := by
  induction es with
  | nil => simp [updateFirst?]
  | cons x es ih =>
    by_cases hx : x.id = id
    · simp [updateFirst?, hx]
    · simp [updateFirst?, hx, ih]

theorem update_of_missing (havailable : s.available = true) (hnone : ∀ e ∈ s.events, e.id ≠ id)
    (d : EventDetails) : s.update id d = .error (.notFound id) := by
  have hes := (updateFirst?_eq_none_iff (d := d)).mpr hnone
  simp only [update, contents, havailable, if_true, bind, Except.bind, hes]
  rfl

theorem filter_id_ne_of_forall_ne {es : List Event} (h : ∀ x ∈ es, x.id ≠ id) :
    es.filter (·.id != id) = es := by
  rw [List.filter_eq_self]
  intro x hx
  simpa using h x hx

/-- Where ids are distinct, no event beside `e` has the id of `e`. -/
theorem forall_id_ne_of_nodup {before after : List Event} {e : Event}
    (h : ((before ++ e :: after).map (·.id)).Nodup) :
    (∀ x ∈ before, x.id ≠ e.id) ∧ ∀ x ∈ after, x.id ≠ e.id := by
  rw [List.map_append, List.map_cons, List.nodup_append] at h
  obtain ⟨_, htail, hcross⟩ := h
  rw [List.nodup_cons] at htail
  constructor
  · intro x hx
    exact hcross x.id (List.mem_map_of_mem hx) e.id (by simp)
  · intro x hx heq
    exact htail.1 (heq ▸ List.mem_map_of_mem hx)

end Datebook.Store
