/-
  Datebook/Proofs/Calendar/Operation.lean
  =======================================
  **What can be done to a calendar in memory, one operation at a time.**

  Several sessions and the people around them share a calendar; whatever they do
  to it comes down to the four calls of its service and to switching it off and
  on.  `Operation` has these as data, so that a finite sequence of them, by whomever
  and in whatever order, is a list.

  `Works` says of each operation what it answers and leaves if it succeeds, and
  `Refused` when it fails and why.  One of the two holds of every operation
  (`perform_eq_ok_iff`, `perform_eq_error_iff`), and an operation that is refused
  leaves the calendar as it was.
-/
import Datebook.Proofs.Calendar.Effect

namespace Datebook.MemoryCalendar

/-! ### Operations -/

inductive Operation where
  | list
  | add (d : EventDetails)
  | update (id : String) (d : EventDetails)
  | delete (id : String)
  | setAvailable (available : Bool)
  deriving DecidableEq, Repr

namespace Operation

/-- Switching works at any time. -/
def isSwitch : Operation → Bool
  | .setAvailable _ => true
  | _ => false

/-- The id of the event that is to be there. -/
def target? : Operation → Option String
  | .update id _ | .delete id => some id
  | _ => none

/-- Whether the calendar is available afterwards. -/
def leaves (available : Bool) : Operation → Bool
  | .setAvailable switched => switched
  | _ => available

end Operation

inductive Answer where
  | listed (l : Listing)
  | added (id : String)
  | done
  deriving DecidableEq, Repr

def perform (m : MemoryCalendar) : Operation → Except Failure Answer × MemoryCalendar
  | .list => let (answer, m) := service.list m; (answer.map .listed, m)
  | .add d => let (answer, m) := service.add d m; (answer.map .added, m)
  | .update id d => let (answer, m) := service.update id d m; (answer.map fun _ => .done, m)
  | .delete id => let (answer, m) := service.delete id m; (answer.map fun _ => .done, m)
  | .setAvailable available => (.ok .done, m.setAvailable available)

/-- The calendar after operations, one after another. -/
def after (m : MemoryCalendar) (ops : List Operation) : MemoryCalendar :=
  ops.foldl (fun m op => (m.perform op).2) m

@[simp] theorem after_cons (m : MemoryCalendar) (op : Operation) (ops : List Operation) :
    m.after (op :: ops) = (m.perform op).2.after ops := rfl

/-! ### What an operation does, and when it is refused -/

/-- What an operation that succeeds answers, and the calendar after it. -/
inductive Works (m : MemoryCalendar) : Operation → Answer → MemoryCalendar → Prop where
  | listed : Works m .list (.listed (listing m.events)) m
  | added (d : EventDetails) :
      Works m (.add d) (.added m.ids.take.1)
        { m.withEvents
          (m.events ++ [⟨m.ids.take.1, d.description, d.start.text, d.finish.text⟩]) with
          ids := m.ids.take.2 }
  /-- The first event with the id gets new contents, at its place and under its id. -/
  | updated {id : String} {before after : List Event} {e : Event} (d : EventDetails) :
      m.events = before ++ e :: after → (∀ x ∈ before, x.id ≠ id) → e.id = id →
      Works m (.update id d) .done
        (m.withEvents (before ++ ⟨id, d.description, d.start.text, d.finish.text⟩ :: after))
  | deleted {id : String} :
      (∃ e ∈ m.events, e.id = id) →
      Works m (.delete id) .done (m.withEvents (m.events.filter (·.id != id)))
  | switched (available : Bool) :
      Works m (.setAvailable available) .done (m.setAvailable available)

/-- Why an operation fails. -/
inductive Refused (m : MemoryCalendar) : Operation → CalendarFault → Prop where
  | unavailable {op : Operation} :
      op.isSwitch = false → m.store.available = false → Refused m op .unavailable
  | notFound {op : Operation} {id : String} :
      m.store.available = true → op.target? = some id → (∀ e ∈ m.events, e.id ≠ id) →
      Refused m op (.notFound id)

variable {m m' : MemoryCalendar} {op : Operation} {a : Answer} {fault : CalendarFault}

theorem perform_of_works (hserved : op.isSwitch = true ∨ m.store.available = true)
    (h : Works m op a m') : m.perform op = (.ok a, m') := by
  cases h with
  | switched available => rfl
  | listed =>
    have havailable := hserved.resolve_left Bool.false_ne_true
    have hlist : m.store.list = .ok _ := Store.list_eq_ok_iff.mpr ⟨havailable, rfl⟩
    simp only [perform, service, list, hlist]
    rfl
  | added d =>
    have havailable := hserved.resolve_left Bool.false_ne_true
    have hadd : m.store.add m.ids.take.1 d = .ok _ := Store.add_eq_ok_iff.mpr ⟨havailable, rfl⟩
    simp only [perform, service, add, hadd]
    rfl
  | @updated id before after e d hevents hbefore he =>
    have havailable := hserved.resolve_left Bool.false_ne_true
    have hes : Store.updateFirst? id d m.store.events =
        some (before ++ ⟨id, d.description, d.start.text, d.finish.text⟩ :: after) := by
      subst he
      rw [show m.store.events = before ++ e :: after from hevents]
      exact Store.updateFirst?_append hbefore rfl d after
    have hupdate : m.store.update id d = .ok _ :=
      Store.update_eq_ok_iff.mpr ⟨havailable, _, hes, rfl⟩
    simp only [perform, service, change, hupdate]
    rfl
  | @deleted id hid =>
    have havailable := hserved.resolve_left Bool.false_ne_true
    have hdelete : m.store.delete id = .ok _ := Store.delete_eq_ok_iff.mpr ⟨havailable, hid, rfl⟩
    simp only [perform, service, change, hdelete]
    rfl

theorem perform_of_refused (h : Refused m op fault) :
    m.perform op = (.error (.calendar fault), m) := by
  cases h with
  | unavailable hswitch hunavailable =>
    have hcontents := Store.contents_of_unavailable hunavailable
    cases op with
    | setAvailable available => cases hswitch
    | list =>
      simp only [perform, service, list, Store.list, hcontents]
      rfl
    | add d =>
      simp only [perform, service, add, Store.add, hcontents]
      rfl
    | update id d =>
      simp only [perform, service, change, Store.update, hcontents]
      rfl
    | delete id =>
      simp only [perform, service, change, Store.delete, hcontents]
      rfl
  | notFound havailable htarget hnone =>
    cases op with
    | list | add | setAvailable => cases htarget
    | update id d =>
      cases htarget
      simp only [perform, service, change, Store.update_of_missing havailable hnone d]
      rfl
    | delete id =>
      cases htarget
      simp only [perform, service, change, Store.delete_of_missing havailable hnone]
      rfl

theorem works_or_refused (m : MemoryCalendar) (op : Operation) :
    ((op.isSwitch = true ∨ m.store.available = true) ∧ ∃ a m', Works m op a m') ∨
      ∃ fault, Refused m op fault := by
  by_cases hserved : op.isSwitch = true ∨ m.store.available = true
  · by_cases hmissing : ∃ id, op.target? = some id ∧ ∀ e ∈ m.events, e.id ≠ id
    · obtain ⟨id, htarget, hnone⟩ := hmissing
      right
      rcases hserved with hswitch | havailable
      · cases op <;> cases htarget <;> cases hswitch
      · exact ⟨_, .notFound havailable htarget hnone⟩
    · left
      refine ⟨hserved, ?_⟩
      cases op with
      | list => exact ⟨_, _, .listed⟩
      | add d => exact ⟨_, _, .added d⟩
      | setAvailable available => exact ⟨_, _, .switched available⟩
      | update id d =>
        cases hes : Store.updateFirst? id d m.events with
        | none => exact absurd ⟨id, rfl, Store.updateFirst?_eq_none_iff.mp hes⟩ hmissing
        | some es =>
          obtain ⟨before, e, after, hevents, hbefore, he, _⟩ := Store.exists_of_updateFirst? hes
          exact ⟨_, _, .updated d hevents hbefore he⟩
      | delete id =>
        by_cases hid : ∃ e ∈ m.events, e.id = id
        · exact ⟨_, _, .deleted hid⟩
        · refine absurd ⟨id, rfl, ?_⟩ hmissing
          intro e he heq
          exact hid ⟨e, he, heq⟩
  · rw [not_or, Bool.not_eq_true, Bool.not_eq_true] at hserved
    exact .inr ⟨_, .unavailable hserved.1 hserved.2⟩

theorem perform_eq_ok_iff : m.perform op = (.ok a, m') ↔
    (op.isSwitch = true ∨ m.store.available = true) ∧ Works m op a m' := by
  constructor
  · intro h
    rcases works_or_refused m op with ⟨hserved, a', m₁, hworks⟩ | ⟨fault, hrefused⟩
    · rw [perform_of_works hserved hworks, Prod.mk.injEq, Except.ok.injEq] at h
      obtain ⟨rfl, rfl⟩ := h
      exact ⟨hserved, hworks⟩
    · rw [perform_of_refused hrefused] at h
      cases h
  · rintro ⟨hserved, hworks⟩
    exact perform_of_works hserved hworks

theorem perform_eq_error_iff {failure : Failure} : m.perform op = (.error failure, m') ↔
    m' = m ∧ ∃ fault, failure = .calendar fault ∧ Refused m op fault := by
  constructor
  · intro h
    rcases works_or_refused m op with ⟨hserved, a, m₁, hworks⟩ | ⟨fault, hrefused⟩
    · rw [perform_of_works hserved hworks] at h
      cases h
    · rw [perform_of_refused hrefused] at h
      cases h
      exact ⟨rfl, fault, rfl, hrefused⟩
  · rintro ⟨rfl, fault, rfl, hrefused⟩
    exact perform_of_refused hrefused

/-- An operation fails exactly if the calendar is unavailable, or there is no event with
    the id that it asks for. -/
theorem exists_refused_iff : (∃ fault, Refused m op fault) ↔
    op.isSwitch = false ∧
      (m.store.available = false ∨ ∃ id, op.target? = some id ∧ ∀ e ∈ m.events, e.id ≠ id) := by
  constructor
  · rintro ⟨fault, hrefused⟩
    cases hrefused with
    | unavailable hswitch hunavailable => exact ⟨hswitch, .inl hunavailable⟩
    | notFound havailable htarget hnone =>
      refine ⟨?_, .inr ⟨_, htarget, hnone⟩⟩
      cases op with
      | update | delete => rfl
      | list | add | setAvailable => cases htarget
  · rintro ⟨hswitch, hfails⟩
    cases havailable : m.store.available with
    | false => exact ⟨_, .unavailable hswitch havailable⟩
    | true =>
      obtain ⟨id, htarget, hnone⟩ := hfails.resolve_left (by simp [havailable])
      exact ⟨_, .notFound havailable htarget hnone⟩

end Datebook.MemoryCalendar
