/-
  Datebook/Proofs/Calendar/Effect.lean
  ====================================
  **What a command does to the calendar in memory.**

  `Effect` has one constructor for each verb and says what is stored afterwards.
  A command that succeeds finds the calendar available and has its effect
  (`effect_of_run_eq_ok`), on an available calendar every effect comes about
  (`run_of_effect`), and a command that fails has changed nothing
  (`calendar_of_run_eq_error`).
-/
import Datebook.Calendar.Memory
import Datebook.Execution
import Datebook.Proofs.Calendar.Store

namespace Datebook.MemoryCalendar

/-! ### Effects -/

def events (m : MemoryCalendar) : List Event := m.store.events

/-- The calendar with other events in it. -/
def withEvents (m : MemoryCalendar) (es : List Event) : MemoryCalendar :=
  { m with store := { m.store with events := es } }

/-- The calendar switched on or off. -/
def setAvailable (m : MemoryCalendar) (available : Bool) : MemoryCalendar :=
  { m with store := m.store.setAvailable available }

/-- The outcome of a command, and the calendar after it. -/
inductive Effect (today : Date) (m : MemoryCalendar) :
    Command → Outcome → MemoryCalendar → Prop where
  | added {description startTime endTime : String} {d : EventDetails} :
      Execution.details description startTime endTime today = .ok d →
      Effect today m (.add description startTime endTime) (.added m.ids.take.1)
        { m.withEvents (m.events ++ [d.event m.ids.take.1]) with ids := m.ids.take.2 }
  | updated {id description startTime endTime : String} {d : EventDetails} {es : List Event} :
      Execution.details description startTime endTime today = .ok d →
      Store.updateFirst? id d m.events = some es →
      Effect today m (.modify id description startTime endTime) (.updated id) (m.withEvents es)
  | removed {id : String} :
      (∃ e ∈ m.events, e.id = id) →
      Effect today m (.remove id) (.removed id) (m.withEvents (m.events.filter (·.id != id)))
  | listed : Effect today m .list (.listed (listing m.events)) m

/-- Only the list command shows the calendar, and it changes nothing. -/
theorem Effect.of_listed {today : Date} {m m' : MemoryCalendar} {c : Command} {l : Listing}
    (h : Effect today m c (.listed l) m') : m' = m ∧ l = listing m.events := by
  cases h
  exact ⟨rfl, rfl⟩

/-- What a command does does not depend on whether the calendar is available. -/
theorem Effect.setAvailable {today : Date} {m m' : MemoryCalendar} {c : Command} {o : Outcome}
    (h : Effect today m c o m') (available : Bool) :
    Effect today (m.setAvailable available) c o (m'.setAvailable available) := by
  cases h with
  | added hd => exact .added hd
  | updated hd hes => exact .updated hd hes
  | removed hid => exact .removed hid
  | listed => exact .listed

/-! ### The event with an id -/

section

variable {today : Date} {m : MemoryCalendar} {before after : List Event} {e : Event}

theorem removed_of_nodup (hevents : m.events = before ++ e :: after)
    (hids : (m.events.map (·.id)).Nodup) :
    Effect today m (.remove e.id) (.removed e.id) (m.withEvents (before ++ after)) := by
  rw [hevents] at hids
  obtain ⟨hbefore, hafter⟩ := Store.forall_id_ne_of_nodup hids
  have hothers : m.events.filter (·.id != e.id) = before ++ after := by
    rw [hevents, List.filter_append, List.filter_cons_of_neg (by simp),
      Store.filter_id_ne_of_forall_ne hbefore, Store.filter_id_ne_of_forall_ne hafter]
  rw [← hothers]
  exact .removed ⟨e, by simp [hevents], rfl⟩

theorem updated_of_nodup (hevents : m.events = before ++ e :: after)
    (hids : (m.events.map (·.id)).Nodup) {description startTime endTime : String} {d : EventDetails}
    (hd : Execution.details description startTime endTime today = .ok d) :
    Effect today m (.modify e.id description startTime endTime) (.updated e.id)
      (m.withEvents (before ++ e.withDetails d :: after)) := by
  rw [hevents] at hids
  obtain ⟨hbefore, _⟩ := Store.forall_id_ne_of_nodup hids
  apply Effect.updated hd
  rw [hevents]
  exact Store.updateFirst?_append hbefore rfl d after

end

/-! ### Carrying a command out -/

variable {today : Date} {m m' : MemoryCalendar}

-- `run` is unfolded by `delta`: its equation lemmas would evaluate the reading
-- of the times, which no proof here looks into
theorem run_add (description startTime endTime : String) :
    Execution.run service today (.add description startTime endTime) m =
      match Execution.details description startTime endTime today with
      | .error failure => (.error failure, m)
      | .ok d =>
        match m.store.add m.ids.take.1 d with
        | .ok store => (.ok (.added m.ids.take.1), ⟨store, m.ids.take.2⟩)
        | .error fault => (.error (.calendar fault), m) := by
  delta Execution.run
  dsimp only
  cases Execution.details description startTime endTime today with
  | error failure => rfl
  | ok d =>
    change ((add d m).1.map Outcome.added, (add d m).2) = _
    dsimp only [add]
    cases m.store.add m.ids.take.1 d <;> rfl

theorem run_modify (id description startTime endTime : String) :
    Execution.run service today (.modify id description startTime endTime) m =
      match Execution.details description startTime endTime today with
      | .error failure => (.error failure, m)
      | .ok d =>
        match m.store.update id d with
        | .ok store => (.ok (.updated id), { m with store })
        | .error fault => (.error (.calendar fault), m) := by
  delta Execution.run
  dsimp only
  cases Execution.details description startTime endTime today with
  | error failure => rfl
  | ok d =>
    change ((change (·.update id d) m).1.map fun _ => Outcome.updated id,
      (change (·.update id d) m).2) = _
    dsimp only [change]
    cases m.store.update id d <;> rfl

theorem run_remove (id : String) :
    Execution.run service today (.remove id) m =
      match m.store.delete id with
      | .ok store => (.ok (.removed id), { m with store })
      | .error fault => (.error (.calendar fault), m) := by
  change ((change (·.delete id) m).1.map fun _ => Outcome.removed id,
    (change (·.delete id) m).2) = _
  rw [change]
  cases m.store.delete id <;> rfl

theorem run_list :
    Execution.run service today .list m =
      match m.store.list with
      | .ok l => (.ok (.listed l), m)
      | .error fault => (.error (.calendar fault), m) := by
  change ((m.store.list.mapError Failure.calendar).map Outcome.listed, m) = _
  cases m.store.list <;> rfl

theorem calendar_of_run_eq_error {c : Command} {failure : Failure}
    (h : Execution.run service today c m = (.error failure, m')) : m' = m := by
  cases c with
  | add description startTime endTime =>
    rw [run_add] at h
    split at h
    · cases h; rfl
    · split at h <;> cases h
      rfl
  | modify id description startTime endTime =>
    rw [run_modify] at h
    split at h
    · cases h; rfl
    · split at h <;> cases h
      rfl
  | remove id =>
    rw [run_remove] at h
    split at h <;> cases h
    rfl
  | list =>
    rw [run_list] at h
    split at h <;> cases h
    rfl

/-- A command that succeeds finds the calendar available, and has its effect. -/
theorem effect_of_run_eq_ok {c : Command} {o : Outcome}
    (h : Execution.run service today c m = (.ok o, m')) :
    m.store.available = true ∧ Effect today m c o m' := by
  cases c with
  | add description startTime endTime =>
    rw [run_add] at h
    split at h
    · cases h
    · rename_i d hd
      split at h <;> cases h
      rename_i store hstore
      obtain ⟨havailable, rfl⟩ := Store.add_eq_ok_iff.mp hstore
      exact ⟨havailable, .added hd⟩
  | modify id description startTime endTime =>
    rw [run_modify] at h
    split at h
    · cases h
    · rename_i d hd
      split at h <;> cases h
      rename_i store hstore
      obtain ⟨havailable, es, hes, rfl⟩ := Store.update_eq_ok_iff.mp hstore
      exact ⟨havailable, .updated hd hes⟩
  | remove id =>
    rw [run_remove] at h
    split at h <;> cases h
    rename_i store hstore
    obtain ⟨havailable, hid, rfl⟩ := Store.delete_eq_ok_iff.mp hstore
    exact ⟨havailable, .removed hid⟩
  | list =>
    rw [run_list] at h
    split at h <;> cases h
    rename_i l hl
    obtain ⟨havailable, rfl⟩ := Store.list_eq_ok_iff.mp hl
    exact ⟨havailable, .listed⟩

theorem run_of_effect {c : Command} {o : Outcome} (havailable : m.store.available = true)
    (h : Effect today m c o m') : Execution.run service today c m = (.ok o, m') := by
  cases h with
  | @added _ _ _ d hd =>
    have hstore : m.store.add m.ids.take.1 d = .ok _ :=
      Store.add_eq_ok_iff.mpr ⟨havailable, rfl⟩
    simp only [run_add, hd, hstore]
    rfl
  | updated hd hes =>
    have hstore := Store.update_eq_ok_iff.mpr ⟨havailable, _, hes, rfl⟩
    simp only [run_modify, hd, hstore]
    rfl
  | removed hid =>
    have hstore := Store.delete_eq_ok_iff.mpr ⟨havailable, hid, rfl⟩
    simp only [run_remove, hstore]
    rfl
  | listed =>
    have hstore := Store.list_eq_ok_iff.mpr ⟨havailable, rfl⟩
    simp only [run_list, hstore]
    rfl

/-! ### Commands that fail -/

variable {c : Command} {id : String}

theorem exists_failure_of_no_effect
    (h : ∀ o m', m.store.available = true → ¬ Effect today m c o m') :
    ∃ failure, Execution.run service today c m = (.error failure, m) := by
  cases hrun : Execution.run service today c m with
  | mk answer m' =>
    cases answer with
    | error failure =>
      rw [calendar_of_run_eq_error hrun]
      exact ⟨failure, rfl⟩
    | ok o =>
      obtain ⟨havailable, heffect⟩ := effect_of_run_eq_ok hrun
      exact absurd heffect (h o m' havailable)

theorem exists_failure_of_missing (hc : c.scheduleId? = some id)
    (hmissing : ∀ x ∈ m.events, x.id ≠ id) :
    ∃ failure, Execution.run service today c m = (.error failure, m) := by
  apply exists_failure_of_no_effect
  intro o m' _ heffect
  cases heffect with
  | added | listed => cases hc
  | updated _ hes =>
    cases hc
    rw [Store.updateFirst?_eq_none_iff.mpr hmissing] at hes
    cases hes
  | removed hid =>
    cases hc
    obtain ⟨e, he, heq⟩ := hid
    exact hmissing e he heq

theorem exists_failure_of_unavailable (c : Command) (hunavailable : m.store.available = false) :
    ∃ failure, Execution.run service today c m = (.error failure, m) := by
  apply exists_failure_of_no_effect
  intro o m' havailable
  rw [hunavailable] at havailable
  cases havailable

end Datebook.MemoryCalendar
