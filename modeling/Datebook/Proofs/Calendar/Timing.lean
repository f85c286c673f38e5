/-
  Datebook/Proofs/Calendar/Timing.lean
  ====================================
  **Commands with a time that cannot be read.**

  Two verbs take a start and an end.  Both are read, the day in the place of the
  placeholder, before any calendar is called; `unreadable?` is the first of them
  that is no date-time.  If there is one, carrying the command out comes to nothing
  but this failure, whatever the calendar (`run_of_unreadable`).  On the calendar in
  memory every other failure is one of the calendar (`cause_of_run_eq_error`).
-/
import Datebook.Proofs.Calendar.Reference

namespace Datebook

/-- The arguments of a command that are times, the start first. -/
def Command.times : Command → List String
  | .add _ startTime endTime | .modify _ _ startTime endTime => [startTime, endTime]
  | .remove _ | .list => []

theorem Command.verb_of_mem_times {c : Command} {t : String} (h : t ∈ c.times) :
    c.verb = .add ∨ c.verb = .modify := by
  cases c with
  | add => exact .inl rfl
  | modify => exact .inr rfl
  | remove | list => simp [times] at h

theorem Command.times_of_withScheduleId? {c d : Command} {id : String}
    (h : c.withScheduleId? id = some d) : d.times = c.times := by
  cases c with
  | add | list => cases h
  | modify | remove =>
    cases h
    rfl

namespace Execution

/-- The first time of a command that cannot be read, with the day put in. -/
def unreadable? (today : Date) (c : Command) : Option String :=
  (c.times.map (Time.fillPlaceholder · today)).find? fun text => (Time.read? text).isNone

variable {today : Date} {c : Command} {text : String}

theorem exists_unreadable_iff : (∃ text, unreadable? today c = some text) ↔
    ∃ t ∈ c.times, Time.read? (Time.fillPlaceholder t today) = none := by
  rw [← Option.isSome_iff_exists, unreadable?, List.find?_isSome]
  simp

theorem details_of_unreadable {description startTime endTime : String}
    (h : ([startTime, endTime].map (Time.fillPlaceholder · today)).find?
      (fun text => (Time.read? text).isNone) = some text) :
    details description startTime endTime today = .error (.dateTime text) := by
  simp only [List.map_cons, List.map_nil, List.find?_cons, List.find?_nil] at h
  rw [details, DateTime.normalize, DateTime.normalize, DateTime.parse, DateTime.parse]
  cases hstart : Time.read? (Time.fillPlaceholder startTime today) with
  | none =>
    rw [hstart] at h
    cases h
    rfl
  | some start =>
    -- the start is fine, so it is the end that was found
    rw [hstart] at h
    cases hend : Time.read? (Time.fillPlaceholder endTime today) with
    | none =>
      rw [hend] at h
      cases h
      rfl
    | some finish =>
      rw [hend] at h
      cases h

theorem exists_details_of_readable {startTime endTime : String} (description : String)
    (h : ([startTime, endTime].map (Time.fillPlaceholder · today)).find?
      (fun text => (Time.read? text).isNone) = none) :
    ∃ d, details description startTime endTime today = .ok d := by
  simp only [List.map_cons, List.map_nil, List.find?_eq_none, List.mem_cons, List.not_mem_nil,
    or_false, forall_eq_or_imp, forall_eq, Option.isNone_iff_eq_none] at h
  obtain ⟨start, hstart⟩ := Option.ne_none_iff_exists'.mp h.1
  obtain ⟨finish, hend⟩ := Option.ne_none_iff_exists'.mp h.2
  rw [details, DateTime.normalize, DateTime.normalize, DateTime.parse, DateTime.parse, hstart,
    hend]
  exact ⟨_, rfl⟩

/-- No calendar is called with a time that cannot be read. -/
theorem run_of_unreadable {m : Type → Type} [Monad m] (calendar : CalendarService m)
    (h : unreadable? today c = some text) :
    run calendar today c = pure (.error (.dateTime text)) := by
  delta run
  cases c with
  | add | modify =>
    dsimp only
    rw [details_of_unreadable h]
  | remove | list => cases h

end Execution

theorem Resolution.times_against (l : Listing) (c : Command) (no : String) :
    (Resolution.against l c no).command.times = c.times := by
  rw [Resolution.against]
  cases lookupOrdinal? l no with
  | none => rfl
  | some id =>
    dsimp only
    cases hid : c.withScheduleId? id with
    | none => rfl
    | some d => exact Command.times_of_withScheduleId? hid

namespace MemoryCalendar

variable {today : Date} {m m' : MemoryCalendar} {c : Command} {failure : Failure}

/-- Carrying a command out fails for one of its times, or else for the calendar. -/
theorem cause_of_run_eq_error (h : Execution.run service today c m = (.error failure, m')) :
    (∃ text, Execution.unreadable? today c = some text ∧ failure = .dateTime text) ∨
      (Execution.unreadable? today c = none ∧ ∃ fault, failure = .calendar fault) := by
  cases htimes : Execution.unreadable? today c with
  | some text =>
    left
    rw [Execution.run_of_unreadable service htimes] at h
    cases h
    exact ⟨text, rfl, rfl⟩
  | none =>
    right
    refine ⟨rfl, ?_⟩
    cases c with
    | add description startTime endTime =>
      obtain ⟨d, hd⟩ := Execution.exists_details_of_readable description htimes
      rw [run_add, hd] at h
      dsimp only at h
      split at h <;> cases h
      exact ⟨_, rfl⟩
    | modify id description startTime endTime =>
      obtain ⟨d, hd⟩ := Execution.exists_details_of_readable description htimes
      rw [run_modify, hd] at h
      dsimp only at h
      split at h <;> cases h
      exact ⟨_, rfl⟩
    | remove id =>
      rw [run_remove] at h
      split at h <;> cases h
      exact ⟨_, rfl⟩
    | list =>
      rw [run_list] at h
      split at h <;> cases h
      exact ⟨_, rfl⟩

theorem cause_of_resolve_eq_error (h : m.resolve c = .error failure) :
    ∃ fault, failure = .calendar fault := by
  rw [resolve] at h
  split at h
  · cases h
  · cases hlist : m.store.list with
    | ok l =>
      rw [hlist] at h
      cases h
    | error fault =>
      rw [hlist] at h
      cases h
      exact ⟨fault, rfl⟩

/-- Resolving looks at the reference alone, and leaves the times as they are. -/
theorem times_of_resolve {resolution : Resolution} (h : m.resolve c = .ok resolution) :
    resolution.command.times = c.times := by
  rw [resolve] at h
  split at h
  · cases h
    rfl
  · cases hlist : m.store.list with
    | error fault =>
      rw [hlist] at h
      cases h
    | ok l =>
      rw [hlist] at h
      cases h
      exact Resolution.times_against l c _

end MemoryCalendar

end Datebook
