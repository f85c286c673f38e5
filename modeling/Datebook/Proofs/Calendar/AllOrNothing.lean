/-
  Datebook/Proofs/Calendar/AllOrNothing.lean
  ==========================================
  **A command does all it says, or nothing and says why.**

  `Accomplished` spells out what a command that succeeds leaves, event by event, and
  `Hindrance` has the three things that can stand in its way.  Of the three the
  first that applies is the one that is reported: a time is read before any calendar
  is called, and an unavailable calendar does not say whether it has the event.

  Every command meets with one of the two (`hindrance_or_effect`), so whether and how
  it fails is known from the command, the day and the calendar.
-/
import Datebook.Proofs.Calendar.Timing

namespace Datebook

/-! ### Times that cannot be read -/

namespace Execution

variable {today : Date} {c : Command} {text : String}

/-- `text` is the first of two times, with the day put in, that cannot be read. -/
def FirstUnreadable (today : Date) (startTime endTime text : String) : Prop :=
  (Time.read? (Time.fillPlaceholder startTime today) = none ∧
      text = Time.fillPlaceholder startTime today) ∨
    (Time.read? (Time.fillPlaceholder startTime today) ≠ none ∧
      Time.read? (Time.fillPlaceholder endTime today) = none ∧
      text = Time.fillPlaceholder endTime today)

theorem find?_unreadable_iff {startTime endTime : String} :
    ([startTime, endTime].map (Time.fillPlaceholder · today)).find?
        (fun text => (Time.read? text).isNone) = some text ↔
      FirstUnreadable today startTime endTime text := by
  simp only [List.map_cons, List.map_nil, List.find?_cons, List.find?_nil, FirstUnreadable]
  cases Time.read? (Time.fillPlaceholder startTime today) with
  | none => simp [eq_comm]
  | some start =>
    cases Time.read? (Time.fillPlaceholder endTime today) with
    | none => simp [eq_comm]
    | some finish => simp

theorem unreadable?_eq_some_iff : unreadable? today c = some text ↔
    ∃ startTime endTime, c.times = [startTime, endTime] ∧
      FirstUnreadable today startTime endTime text := by
  cases c with
  | add | modify =>
    constructor
    · intro h
      exact ⟨_, _, rfl, find?_unreadable_iff.mp h⟩
    · rintro ⟨startTime, endTime, htimes, h⟩
      cases htimes
      exact find?_unreadable_iff.mpr h
  | remove | list =>
    constructor
    · intro h
      cases h
    · rintro ⟨startTime, endTime, htimes, _⟩
      cases htimes

theorem details_eq_ok_iff {description startTime endTime : String} {d : EventDetails} :
    details description startTime endTime today = .ok d ↔
      ∃ start finish, Time.read? (Time.fillPlaceholder startTime today) = some start ∧
        Time.read? (Time.fillPlaceholder endTime today) = some finish ∧
        d = ⟨description, start, finish⟩ := by
  rw [details, DateTime.normalize, DateTime.normalize, DateTime.parse, DateTime.parse]
  cases Time.read? (Time.fillPlaceholder startTime today) with
  | none => simp [bind, Except.bind]
  | some start =>
    cases Time.read? (Time.fillPlaceholder endTime today) with
    | none => simp [bind, Except.bind]
    | some finish => simp [bind, Except.bind, pure, Except.pure, eq_comm]

end Execution

namespace MemoryCalendar

variable {today : Date} {m m' : MemoryCalendar} {c : Command} {o : Outcome} {failure : Failure}

/-! ### What a command leaves -/

/-- The outcome of a command that succeeds, and the calendar it leaves: one more event at the
    end, new contents for the first event with the id, no event with the id, or no
    change. -/
def Accomplished (today : Date) (m : MemoryCalendar) (c : Command) (o : Outcome)
    (m' : MemoryCalendar) : Prop :=
  match c with
  | .add description startTime endTime =>
    ∃ start finish, Time.read? (Time.fillPlaceholder startTime today) = some start ∧
      Time.read? (Time.fillPlaceholder endTime today) = some finish ∧
      o = .added m.ids.take.1 ∧
      m' = { m.withEvents
        (m.events ++ [⟨m.ids.take.1, description, start.text, finish.text⟩]) with
          ids := m.ids.take.2 }
  | .modify id description startTime endTime =>
    ∃ start finish, Time.read? (Time.fillPlaceholder startTime today) = some start ∧
      Time.read? (Time.fillPlaceholder endTime today) = some finish ∧
      o = .updated id ∧
      ∃ before e after, m.events = before ++ e :: after ∧ (∀ x ∈ before, x.id ≠ id) ∧ e.id = id ∧
        m' = m.withEvents (before ++ ⟨id, description, start.text, finish.text⟩ :: after)
  | .remove id =>
    o = .removed id ∧ (∃ e ∈ m.events, e.id = id) ∧
      m' = m.withEvents (m.events.filter (·.id != id))
  | .list => o = .listed (listing m.events) ∧ m' = m

theorem accomplished_iff_effect : Accomplished today m c o m' ↔ Effect today m c o m' := by
  cases c with
  | add description startTime endTime =>
    constructor
    · rintro ⟨start, finish, hstart, hend, rfl, rfl⟩
      exact .added (Execution.details_eq_ok_iff.mpr ⟨start, finish, hstart, hend, rfl⟩)
    · rintro ⟨hd⟩
      obtain ⟨start, finish, hstart, hend, rfl⟩ := Execution.details_eq_ok_iff.mp hd
      exact ⟨start, finish, hstart, hend, rfl, rfl⟩
  | modify id description startTime endTime =>
    constructor
    · rintro ⟨start, finish, hstart, hend, rfl, before, e, after, hevents, hbefore, rfl, rfl⟩
      apply Effect.updated (Execution.details_eq_ok_iff.mpr ⟨start, finish, hstart, hend, rfl⟩)
      rw [hevents]
      exact Store.updateFirst?_append hbefore rfl _ after
    · intro h
      cases h with
      | updated hd hes =>
        obtain ⟨start, finish, hstart, hend, rfl⟩ := Execution.details_eq_ok_iff.mp hd
        obtain ⟨before, e, after, hevents, hbefore, rfl, rfl⟩ := Store.exists_of_updateFirst? hes
        exact ⟨start, finish, hstart, hend, rfl, before, e, after, hevents, hbefore, rfl, rfl⟩
  | remove id =>
    constructor
    · rintro ⟨rfl, hid, rfl⟩
      exact .removed hid
    · intro h
      cases h with
      | removed hid => exact ⟨rfl, hid, rfl⟩
  | list =>
    constructor
    · rintro ⟨rfl, rfl⟩
      exact .listed
    · intro h
      cases h
      exact ⟨rfl, rfl⟩

/-! ### What stands in the way -/

/-- Why a command fails. -/
inductive Hindrance (today : Date) (m : MemoryCalendar) (c : Command) : Failure → Prop where
  | unreadable {text : String} :
      Execution.unreadable? today c = some text → Hindrance today m c (.dateTime text)
  | unavailable :
      Execution.unreadable? today c = none → m.store.available = false →
      Hindrance today m c (.calendar .unavailable)
  | missing {id : String} :
      Execution.unreadable? today c = none → m.store.available = true →
      c.scheduleId? = some id → (∀ e ∈ m.events, e.id ≠ id) →
      Hindrance today m c (.calendar (.notFound id))

theorem run_of_hindrance (h : Hindrance today m c failure) :
    Execution.run service today c m = (.error failure, m) := by
  cases h with
  | unreadable htext =>
    rw [Execution.run_of_unreadable service htext]
    rfl
  | unavailable htimes hunavailable =>
    have hcontents := Store.contents_of_unavailable hunavailable
    cases c with
    | add description startTime endTime =>
      obtain ⟨d, hd⟩ := Execution.exists_details_of_readable description htimes
      simp only [run_add, hd, Store.add, hcontents]
      rfl
    | modify id description startTime endTime =>
      obtain ⟨d, hd⟩ := Execution.exists_details_of_readable description htimes
      simp only [run_modify, hd, Store.update, hcontents]
      rfl
    | remove id =>
      simp only [run_remove, Store.delete, hcontents]
      rfl
    | list =>
      simp only [run_list, Store.list, hcontents]
      rfl
  | missing htimes havailable hid hnone =>
    cases c with
    | add | list => cases hid
    | modify id description startTime endTime =>
      cases hid
      obtain ⟨d, hd⟩ := Execution.exists_details_of_readable description htimes
      simp only [run_modify, hd, Store.update_of_missing havailable hnone d]
    | remove id =>
      cases hid
      simp only [run_remove, Store.delete_of_missing havailable hnone]

/-- With readable times, and an event where one is referred to, there is something to do. -/
theorem exists_effect (htimes : Execution.unreadable? today c = none)
    (hstored : ∀ id, c.scheduleId? = some id → ∃ e ∈ m.events, e.id = id) :
    ∃ o m', Effect today m c o m' := by
  cases c with
  | add description startTime endTime =>
    obtain ⟨d, hd⟩ := Execution.exists_details_of_readable description htimes
    exact ⟨_, _, .added hd⟩
  | modify id description startTime endTime =>
    obtain ⟨d, hd⟩ := Execution.exists_details_of_readable description htimes
    obtain ⟨e, he, hid⟩ := hstored id rfl
    cases hes : Store.updateFirst? id d m.events with
    | none => exact absurd hid (Store.updateFirst?_eq_none_iff.mp hes e he)
    | some es => exact ⟨_, _, .updated hd hes⟩
  | remove id => exact ⟨_, _, .removed (hstored id rfl)⟩
  | list => exact ⟨_, _, .listed⟩

theorem hindrance_or_effect (today : Date) (m : MemoryCalendar) (c : Command) :
    (∃ failure, Hindrance today m c failure) ∨
      m.store.available = true ∧ ∃ o m', Effect today m c o m' := by
  cases htimes : Execution.unreadable? today c with
  | some text => exact .inl ⟨_, .unreadable htimes⟩
  | none =>
    cases havailable : m.store.available with
    | false => exact .inl ⟨_, .unavailable htimes havailable⟩
    | true =>
      by_cases hstored : ∀ id, c.scheduleId? = some id → ∃ e ∈ m.events, e.id = id
      · exact .inr ⟨rfl, exists_effect htimes hstored⟩
      · obtain ⟨id, hid⟩ := Classical.not_forall.mp hstored
        obtain ⟨hid, hnone⟩ := Classical.not_imp.mp hid
        exact .inl ⟨_, .missing htimes havailable hid fun e he heq => hnone ⟨e, he, heq⟩⟩

theorem run_eq_ok_iff : Execution.run service today c m = (.ok o, m') ↔
    m.store.available = true ∧ Effect today m c o m' :=
  ⟨effect_of_run_eq_ok, fun h => run_of_effect h.1 h.2⟩

theorem run_eq_error_iff : Execution.run service today c m = (.error failure, m') ↔
    m' = m ∧ Hindrance today m c failure := by
  constructor
  · intro h
    rcases hindrance_or_effect today m c with ⟨failure', hindrance⟩ | ⟨havailable, o, m₁, heffect⟩
    · rw [run_of_hindrance hindrance] at h
      cases h
      exact ⟨rfl, hindrance⟩
    · rw [run_of_effect havailable heffect] at h
      cases h
  · rintro ⟨rfl, hindrance⟩
    exact run_of_hindrance hindrance

theorem run_fst_eq_error_iff : (Execution.run service today c m).1 = .error failure ↔
    Hindrance today m c failure := by
  constructor
  · intro h
    have hrun : Execution.run service today c m
        = (.error failure, (Execution.run service today c m).2) :=
      Prod.ext h rfl
    exact (run_eq_error_iff.mp hrun).2
  · intro hindrance
    rw [run_of_hindrance hindrance]

/-- **All or nothing.**  A command either finds the calendar available and does exactly what
    its verb says, or it fails and the calendar is what it was.  It fails for a time exactly
    if it has one that cannot be read, says which, and then calls no operation of any
    calendar; otherwise it fails for the calendar exactly if that is unavailable or has
    no event with the id.  It fails for nothing else. -/
theorem run_all_or_nothing (today : Date) (c : Command) (m : MemoryCalendar) :
    (∀ o m', Execution.run service today c m = (.ok o, m') ↔
      m.store.available = true ∧ Accomplished today m c o m') ∧
    (∀ failure m', Execution.run service today c m = (.error failure, m') ↔
      m' = m ∧ Hindrance today m c failure) ∧
    (∀ text, (Execution.run service today c m).1 = .error (.dateTime text) ↔
      ∃ startTime endTime, c.times = [startTime, endTime] ∧
        Execution.FirstUnreadable today startTime endTime text) ∧
    (∀ startTime endTime text, c.times = [startTime, endTime] →
      Execution.FirstUnreadable today startTime endTime text →
      ∀ {n : Type → Type} [Monad n] (calendar : CalendarService n),
        Execution.run calendar today c = pure (.error (.dateTime text))) ∧
    ((∃ fault, (Execution.run service today c m).1 = .error (.calendar fault)) ↔
      (∀ t ∈ c.times, Time.read? (Time.fillPlaceholder t today) ≠ none) ∧
        (m.store.available = false ∨
          ∃ id, c.scheduleId? = some id ∧ ∀ e ∈ m.events, e.id ≠ id)) ∧
    ∀ failure, (Execution.run service today c m).1 = .error failure →
      (∃ text, failure = .dateTime text) ∨ ∃ fault, failure = .calendar fault := by
  refine ⟨?_, fun failure m' => run_eq_error_iff, ?_, ?_, ?_, ?_⟩
  · intro o m'
    rw [run_eq_ok_iff, accomplished_iff_effect]
  · intro text
    rw [run_fst_eq_error_iff, ← Execution.unreadable?_eq_some_iff]
    constructor
    · rintro ⟨htext⟩
      exact htext
    · exact .unreadable
  · intro startTime endTime text htimes hfirst n _ calendar
    exact Execution.run_of_unreadable calendar
      (Execution.unreadable?_eq_some_iff.mpr ⟨startTime, endTime, htimes, hfirst⟩)
  · have hreadable : Execution.unreadable? today c = none ↔
        ∀ t ∈ c.times, Time.read? (Time.fillPlaceholder t today) ≠ none := by
      simp [Execution.unreadable?]
    rw [← hreadable]
    constructor
    · rintro ⟨fault, hfault⟩
      cases run_fst_eq_error_iff.mp hfault with
      | unavailable htimes hunavailable => exact ⟨htimes, .inl hunavailable⟩
      | missing htimes _ hid hnone => exact ⟨htimes, .inr ⟨_, hid, hnone⟩⟩
    · rintro ⟨htimes, hfails⟩
      cases havailable : m.store.available with
      | false => exact ⟨_, run_fst_eq_error_iff.mpr (.unavailable htimes havailable)⟩
      | true =>
        obtain ⟨id, hid, hnone⟩ := hfails.resolve_left (by simp [havailable])
        exact ⟨_, run_fst_eq_error_iff.mpr (.missing htimes havailable hid hnone)⟩
  · intro failure hfailure
    cases run_fst_eq_error_iff.mp hfailure with
    | unreadable => exact .inl ⟨_, rfl⟩
    | unavailable | missing => exact .inr ⟨_, rfl⟩

/-- Of two events with one id the first is changed; with a bad end the calendar is not
    even asked whether it is available. -/
theorem run_all_or_nothing_twins :
    let today : Date := ⟨2024, 2, 29, by decide⟩
    let tea : Event := ⟨"a", "Tea", "", ""⟩
    let lunch : Event := ⟨"b", "Lunch", "", ""⟩
    let m : MemoryCalendar := ⟨.ofEvents [lunch, tea, tea], .constant "new"⟩
    Execution.run service today (.modify "a" "Tea, \"late\"" "YYYY-MM-DD 16:00:00"
        "2024-03-01T9:05:00.5") m
      = (.ok (.updated "a"), m.withEvents
          [lunch, ⟨"a", "Tea, \"late\"", "2024-02-29T16:00:00", "2024-03-01T09:05:00"⟩, tea]) ∧
    (Execution.run service today (.add "" "YYYY-MM-DD 16:00:00" "YYYY-MM-DD")
        (m.setAvailable false)).1 = .error (.dateTime "2024-02-29") := by
  intro today tea lunch m
  constructor
  · apply ((run_all_or_nothing today _ m).1 _ _).mpr
    refine ⟨rfl, ⟨⟨2024, 2, 29, by decide⟩, ⟨16, 0, 0, 0, by decide⟩⟩,
      ⟨⟨2024, 3, 1, by decide⟩, ⟨9, 5, 0, 500000000, by decide⟩⟩, by decide +kernel,
      by decide +kernel, rfl, [lunch], tea, [tea], rfl, by decide +kernel, rfl, ?_⟩
    congr 1
    decide +kernel
  · apply ((run_all_or_nothing today _ (m.setAvailable false)).2.2.1 _).mpr
    exact ⟨_, _, rfl, .inr ⟨by decide +kernel, by decide +kernel, by decide +kernel⟩⟩

end MemoryCalendar

end Datebook
