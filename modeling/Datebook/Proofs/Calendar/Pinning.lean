/-
  Datebook/Proofs/Calendar/Pinning.lean
  =====================================
  **Once an ordinal is resolved, the command keeps to the event that had it.**

  Between resolving a command and carrying it out, others may do what they like to
  the calendar: the ordinals move, events change and go, and new ones come.  The
  command has an id by then.  If ids are distinct and new ones are new, the id is
  that of one event for good: it stays with the event as long as there is the
  event, and no other ever gets it (`events_after`).

  So what becomes of that event through the operations of the others (`fates`)
  decides what carrying out the command comes to (`Settles`).  If the event is
  gone, or the calendar is unavailable, or a time cannot be read, the command fails
  and changes nothing; otherwise it changes or removes this event, in its present
  state, and no other.
-/
import Datebook.Proofs.Calendar.Order
import Datebook.Proofs.Calendar.Redirection

namespace Datebook

namespace MemoryCalendar

variable {m : MemoryCalendar} {op : Operation} {e e' : Event} {available : Bool}

/-! ### What becomes of an event -/

namespace Operation

/-- What an operation makes of the event that it is meant for. -/
def makes : Operation → Event → Option Event
  | .update _ d, e => some (e.withDetails d)
  | .delete _, _ => none
  | .list, e | .add _, e | .setAvailable _, e => some e

def fate (available : Bool) (op : Operation) (e : Event) : Option Event :=
  if available = true ∧ op.target? = some e.id then op.makes e else some e

/-- What operations make of an event, one after another. -/
def fates : Bool → List Operation → Event → Option Event
  | _, [], e => some e
  | available, op :: ops, e => (op.fate available e).bind (fates (op.leaves available) ops)

theorem fate_of_ne (h : op.target? ≠ some e.id) : op.fate available e = some e := by
  rw [fate, if_neg]
  rintro ⟨_, htarget⟩
  exact h htarget

theorem fate_false (op : Operation) (e : Event) : op.fate false e = some e := by
  rw [fate, if_neg]
  rintro ⟨havailable, _⟩
  cases havailable

theorem id_of_fate (h : op.fate available e = some e') : e'.id = e.id := by
  rw [fate] at h
  split at h
  · cases op with
    | delete => cases h
    | list | add | update | setAvailable =>
      cases h
      rfl
  · cases h
    rfl

theorem id_of_fates {ops : List Operation} (h : fates available ops e = some e') :
    e'.id = e.id := by
  induction ops generalizing available e with
  | nil =>
    cases h
    rfl
  | cons op ops ih =>
    obtain ⟨e₁, he₁, hlater⟩ := Option.bind_eq_some_iff.mp h
    exact (ih hlater).trans (id_of_fate he₁)

end Operation

open Operation

theorem filterMap_fate_of_forall {es : List Event} (h : ∀ e ∈ es, op.fate available e = some e) :
    es.filterMap (op.fate available) = es := by
  rw [List.filterMap_congr h, List.filterMap_some]

theorem exists_mem_of_mem_filterMap_fates {ops : List Operation} {es : List Event}
    (h : e' ∈ es.filterMap (fates available ops)) : ∃ e ∈ es, e'.id = e.id := by
  obtain ⟨e, he, hfates⟩ := List.mem_filterMap.mp h
  exact ⟨e, he, id_of_fates hfates⟩

/-- The ids are those of events that were still to come. -/
def AreNew (m : MemoryCalendar) (es : List Event) : Prop :=
  ∀ e ∈ es, ∃ k, m.ids.used ≤ k ∧ e.id = m.ids.item k

theorem areNew_nil (m : MemoryCalendar) : m.AreNew [] :=
  fun _ he => absurd he List.not_mem_nil

theorem AreNew.append {es es' : List Event} (h : m.AreNew es) (h' : m.AreNew es') :
    m.AreNew (es ++ es') := by
  intro e he
  exact (List.mem_append.mp he).elim (h e) (h' e)

theorem AreNew.fates {es : List Event} (h : m.AreNew es) (available : Bool)
    (ops : List Operation) : m.AreNew (es.filterMap (fates available ops)) := by
  intro e' he'
  obtain ⟨e, he, hid⟩ := exists_mem_of_mem_filterMap_fates he'
  rw [hid]
  exact h e he

theorem AreNew.of_perform {es : List Event} (h : (m.perform op).2.AreNew es) : m.AreNew es := by
  intro e he
  obtain ⟨k, hk, hid⟩ := h e he
  rcases ids_perform m op with ⟨_, hids⟩ | ⟨_, hids⟩
  · rw [hids] at hk hid
    exact ⟨k, hk, hid⟩
  · rw [hids] at hk hid
    exact ⟨k, Nat.le_of_succ_le hk, hid⟩

/-- An operation makes of every event what is its fate, and may add an event. -/
theorem events_perform (hids : (m.events.map (·.id)).Nodup) (op : Operation) :
    ∃ new, (m.perform op).2.events = m.events.filterMap (op.fate m.store.available) ++ new ∧
      m.AreNew new := by
  rcases works_or_refused m op with ⟨hserved, a, m', hworks⟩ | ⟨fault, hrefused⟩
  · rw [perform_of_works hserved hworks]
    cases hworks with
    | listed | switched =>
      refine ⟨[], ?_, areNew_nil m⟩
      rw [List.append_nil]
      exact (filterMap_fate_of_forall fun e _ => fate_of_ne (by simp [target?])).symm
    | added d =>
      refine ⟨[d.event m.ids.take.1], ?_, ?_⟩
      · rw [filterMap_fate_of_forall fun e _ => fate_of_ne (by simp [target?])]
        rfl
      · intro e he
        rw [List.mem_singleton.mp he]
        exact ⟨_, Nat.le_refl _, rfl⟩
    | @updated id before after e d hevents hbefore he =>
      have havailable := hserved.resolve_left Bool.false_ne_true
      -- as ids are distinct, the first event with the id is the only one
      subst he
      rw [hevents] at hids
      obtain ⟨_, hafter⟩ := Store.forall_id_ne_of_nodup hids
      have hother : ∀ x : Event, x.id ≠ e.id →
          (Operation.update e.id d).fate m.store.available x = some x := by
        intro x hx
        apply fate_of_ne
        simpa [target?] using hx.symm
      have hself : (Operation.update e.id d).fate m.store.available e =
          some (e.withDetails d) := by
        rw [fate, if_pos ⟨havailable, rfl⟩]
        rfl
      refine ⟨[], ?_, areNew_nil m⟩
      rw [List.append_nil, hevents, List.filterMap_append, List.filterMap_cons_some hself,
        filterMap_fate_of_forall fun x hx => hother x (hbefore x hx),
        filterMap_fate_of_forall fun x hx => hother x (hafter x hx)]
      rfl
    | @deleted id hid =>
      have havailable := hserved.resolve_left Bool.false_ne_true
      refine ⟨[], ?_, areNew_nil m⟩
      rw [List.append_nil, ← List.filterMap_eq_filter]
      refine List.filterMap_congr fun x _ => ?_
      by_cases hx : x.id = id
      · simp [fate, havailable, target?, makes, hx]
      · simp [fate, target?, hx, Ne.symm hx]
  · rw [perform_of_refused hrefused]
    refine ⟨[], ?_, areNew_nil m⟩
    rw [List.append_nil, filterMap_fate_of_forall]
    intro e he
    cases hrefused with
    | unavailable _ havailable =>
      rw [havailable]
      exact fate_false op e
    | notFound _ htarget hmissing =>
      apply fate_of_ne
      rw [htarget]
      intro hid
      exact hmissing e he (Option.some.inj hid).symm

/-- **The events of a calendar keep their places and their ids**: through any
    operations, the old ones are in the order in which they were, each with what has
    become of it, and new ones come behind them. -/
theorem events_after (hids : (m.events.map (·.id)).Nodup) (hfresh : m.Fresh)
    (ops : List Operation) :
    ∃ new, (m.after ops).events = m.events.filterMap (fates m.store.available ops) ++ new ∧
      m.AreNew new := by
  induction ops generalizing m with
  | nil =>
    refine ⟨[], ?_, areNew_nil m⟩
    rw [List.append_nil]
    exact (List.filterMap_some).symm
  | cons op ops ih =>
    obtain ⟨new, hevents, hnew⟩ := events_perform hids op
    obtain ⟨later, hlater, hnewer⟩ := ih (nodup_perform hfresh hids op) (hfresh.perform op)
    rw [available_perform] at hlater
    -- what was new after the first operation has a fate of its own in the others
    refine ⟨new.filterMap (fates (op.leaves m.store.available) ops) ++ later, ?_,
      (hnew.fates _ ops).append hnewer.of_perform⟩
    rw [after_cons, hlater, hevents, List.filterMap_append, List.filterMap_filterMap,
      List.append_assoc]
    rfl

/-! ### Carrying the command out -/

/-- What a command with the id of an event leaves of the event. -/
def remade (today : Date) : Command → Event → Except Failure (List Event)
  | .modify _ description startTime endTime, e =>
    (Execution.details description startTime endTime today).map fun d => [e.withDetails d]
  | .remove _, _ => .ok []
  | .add .., e | .list, e => .ok [e]

variable {today : Date} {c d : Command} {before after left : List Event} {id : String}

theorem run_of_remade_error {failure : Failure} (h : remade today c e = .error failure) :
    Execution.run service today c m = (.error failure, m) := by
  cases c with
  | add | remove | list => cases h
  | modify id description startTime endTime =>
    rw [remade] at h
    rw [run_modify]
    cases hd : Execution.details description startTime endTime today with
    | error failure' =>
      rw [hd] at h
      cases h
      rfl
    | ok d =>
      rw [hd] at h
      cases h

theorem run_of_remade_ok (havailable : m.store.available = true)
    (hids : (m.events.map (·.id)).Nodup) (hevents : m.events = before ++ e :: after)
    (hc : c.scheduleId? = some e.id) (h : remade today c e = .ok left) :
    ∃ o, Execution.run service today c m = (.ok o, m.withEvents (before ++ left ++ after)) := by
  cases c with
  | add | list => cases hc
  | remove =>
    cases hc
    cases h
    rw [List.append_nil]
    exact ⟨_, run_of_effect havailable (removed_of_nodup hevents hids)⟩
  | modify id description startTime endTime =>
    cases hc
    rw [remade] at h
    cases hd : Execution.details description startTime endTime today with
    | error failure =>
      rw [hd] at h
      cases h
    | ok d =>
      rw [hd] at h
      cases h
      rw [List.append_assoc]
      exact ⟨_, run_of_effect havailable (updated_of_nodup hevents hids hd)⟩

/-- What carrying out a command for the event with an id comes to, by what has become
    of the event. -/
inductive Settles (today : Date) (m : MemoryCalendar) (c : Command) (id : String) :
    Option Event → Except Failure Outcome × MemoryCalendar → Prop where
  /-- The event is gone, and no other has its id. -/
  | gone {failure : Failure} :
      (∀ x ∈ m.events, x.id ≠ id) → Settles today m c id none (.error failure, m)
  | failed {e : Event} {failure : Failure} :
      e ∈ m.events → e.id = id →
      (m.store.available = false ∨ remade today c e = .error failure) →
      Settles today m c id (some e) (.error failure, m)
  /-- The event is remade at its place; the events before and behind it are others. -/
  | done {e : Event} {before after left : List Event} {o : Outcome} :
      m.store.available = true → m.events = before ++ e :: after → e.id = id →
      (∀ x ∈ before ++ after, x.id ≠ id) → remade today c e = .ok left →
      Settles today m c id (some e) (.ok o, m.withEvents (before ++ left ++ after))

theorem settles_of_missing (hc : c.scheduleId? = some id)
    (hmissing : ∀ x ∈ m.events, x.id ≠ id) :
    Settles today m c id none (Execution.run service today c m) := by
  obtain ⟨failure, hrun⟩ := exists_failure_of_missing hc hmissing
  rw [hrun]
  exact .gone hmissing

theorem settles_of_stored (hids : (m.events.map (·.id)).Nodup)
    (hevents : m.events = before ++ e :: after) (hc : c.scheduleId? = some e.id) :
    Settles today m c e.id (some e) (Execution.run service today c m) := by
  have he : e ∈ m.events := by simp [hevents]
  cases havailable : m.store.available with
  | false =>
    obtain ⟨failure, hrun⟩ := exists_failure_of_unavailable c havailable
    rw [hrun]
    exact .failed he rfl (.inl havailable)
  | true =>
    cases hleft : remade today c e with
    | error failure =>
      rw [run_of_remade_error hleft]
      exact .failed he rfl (.inr hleft)
    | ok left =>
      obtain ⟨o, hrun⟩ := run_of_remade_ok havailable hids hevents hc hleft
      rw [hrun]
      rw [hevents] at hids
      obtain ⟨hbefore, hafter⟩ := Store.forall_id_ne_of_nodup hids
      refine .done havailable hevents rfl ?_ hleft
      intro x hx
      exact (List.mem_append.mp hx).elim (hbefore x) (hafter x)

/-- **A resolved id pins its event.**  The reference of a resolved command names the
    place of an event, whose id the command then has.  After any operations of others,
    carrying the command out changes or removes that event as they have left it, or
    fails, and in no case touches another. -/
theorem resolved_id_pins (hids : (m.events.map (·.id)).Nodup) (hfresh : m.Fresh)
    (hresolve : Resolution.ofCommand service c m = (.ok ⟨d, some id⟩, m)) :
    ∃ (reference : String) (n : Nat) (e : Event), c.scheduleId? = some reference ∧
      NamesOrdinal reference n ∧ m.events[n]? = some e ∧ e.id = id ∧
      c.withScheduleId? id = some d ∧
      ∀ (ops : List Operation) (today : Date),
        Settles today (m.after ops) d id (fates true ops e)
          (Execution.run service today d (m.after ops)) := by
  rw [ofCommand_service, Prod.mk.injEq] at hresolve
  obtain ⟨havailable, hd, reference, n, e, hreference, hordinal, he, rfl⟩ :=
    named_of_resolve hresolve.1
  refine ⟨reference, n, e, hreference, hordinal, he, rfl, hd, fun ops today => ?_⟩
  have hc := Command.scheduleId?_of_withScheduleId? hd
  obtain ⟨before, after, hevents⟩ := List.append_of_mem (List.mem_of_getElem? he)
  obtain ⟨hbefore, hafter⟩ := Store.forall_id_ne_of_nodup (hevents ▸ hids)
  obtain ⟨new, hnow, hnew⟩ := events_after hids hfresh ops
  obtain ⟨_, hidsNow⟩ := nodup_after hfresh hids ops
  rw [hevents, havailable, List.filterMap_append] at hnow
  cases hfate : fates true ops e with
  | none =>
    rw [List.filterMap_cons_none hfate] at hnow
    apply settles_of_missing hc
    -- whatever is there comes from an event beside this one, or is new
    intro x hx
    rw [hnow, List.mem_append, List.mem_append] at hx
    rcases hx with (hx | hx) | hx
    · obtain ⟨y, hy, hid⟩ := exists_mem_of_mem_filterMap_fates hx
      rw [hid]
      exact hbefore y hy
    · obtain ⟨y, hy, hid⟩ := exists_mem_of_mem_filterMap_fates hx
      rw [hid]
      exact hafter y hy
    · obtain ⟨k, hk, hid⟩ := hnew x hx
      rw [hid]
      exact (hfresh.apart e (List.mem_of_getElem? he) k hk).symm
  | some e' =>
    rw [List.filterMap_cons_some hfate, List.append_assoc] at hnow
    rw [← id_of_fates hfate] at hc ⊢
    exact settles_of_stored hidsNow hnow hc

/-- Others remove the event before the one that is meant, add one and rename it: the
    command still means it.  Once they have removed it, the command means none. -/
theorem resolved_id_pins_moved :
    let m := numbered [⟨"a", "Lunch", "", ""⟩, ⟨"b", "Tea", "", ""⟩, ⟨"c", "Walk", "", ""⟩]
    let noon : DateTime := ⟨⟨2024, 1, 1, by decide⟩, ⟨12, 0, 0, 0, by decide⟩⟩
    let d : EventDetails := ⟨"Dinner", noon, noon⟩
    let ops := [.delete "a", .add d, .update "b" d]
    Resolution.ofCommand service (.remove "No.1 Tea") m = (.ok ⟨.remove "b", some "b"⟩, m) ∧
    Settles noon.date (m.after ops) (.remove "b") "b" (some (d.event "b"))
      (Execution.run service noon.date (.remove "b") (m.after ops)) ∧
    Settles noon.date (m.after (ops ++ [.delete "b"])) (.remove "b") "b" none
      (Execution.run service noon.date (.remove "b") (m.after (ops ++ [.delete "b"]))) := by
  intro m noon d ops
  have hfresh : m.Fresh := fresh_numbered (by decide +kernel)
  have hids : (m.events.map (·.id)).Nodup := by decide +kernel
  have hresolve : Resolution.ofCommand service (.remove "No.1 Tea") m =
      (.ok ⟨.remove "b", some "b"⟩, m) := by
    rw [ofCommand_service, Prod.mk.injEq]
    exact ⟨by decide +kernel, rfl⟩
  obtain ⟨reference, n, e, hreference, hordinal, he, _, _, hsettles⟩ :=
    resolved_id_pins hids hfresh hresolve
  have hone : NamesOrdinal "No.1 Tea" 1 := targetOrdinal?_eq_natText_iff.mp (by decide +kernel)
  cases hreference
  cases hordinal.unique hone
  cases he
  exact ⟨hresolve, hsettles ops noon.date, hsettles (ops ++ [.delete "b"]) noon.date⟩

end MemoryCalendar

end Datebook
