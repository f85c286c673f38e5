/-
  Datebook/Proofs/Session/Correctable.lean
  ========================================
  **The user is asked to put it differently exactly for a time that cannot be read.**

  Failures come up in five places of a turn, and `Failure` has more kinds than any of
  them can give.  A text that is no command is no failure at all: it is answered as it
  came.  So of the kinds that the user can mend, only that of a time is left, and it
  comes up only where a command was read and resolved.  A time counts before an id that
  no event has, since it is read before the calendar is called; a calendar that cannot
  give a listing counts before the time, since references are looked up first.
-/
import Datebook.Proofs.Calendar.Redirection
import Datebook.Proofs.Calendar.Timing
import Datebook.Proofs.Command.Recognition
import Datebook.Proofs.Session.Stage

namespace Datebook

/-- What the user cannot mend: the model or the calendar fails. -/
inductive Failure.IsOutage : Failure → Prop where
  | classification (reason : String) : IsOutage (.classification reason)
  | model (fault : ModelFault) : IsOutage (.model fault)
  | calendar (fault : CalendarFault) : IsOutage (.calendar fault)

theorem Failure.IsOutage.isCorrectable {failure : Failure} (h : failure.IsOutage) :
    failure.isCorrectable = false := by
  cases h <;> rfl

theorem Failure.IsOutage.ofTurn {failure : Failure} (h : failure.IsOutage) :
    failure.ofTurn = .turn failure := by
  cases h <;> rfl

/-- A script that fails only with failures of the model. -/
def OnlyModelFails (replies : List (Except Failure String)) : Prop :=
  ∀ failure, .error failure ∈ replies → ∃ fault, failure = .model fault

namespace Stage

variable {stage stage' : Stage} {cause : Failure}

theorem isOutage_of_complete {instructions : String} {history : List ChatMessage} {user : String}
    (hmodel : OnlyModelFails stage.replies)
    (h : services.model.complete instructions history user stage = (.error cause, stage')) :
    cause.IsOutage := by
  cases hreplies : stage.replies with
  | nil =>
    rw [complete_of_no_replies hreplies] at h
    cases h
    exact .model _
  | cons reply replies =>
    rw [complete_of_replies hreplies, Prod.mk.injEq] at h
    have hfails : .error cause ∈ stage.replies := by
      rw [hreplies, h.1]
      exact .head _
    obtain ⟨fault, rfl⟩ := hmodel cause hfails
    exact .model fault

theorem isOutage_of_list (h : services.calendar.list stage = (.error cause, stage')) :
    cause.IsOutage := by
  rw [list_apply, Prod.mk.injEq] at h
  cases hlist : stage.memory.store.list with
  | ok l =>
    rw [hlist] at h
    cases h.1
  | error fault =>
    rw [hlist] at h
    cases h.1
    exact .calendar fault

theorem isOutage_of_ofCommand {c : Command}
    (h : Resolution.ofCommand services.calendar c stage = (.error cause, stage')) :
    cause.IsOutage := by
  rw [ofCommand_apply, Prod.mk.injEq] at h
  obtain ⟨fault, rfl⟩ := MemoryCalendar.cause_of_resolve_eq_error h.1
  exact .calendar fault

end Stage

namespace Session

/-- The model wants no listing but writes a command that adds or modifies, and the command
    can be resolved; one of its times, with the day put in, is no date-time. -/
def IsUntimely (stage : Stage) : Prop :=
  ∃ ask reply rest c resolution, stage.replies = .ok ask :: .ok reply :: rest ∧
    interpretReply ask ≠ Intent.listSchedule.code ∧
    Command.read (Command.stripMarkup reply) = .ok c ∧ (c.verb = .add ∨ c.verb = .modify) ∧
    (Resolution.ofCommand MemoryCalendar.service c stage.memory).1 = .ok resolution ∧
    ∃ t ∈ c.times, Time.read? (Time.fillPlaceholder t stage.today) = none

/-! ### What a turn fails with -/

/-- What went wrong, on a course on which something did. -/
def Course.cause? : Course → Option Failure
  | .unclassified cause => some (.classification cause.message)
  | .unlisted _ cause | .unanswered _ cause | .unresolved _ _ cause | .refused _ _ _ cause =>
    some cause
  | .listed _ _ | .words _ _ | .executed _ _ _ _ => none

theorem Course.answer_eq_error_iff {course : Course} {failure : Failure} :
    course.answer = .error failure ↔
      ∃ cause, course.cause? = some cause ∧ failure = cause.ofTurn := by
  cases course with
  | unclassified | unlisted | unanswered | unresolved | refused =>
    simp [answer, cause?, eq_comm]
  | listed | words | executed => simp [answer, cause?]

variable {s s' : Session} {stage stage' : Stage} {question : String} {course : Course}
  {cause : Failure}

/-- A turn fails because the model or the calendar does, or for a time. -/
theorem Takes.outage_or_untimely (h : Takes Stage.services s question stage course s' stage')
    (hmodel : OnlyModelFails stage.replies) (hcause : course.cause? = some cause) :
    cause.IsOutage ∨ ∃ text, cause = .dateTime text ∧ IsUntimely stage ∧
      stage'.memory = stage.memory := by
  cases h with
  | listed | words | executed => cases hcause
  | unclassified =>
    cases hcause
    exact .inl (.classification _)
  | unlisted _ _ hlist =>
    cases hcause
    exact .inl (Stage.isOutage_of_list hlist)
  | @unanswered _ _ _ stage₁ _ hheard _ hreply =>
    cases hcause
    -- the reply about the intent is gone, and what is left of the script fails no other way
    obtain ⟨_, hreplies, _, _⟩ := hheard.script
    have hrest : OnlyModelFails stage₁.replies := by
      intro failure hfailure
      apply hmodel
      rw [hreplies]
      exact .tail _ hfailure
    exact .inl (Stage.isOutage_of_complete hrest hreply)
  | unresolved _ _ hresolve =>
    cases hcause
    exact .inl (Stage.isOutage_of_ofCommand hresolve)
  | @refused _ _ _ command resolution _ _ _ _ _ _ _ hreplied hcommand hresolve htoday hrun =>
    cases hcause
    obtain ⟨ask, hscript, hintent, _⟩ := hreplied.script
    have hask := hreplied.asksForCommand
    obtain ⟨hresolve, hrun, _⟩ := hreplied.perform hresolve htoday hrun
    rcases MemoryCalendar.cause_of_run_eq_error hrun with ⟨text, htext, rfl⟩ | ⟨_, fault, rfl⟩
    · right
      refine ⟨text, rfl, ?_, MemoryCalendar.calendar_of_run_eq_error hrun⟩
      obtain ⟨t, ht, hbad⟩ := Execution.exists_unreadable_iff.mp ⟨text, htext⟩
      rw [MemoryCalendar.times_of_resolve hresolve] at ht
      rw [hintent, Strategy.asksForCommand_iff] at hask
      refine ⟨ask, _, _, command, resolution, hscript, hask, commandOf?_eq_some_iff.mp hcommand,
        Command.verb_of_mem_times ht, ?_, t, ht, hbad⟩
      rw [MemoryCalendar.ofCommand_service, hresolve]
    · exact .inl (.calendar fault)

/-- A command with such a time is not carried out, whatever else is wrong with it. -/
theorem Takes.answer_of_isUntimely (h : Takes Stage.services s question stage course s' stage')
    (hstage : IsUntimely stage) : ∃ text, course.answer = .error (.turn (.dateTime text)) := by
  obtain ⟨ask, reply, rest, c, resolution, hscript, hask, hread, _, hresolve, htime⟩ := hstage
  replace hresolve : stage.memory.resolve c = .ok resolution := by
    rwa [MemoryCalendar.ofCommand_service] at hresolve
  rcases h.of_command hscript ((Strategy.asksForCommand_iff _).mpr hask)
      (commandOf?_eq_some_iff.mpr hread) with
    ⟨cause, hfails, _⟩ | ⟨resolution', answer, hresolve', hrun, hanswer⟩
  · rw [hresolve] at hfails
    cases hfails
  · rw [hresolve] at hresolve'
    cases hresolve'
    rw [← MemoryCalendar.times_of_resolve hresolve] at htime
    obtain ⟨text, htext⟩ := Execution.exists_unreadable_iff.mpr htime
    rw [Execution.run_of_unreadable _ htext] at hrun
    obtain rfl : .error (.dateTime text) = answer := congrArg Prod.fst hrun
    exact ⟨text, hanswer⟩

/-! ### Turns that the user can mend -/

/-- **A turn can be mended by the user exactly if it fails for a time.**  While the model
    fails only as models do, every failure of a turn on a calendar in memory is wrapped
    once around one that came up in it: the intent could not be asked for, the model or
    the calendar failed, or a text is no date-time.  The last of these, the only one that
    asks for another wording, comes up exactly if a command to add or to modify was
    written and resolved and one of its times cannot be read.  Then the calendar is what
    it was. -/
theorem isCorrectable_iff_isUntimely (s : Session) (question : String) (stage : Stage)
    (hmodel : OnlyModelFails stage.replies) :
    ∃ answer s' stage', s.send Stage.services question stage = ((answer, s'), stage') ∧
      (∀ failure, answer = .error failure → ∃ cause, failure = .turn cause ∧
        (cause.IsOutage ∨ ∃ text, cause = .dateTime text)) ∧
      ((∃ failure, answer = .error failure ∧ failure.isCorrectable = true) ↔ IsUntimely stage) ∧
      (IsUntimely stage → stage'.memory = stage.memory) := by
  obtain ⟨course, s', stage', hsend, htakes⟩ := exists_takes_send Stage.services s question stage
  refine ⟨course.answer, s', stage', hsend, ?_, ⟨?_, ?_⟩, ?_⟩
  · intro failure hfailure
    obtain ⟨cause, hcause, rfl⟩ := Course.answer_eq_error_iff.mp hfailure
    rcases htakes.outage_or_untimely hmodel hcause with houtage | ⟨text, rfl, _⟩
    · exact ⟨cause, houtage.ofTurn, .inl houtage⟩
    · exact ⟨_, rfl, .inr ⟨text, rfl⟩⟩
  · rintro ⟨failure, hfailure, hmend⟩
    obtain ⟨cause, hcause, rfl⟩ := Course.answer_eq_error_iff.mp hfailure
    rcases htakes.outage_or_untimely hmodel hcause with houtage | ⟨_, _, huntimely, _⟩
    · rw [Failure.isCorrectable_ofTurn, houtage.isCorrectable] at hmend
      cases hmend
    · exact huntimely
  · intro huntimely
    obtain ⟨text, hanswer⟩ := htakes.answer_of_isUntimely huntimely
    exact ⟨_, hanswer, rfl⟩
  · intro huntimely
    obtain ⟨text, hanswer⟩ := htakes.answer_of_isUntimely huntimely
    obtain ⟨cause, hcause, hturn⟩ := Course.answer_eq_error_iff.mp hanswer
    rcases htakes.outage_or_untimely hmodel hcause with houtage | ⟨_, _, _, hmemory⟩
    · rw [houtage.ofTurn, Failure.turn.injEq] at hturn
      subst hturn
      cases houtage
    · exact hmemory

/-- On a calendar that is unavailable, adding fails for a time, and modifying what has to
    be looked up fails for the calendar. -/
theorem isCorrectable_iff_isUntimely_outage :
    let stage (c : Command) : Stage :=
      let served := Stage.onNewYear [⟨"a", "Lunch", "", ""⟩] [.ok "1", .ok c.render]
      { served with memory := served.memory.setAvailable false }
    let add := Command.add "Lunch" "YYYY-MM-DD 12:00:00" "noon"
    let modify := Command.modify "No.0" "Lunch" "YYYY-MM-DD 12:00:00" "noon"
    (∃ failure s' stage', empty.send Stage.services "Lunch!" (stage add) =
        ((.error failure, s'), stage') ∧ failure.isCorrectable = true ∧
        stage'.memory.events = [⟨"a", "Lunch", "", ""⟩]) ∧
      (∃ failure s' stage', empty.send Stage.services "Lunch!" (stage modify) =
        ((.error failure, s'), stage') ∧ failure.isCorrectable = false) ∧
      ¬ IsUntimely (stage modify) := by
  intro stage add modify
  have hmodel : ∀ c, OnlyModelFails (stage c).replies := by
    intro c failure hfailure
    simp [stage, Stage.onNewYear] at hfailure
  have huntimely : IsUntimely (stage add) := by
    refine ⟨"1", add.render, [], add, ⟨add, none⟩, rfl, by decide, ?_, .inl rfl, by decide +kernel,
      "noon", by decide, by decide +kernel⟩
    rw [Command.stripMarkup_render, Command.read_render]
  obtain ⟨answer, s', stage', hsend, _, hiff, hmemory⟩ :=
    isCorrectable_iff_isUntimely empty "Lunch!" (stage add) (hmodel add)
  obtain ⟨answer', t', stage₁, hsend', _, hiff', _⟩ :=
    isCorrectable_iff_isUntimely empty "Lunch!" (stage modify) (hmodel modify)
  have hanswer' : answer' = .error (.turn (.calendar .unavailable)) := by
    have hanswer' : _ = answer' := congrArg (fun turn => turn.1.1) hsend'
    rw [← hanswer']
    decide +kernel
  refine ⟨?_, ?_, ?_⟩
  · obtain ⟨failure, rfl, hmend⟩ := hiff.mpr huntimely
    exact ⟨failure, s', stage', hsend, hmend, by rw [hmemory huntimely]; rfl⟩
  · rw [hanswer'] at hsend'
    exact ⟨_, _, _, hsend', rfl⟩
  · intro huntimely'
    obtain ⟨failure, hfailure, hmend⟩ := hiff'.mpr huntimely'
    rw [hanswer'] at hfailure
    cases hfailure
    cases hmend

end Session

end Datebook
