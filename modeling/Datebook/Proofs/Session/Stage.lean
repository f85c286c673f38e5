/-
  Datebook/Proofs/Session/Stage.lean
  ==================================
  **Turns on a stage**: with a calendar in memory and a model that follows a
  script.

  Of the calls of a turn, only carrying a command out touches the calendar, and
  nothing touches the day.  So a turn does one of two things to the calendar:
  nothing, or what one command does (`Session.Takes.calendar`).  The replies that
  come up on a course are those of the script (`Session.Heard.script`,
  `Session.Replied.script`).
-/
import Datebook.Proofs.Calendar.Reference
import Datebook.Proofs.Session.Course
import Datebook.Proofs.Session.Lifting
import Datebook.Session.Rehearsal

namespace Datebook

namespace Stage

/-- A stage on New Year's Day with these events and replies; its clock stands still. -/
def onNewYear (events : List Event) (replies : List (Except Failure String)) : Stage where
  memory := ⟨.ofEvents events, .constant "new"⟩
  stamps := .constant
    { id := ⟨List.replicate 32 ⟨0, Nat.succ_pos 15⟩, rfl⟩
      time := ⟨⟨⟨2024, 1, 1, by decide⟩, ⟨0, 0, 0, 0, by decide⟩⟩⟩ }
  today := ⟨2024, 1, 1, by decide⟩
  replies := replies
  calls := []

variable {stage stage' : Stage}

/-! ### The calls of a turn -/

/-- Neither the calendar nor the day has changed. -/
structure Undisturbed (stage stage' : Stage) : Prop where
  memory : stage'.memory = stage.memory
  today : stage'.today = stage.today

theorem Undisturbed.trans {stage₁ stage₂ stage₃ : Stage} (h : Undisturbed stage₁ stage₂)
    (h' : Undisturbed stage₂ stage₃) : Undisturbed stage₁ stage₃ :=
  ⟨h'.memory.trans h.memory, h'.today.trans h.today⟩

theorem complete_of_replies {replies : List (Except Failure String)}
    {reply : Except Failure String} (h : stage.replies = reply :: replies) (instructions : String)
    (history : List ChatMessage) (user : String) :
    services.model.complete instructions history user stage =
      (reply, { stage with
        calls := stage.calls ++ [⟨instructions, history, user⟩]
        replies := replies }) := by
  change complete instructions history user stage = _
  rw [complete, h]

theorem complete_of_no_replies (h : stage.replies = []) (instructions : String)
    (history : List ChatMessage) (user : String) :
    services.model.complete instructions history user stage =
      (.error scriptOver, { stage with
        calls := stage.calls ++ [⟨instructions, history, user⟩] }) := by
  change complete instructions history user stage = _
  rw [complete, h]

theorem undisturbed_of_complete {instructions : String} {history : List ChatMessage}
    {user : String} {reply : Except Failure String}
    (h : services.model.complete instructions history user stage = (reply, stage')) :
    Undisturbed stage stage' := by
  cases hreplies : stage.replies with
  | nil =>
    rw [complete_of_no_replies hreplies] at h
    cases h
    exact ⟨rfl, rfl⟩
  | cons next replies =>
    rw [complete_of_replies hreplies] at h
    cases h
    exact ⟨rfl, rfl⟩

theorem replies_of_complete_ok {instructions : String} {history : List ChatMessage}
    {user reply : String}
    (h : services.model.complete instructions history user stage = (.ok reply, stage')) :
    stage.replies = .ok reply :: stage'.replies := by
  cases hreplies : stage.replies with
  | nil =>
    rw [complete_of_no_replies hreplies] at h
    cases h
  | cons next replies =>
    rw [complete_of_replies hreplies] at h
    cases h
    rfl

theorem undisturbed_of_stamp {stamp : Stamp} (h : services.stamp stage = (stamp, stage')) :
    Undisturbed stage stage' ∧ stage'.replies = stage.replies := by
  cases h
  exact ⟨⟨rfl, rfl⟩, rfl⟩

theorem list_apply (stage : Stage) :
    services.calendar.list stage = (stage.memory.store.list.mapError .calendar, stage) := rfl

theorem stage_of_list {answer : Except Failure Listing}
    (h : services.calendar.list stage = (answer, stage')) : stage' = stage := by
  rw [list_apply, Prod.mk.injEq] at h
  exact h.2.symm

/-- A listing that was given lists the stored events. -/
theorem listing_of_list_ok {l : Listing} (h : services.calendar.list stage = (.ok l, stage')) :
    stage.memory.store.available = true ∧ l = listing stage.memory.events := by
  rw [list_apply, Prod.mk.injEq] at h
  cases hlist : stage.memory.store.list with
  | error fault =>
    rw [hlist] at h
    cases h.1
  | ok l' =>
    rw [hlist] at h
    obtain rfl : l' = l := Except.ok.inj h.1
    exact Store.list_eq_ok_iff.mp hlist

theorem carries_onMemory : Carries (StateM MemoryCalendar) (StateM Stage) onMemory where
  pure _ := rfl
  bind _ _ := rfl

theorem run_apply (today : Date) (c : Command) (stage : Stage) :
    Execution.run services.calendar today c stage =
      ((Execution.run MemoryCalendar.service today c stage.memory).1,
        { stage with
          memory := (Execution.run MemoryCalendar.service today c stage.memory).2 }) :=
  congrFun (carries_onMemory.execution MemoryCalendar.service today c).symm stage

/-- Resolving asks the calendar at most, and so leaves the stage alone. -/
theorem ofCommand_apply (c : Command) (stage : Stage) :
    Resolution.ofCommand services.calendar c stage = (stage.memory.resolve c, stage) := by
  rw [Resolution.ofCommand_eq, MemoryCalendar.resolve]
  cases c.scheduleId?.bind targetOrdinal? <;> rfl

theorem stage_of_ofCommand {c : Command} {answer : Except Failure Resolution}
    (h : Resolution.ofCommand services.calendar c stage = (answer, stage')) : stage' = stage := by
  rw [ofCommand_apply, Prod.mk.injEq] at h
  exact h.2.symm

theorem run_memory {today : Date} {c : Command} {answer : Except Failure Outcome}
    (h : Execution.run services.calendar today c stage = (answer, stage')) :
    Execution.run MemoryCalendar.service today c stage.memory = (answer, stage'.memory) ∧
      stage'.today = stage.today := by
  rw [run_apply, Prod.mk.injEq] at h
  obtain ⟨rfl, rfl⟩ := h
  exact ⟨rfl, rfl⟩

end Stage

namespace Session

open Stage

variable {s s₁ s₂ s' : Session} {stage stage₁ stage₂ stage' : Stage} {question : String}
  {intent : IntentCode}

/-! ### Turns -/

/-- The intent is what the next reply of the script says. -/
theorem Heard.script (h : Heard services s question stage intent s₁ stage₁) :
    ∃ reply, stage.replies = .ok reply :: stage₁.replies ∧ intent = interpretReply reply ∧
      Undisturbed stage stage₁ := by
  cases h with
  | @mk reply _ _ _ hintent hstamp =>
    obtain ⟨hundisturbed, hreplies⟩ := undisturbed_of_stamp hstamp
    refine ⟨reply, ?_, rfl, (undisturbed_of_complete hintent).trans hundisturbed⟩
    rw [hreplies]
    exact replies_of_complete_ok hintent

/-- The reply is the one behind it. -/
theorem Replied.script {reply : String} {id : Uuid}
    (h : Replied services s question stage intent reply id s₂ stage₂) :
    ∃ intentReply, stage.replies = .ok intentReply :: .ok reply :: stage₂.replies ∧
      intent = interpretReply intentReply ∧ Undisturbed stage stage₂ := by
  cases h with
  | mk hheard hask hreply hstamp =>
    obtain ⟨intentReply, hscript, hintent, hbefore⟩ := hheard.script
    obtain ⟨hafter, hreplies⟩ := undisturbed_of_stamp hstamp
    refine ⟨intentReply, ?_, hintent,
      (hbefore.trans (undisturbed_of_complete hreply)).trans hafter⟩
    rw [hscript, hreplies]
    exact congrArg _ (replies_of_complete_ok hreply)

theorem Replied.asksForCommand {reply : String} {id : Uuid}
    (h : Replied services s question stage intent reply id s₂ stage₂) :
    (Strategy.ofCode intent).asksForCommand = true := by
  cases h
  assumption

theorem Heard.of_script {intentReply : String} {rest : List (Except Failure String)}
    (h : Heard services s question stage intent s₁ stage₁)
    (hscript : stage.replies = .ok intentReply :: rest) :
    intent = interpretReply intentReply ∧ stage₁.replies = rest := by
  obtain ⟨reply, hreplies, hintent, _⟩ := h.script
  rw [hscript, List.cons.injEq, Except.ok.injEq] at hreplies
  obtain ⟨rfl, hrest⟩ := hreplies
  exact ⟨hintent, hrest.symm⟩

theorem Replied.of_script {intentReply reply reply' : String} {id : Uuid}
    {rest : List (Except Failure String)}
    (h : Replied services s question stage intent reply' id s₂ stage₂)
    (hscript : stage.replies = .ok intentReply :: .ok reply :: rest) :
    intent = interpretReply intentReply ∧ reply' = reply := by
  obtain ⟨_, hreplies, hintent, _⟩ := h.script
  rw [hscript, List.cons.injEq, Except.ok.injEq, List.cons.injEq, Except.ok.injEq] at hreplies
  obtain ⟨rfl, rfl, _⟩ := hreplies
  exact ⟨hintent, rfl⟩

/-- What is resolved and carried out behind a reply meets the calendar and the day
    as they were before the turn. -/
theorem Replied.perform {reply : String} {id : Uuid} {command : Command} {resolution : Resolution}
    {today : Date} {answer : Except Failure Outcome} {stage₃ stage₄ stage₅ : Stage}
    (h : Replied services s question stage intent reply id s₂ stage₂)
    (hresolve : Resolution.ofCommand services.calendar command stage₂ = (.ok resolution, stage₃))
    (htoday : services.today stage₃ = (today, stage₄))
    (hrun : Execution.run services.calendar today resolution.command stage₄ = (answer, stage₅)) :
    stage.memory.resolve command = .ok resolution ∧
      Execution.run MemoryCalendar.service stage.today resolution.command stage.memory =
        (answer, stage₅.memory) ∧
      stage₅.today = stage.today := by
  obtain ⟨_, _, _, hkept⟩ := h.script
  obtain rfl := stage_of_ofCommand hresolve
  rw [ofCommand_apply, Prod.mk.injEq, hkept.memory] at hresolve
  cases htoday
  obtain ⟨hrun, htoday⟩ := run_memory hrun
  rw [hkept.memory, hkept.today] at hrun
  exact ⟨hresolve.1, hrun, htoday.trans hkept.today⟩

/-- Nothing but a command that is carried out changes the calendar.  This says
    the same of a turn as `Execution.run` of the commands, none or one, that the
    turn carries out. -/
theorem Takes.calendar {course : Course}
    (h : Takes services s question stage course s' stage') :
    stage'.today = stage.today ∧
      ((course.commands = [] ∧ stage'.memory = stage.memory) ∨
        ∃ c o, course.commands = [c] ∧
          Execution.run MemoryCalendar.service stage.today c stage.memory =
            (.ok o, stage'.memory)) := by
  cases h with
  | unclassified hintent hstamp =>
    have hkept := (undisturbed_of_complete hintent).trans (undisturbed_of_stamp hstamp).1
    exact ⟨hkept.today, .inl ⟨rfl, hkept.memory⟩⟩
  | unlisted hheard hshow hlist =>
    obtain ⟨_, _, _, hkept⟩ := hheard.script
    obtain rfl := stage_of_list hlist
    exact ⟨hkept.today, .inl ⟨rfl, hkept.memory⟩⟩
  | listed hheard hshow hlist hstamp =>
    obtain ⟨_, _, _, hkept⟩ := hheard.script
    obtain rfl := stage_of_list hlist
    have hkept := hkept.trans (undisturbed_of_stamp hstamp).1
    exact ⟨hkept.today, .inl ⟨rfl, hkept.memory⟩⟩
  | unanswered hheard hask hreply =>
    obtain ⟨_, _, _, hkept⟩ := hheard.script
    have hkept := hkept.trans (undisturbed_of_complete hreply)
    exact ⟨hkept.today, .inl ⟨rfl, hkept.memory⟩⟩
  | words hreplied =>
    obtain ⟨_, _, _, hkept⟩ := hreplied.script
    exact ⟨hkept.today, .inl ⟨rfl, hkept.memory⟩⟩
  | unresolved hreplied hcommand hresolve =>
    obtain ⟨_, _, _, hkept⟩ := hreplied.script
    obtain rfl := stage_of_ofCommand hresolve
    exact ⟨hkept.today, .inl ⟨rfl, hkept.memory⟩⟩
  | refused hreplied hcommand hresolve htoday hrun =>
    obtain ⟨_, hrun, htoday⟩ := hreplied.perform hresolve htoday hrun
    exact ⟨htoday, .inl ⟨rfl, MemoryCalendar.calendar_of_run_eq_error hrun⟩⟩
  | executed hreplied hcommand hresolve htoday hrun =>
    obtain ⟨_, hrun, htoday⟩ := hreplied.perform hresolve htoday hrun
    exact ⟨htoday, .inr ⟨_, _, rfl, hrun⟩⟩

/-- A listing that was shown is that of the stored events, and showing it changes
    none of them. -/
theorem Takes.listing_eq {course : Course} {l : Listing}
    (h : Takes services s question stage course s' stage') (hlisting : course.listing? = some l) :
    stage'.memory = stage.memory ∧ l = listing stage.memory.events := by
  cases h with
  | unclassified | unlisted | unanswered | words | unresolved | refused => cases hlisting
  | listed hheard hshow hlist hstamp =>
    cases hlisting
    obtain ⟨_, _, _, hkept⟩ := hheard.script
    obtain ⟨_, hl⟩ := listing_of_list_ok hlist
    obtain rfl := stage_of_list hlist
    rw [← hkept.memory]
    exact ⟨(undisturbed_of_stamp hstamp).1.memory, hl⟩
  | @executed _ _ _ _ _ _ outcome _ _ _ _ _ hreplied hcommand hresolve htoday hrun =>
    obtain ⟨_, hrun, _⟩ := hreplied.perform hresolve htoday hrun
    cases outcome with
    | added | updated | removed => cases hlisting
    | listed =>
      cases hlisting
      obtain ⟨_, heffect⟩ := MemoryCalendar.effect_of_run_eq_ok hrun
      exact heffect.of_listed

/-- Once the model has said that the calendar is to be shown, a turn shows it if it
    is available. -/
theorem Takes.of_list {course : Course} {intentReply : String}
    {rest : List (Except Failure String)}
    (h : Takes services s question stage course s' stage')
    (hscript : stage.replies = .ok intentReply :: rest)
    (hshow : (Strategy.ofCode (interpretReply intentReply)).asksForCommand = false) :
    (stage.memory.store.available = false ∧
        ∃ cause, course = .unlisted (interpretReply intentReply) cause) ∨
      (stage.memory.store.available = true ∧
        course = .listed (interpretReply intentReply) (listing stage.memory.events)) := by
  cases h with
  | unclassified hintent =>
    rw [complete_of_replies hscript] at hintent
    cases hintent
  | unlisted hheard _ hlist =>
    obtain ⟨rfl, _⟩ := hheard.of_script hscript
    obtain ⟨_, _, _, hkept⟩ := hheard.script
    left
    refine ⟨?_, _, rfl⟩
    rw [list_apply, Prod.mk.injEq, hkept.memory] at hlist
    by_contra havailable
    rw [Bool.not_eq_false] at havailable
    rw [Store.list_eq_ok_iff.mpr ⟨havailable, rfl⟩] at hlist
    cases hlist.1
  | listed hheard _ hlist =>
    obtain ⟨rfl, _⟩ := hheard.of_script hscript
    obtain ⟨_, _, _, hkept⟩ := hheard.script
    right
    rw [← hkept.memory]
    obtain ⟨havailable, rfl⟩ := listing_of_list_ok hlist
    exact ⟨havailable, rfl⟩
  | unanswered hheard hask =>
    obtain ⟨rfl, _⟩ := hheard.of_script hscript
    rw [hshow] at hask
    cases hask
  | words hreplied | unresolved hreplied | refused hreplied | executed hreplied =>
    obtain ⟨_, hreplies, hintent, _⟩ := hreplied.script
    rw [hscript, List.cons.injEq, Except.ok.injEq] at hreplies
    have hask := hreplied.asksForCommand
    rw [hintent, ← hreplies.1, hshow] at hask
    cases hask

/-- Once the model has said what is read as a command, a turn resolves the command
    and carries out what it was resolved to. -/
theorem Takes.of_command {course : Course} {intentReply reply : String}
    {rest : List (Except Failure String)} {c : Command}
    (h : Takes services s question stage course s' stage')
    (hscript : stage.replies = .ok intentReply :: .ok reply :: rest)
    (hask : (Strategy.ofCode (interpretReply intentReply)).asksForCommand = true)
    (hcommand : commandOf? reply = some c) :
    (∃ cause, stage.memory.resolve c = .error cause ∧
        course = .unresolved (interpretReply intentReply) reply cause) ∨
      ∃ resolution answer, stage.memory.resolve c = .ok resolution ∧
        Execution.run MemoryCalendar.service stage.today resolution.command stage.memory =
          (answer, stage'.memory) ∧
        course.answer =
          (answer.map fun _ => resolution.command.render).mapError Failure.ofTurn := by
  cases h with
  | unclassified hintent =>
    rw [complete_of_replies hscript] at hintent
    cases hintent
  | unlisted hheard hshow | listed hheard hshow =>
    obtain ⟨rfl, _⟩ := hheard.of_script hscript
    rw [hask] at hshow
    cases hshow
  | unanswered hheard _ hreply =>
    obtain ⟨_, hreplies⟩ := hheard.of_script hscript
    rw [generateReply, complete_of_replies hreplies] at hreply
    cases hreply
  | words hreplied hnone =>
    obtain ⟨_, rfl⟩ := hreplied.of_script hscript
    rw [hcommand] at hnone
    cases hnone
  | unresolved hreplied hsome hresolve =>
    obtain ⟨rfl, rfl⟩ := hreplied.of_script hscript
    obtain ⟨_, _, _, hkept⟩ := hreplied.script
    rw [hcommand, Option.some.injEq] at hsome
    subst hsome
    rw [ofCommand_apply, Prod.mk.injEq, hkept.memory] at hresolve
    exact .inl ⟨_, hresolve.1, rfl⟩
  | refused hreplied hsome hresolve htoday hrun | executed hreplied hsome hresolve htoday hrun =>
    obtain ⟨rfl, rfl⟩ := hreplied.of_script hscript
    rw [hcommand, Option.some.injEq] at hsome
    subst hsome
    obtain ⟨hresolve, hrun, _⟩ := hreplied.perform hresolve htoday hrun
    exact .inr ⟨_, _, hresolve, hrun, rfl⟩

end Session

end Datebook
