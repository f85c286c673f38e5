/-
  Datebook/Proofs/Session/Likeness.lean
  =====================================
  **Of what the model says about the intent, only one thing matters: whether the
  calendar is to be shown.**

  Two sessions are compared that are asked the same.  Their models may see the intent
  differently in every turn, as long as both want the calendar shown or neither does;
  what else the models say, the calendars and the days are the same.  Then the two
  cannot be told apart by anything but the numbers of intents in their transcripts,
  and the ids and times there, which are drawn anew in any case.

  A pair of programs `Agree` if they keep two worlds in a relation and return related
  results.  That composes along `bind`, so it is enough to say it of the calls of the
  services (`Services.Agree`), and to go through the programs of a turn once.
-/
import Datebook.Proofs.Calendar.Operation
import Datebook.Proofs.Execution
import Datebook.Proofs.Resolution
import Datebook.Proofs.Session.Run
import Mathlib.Data.List.Forall2

namespace Datebook

variable {W W' : Type}

/-! ### Programs that agree -/

/-- From worlds in the first relation, the results are related and the worlds are left in
    the second. -/
def Agree {α β : Type} (R : W → W' → Prop) (x : StateM W α) (y : StateM W' β)
    (A : α → β → Prop) (S : W → W' → Prop) : Prop :=
  ∀ w w', R w w' → A (x w).1 (y w').1 ∧ S (x w).2 (y w').2

namespace Agree

variable {α β α' β' : Type} {R S T : W → W' → Prop} {x : StateM W α} {y : StateM W' β}
  {A : α → β → Prop} {B : α' → β' → Prop}

theorem pure {a : α} {b : β} (h : A a b) :
    Agree R (Pure.pure a : StateM W α) (Pure.pure b : StateM W' β) A R :=
  fun _ _ hw => ⟨h, hw⟩

theorem bind {f : α → StateM W α'} {g : β → StateM W' β'} (hxy : Agree R x y A S)
    (hfg : ∀ a b, A a b → Agree S (f a) (g b) B T) : Agree R (x >>= f) (y >>= g) B T := by
  intro w w' hw
  obtain ⟨hresults, hworlds⟩ := hxy w w' hw
  exact hfg _ _ hresults _ _ hworlds

theorem bind_eq {y : StateM W' α} {f : α → StateM W α'} {g : α → StateM W' β'}
    (hxy : Agree R x y Eq S) (hfg : ∀ a, Agree S (f a) (g a) B T) :
    Agree R (x >>= f) (y >>= g) B T := by
  apply hxy.bind
  rintro a _ rfl
  exact hfg a

end Agree

/-- Related results of calls, or the same failure. -/
inductive AlikeResults {α : Type} (A : α → α → Prop) :
    Except Failure α → Except Failure α → Prop where
  | ok {a b : α} : A a b → AlikeResults A (.ok a) (.ok b)
  | error (failure : Failure) : AlikeResults A (.error failure) (.error failure)

/-! ### Calendars -/

structure CalendarService.Agree (R : W → W' → Prop) (calendar : CalendarService (StateM W))
    (calendar' : CalendarService (StateM W')) : Prop where
  list : Datebook.Agree R calendar.list calendar'.list Eq R
  add : ∀ d, Datebook.Agree R (calendar.add d) (calendar'.add d) Eq R
  update : ∀ id d, Datebook.Agree R (calendar.update id d) (calendar'.update id d) Eq R
  delete : ∀ id, Datebook.Agree R (calendar.delete id) (calendar'.delete id) Eq R

section

variable {R : W → W' → Prop} {calendar : CalendarService (StateM W)}
  {calendar' : CalendarService (StateM W')}

theorem CalendarService.Agree.ofCommand (h : calendar.Agree R calendar') (c : Command) :
    Datebook.Agree R (Resolution.ofCommand calendar c) (Resolution.ofCommand calendar' c) Eq R := by
  rw [Resolution.ofCommand_eq, Resolution.ofCommand_eq]
  cases c.scheduleId?.bind targetOrdinal? with
  | none => exact .pure rfl
  | some no => exact h.list.bind_eq fun _ => .pure rfl

theorem CalendarService.Agree.run (h : calendar.Agree R calendar') (today : Date) (c : Command) :
    Datebook.Agree R (Execution.run calendar today c) (Execution.run calendar' today c) Eq R := by
  rw [Execution.run_eq, Execution.run_eq]
  cases Execution.call today c with
  | error failure => exact .pure rfl
  | ok call =>
    cases call with
    | add d => exact (h.add d).bind_eq fun _ => .pure rfl
    | update id d => exact (h.update id d).bind_eq fun _ => .pure rfl
    | delete id => exact (h.delete id).bind_eq fun _ => .pure rfl
    | list => exact h.list.bind_eq fun _ => .pure rfl

end

/-! ### Services -/

/-- Both want the calendar shown, or neither does. -/
def SameChoice (intent intent' : IntentCode) : Prop :=
  intent = Intent.listSchedule.code ↔ intent' = Intent.listSchedule.code

theorem SameChoice.asksForCommand {intent intent' : IntentCode} (h : SameChoice intent intent') :
    (Strategy.ofCode intent).asksForCommand = (Strategy.ofCode intent').asksForCommand := by
  rw [SameChoice, ← Strategy.asksForCommand_ofCode, ← Strategy.asksForCommand_ofCode] at h
  rw [Bool.eq_iff_iff]
  simpa using not_congr h

/-- The replies to a question for the intent are taken for the same choice; every other
    call has the same result, except that stamps may differ.  A turn finds the worlds in
    the first relation, and its first call takes them to the second. -/
structure Services.Agree (R₀ R : W → W' → Prop) (services : Services (StateM W))
    (services' : Services (StateM W')) : Prop where
  intent : ∀ history question, Datebook.Agree R₀
    (services.model.complete Purpose.intent.instructions history question)
    (services'.model.complete Purpose.intent.instructions history question)
    (AlikeResults fun ask ask' => SameChoice (interpretReply ask) (interpretReply ask')) R
  command : ∀ history question, Datebook.Agree R
    (services.model.complete Purpose.command.instructions history question)
    (services'.model.complete Purpose.command.instructions history question) Eq R
  calendar : services.calendar.Agree R services'.calendar
  today : Datebook.Agree R services.today services'.today Eq R
  stamp : Datebook.Agree R services.stamp services'.stamp (fun _ _ => True) R

section

variable {R₀ R : W → W' → Prop} {services : Services (StateM W)}
  {services' : Services (StateM W')}

theorem Services.Agree.classify (h : services.Agree R₀ R services') (prior : List ChatMessage)
    (question : String) :
    Datebook.Agree R₀ (classify services.model prior question)
      (classify services'.model prior question) (AlikeResults SameChoice) R := by
  apply (h.intent prior question).bind
  intro answer answer' hanswers
  cases hanswers with
  | error failure => exact .pure (.error _)
  | ok hchoice => exact .pure (.ok hchoice)

/-! ### Turns -/

namespace Session

/-- Two sessions with the same messages, the same listing and the same log. -/
structure Alike (s s' : Session) : Prop where
  messages : s.transcript.messages = s'.transcript.messages
  lastListing : s.lastListing = s'.lastListing
  executed : s.executed = s'.executed

def EndsWith (s : Session) (id : Uuid) (message : String) : Prop :=
  ∃ before e, s.transcript.entries = before ++ [e] ∧ e.id = id ∧ e.message = message

variable {s s' : Session} {intent intent' : IntentCode}

theorem messages_said (s : Session) (stamp : Stamp) (intent : IntentCode) (speaker : Speaker)
    (message : String) :
    (s.said stamp intent speaker message).transcript.messages =
      s.transcript.messages ++ [⟨speaker, message⟩] := by
  obtain ⟨e, hentries, _, hcontent⟩ := entries_said s stamp intent speaker message
  rw [Transcript.messages, hentries, List.map_append, ← Transcript.messages]
  exact congrArg (s.transcript.messages ++ [·]) (congrArg Prod.snd hcontent)

theorem endsWith_said (s : Session) (stamp : Stamp) (intent : IntentCode) (speaker : Speaker)
    (message : String) : (s.said stamp intent speaker message).EndsWith stamp.id message := by
  obtain ⟨e, hentries, hid, hcontent⟩ := entries_said s stamp intent speaker message
  exact ⟨_, e, hentries, hid, congrArg (fun c => c.2.content) hcontent⟩

theorem Alike.said (h : Alike s s') (stamp stamp' : Stamp) (intent intent' : IntentCode)
    (speaker : Speaker) (message : String) :
    Alike (s.said stamp intent speaker message) (s'.said stamp' intent' speaker message) where
  messages := by rw [messages_said, messages_said, h.messages]
  lastListing := h.lastListing
  executed := h.executed

/-- The reply that gives way to the command's text is the last entry, whatever its id. -/
theorem Alike.noteExecuted {id id' : Uuid} {reply : String} (h : Alike s s')
    (hlast : s.EndsWith id reply) (hlast' : s'.EndsWith id' reply) (command : Command)
    (outcome : Outcome) :
    Alike (s.noteExecuted id reply command outcome) (s'.noteExecuted id' reply command outcome) := by
  obtain ⟨before, e, hentries, rfl, hreply⟩ := hlast
  obtain ⟨before', e', hentries', rfl, hreply'⟩ := hlast'
  constructor
  · have hmessages := h.messages
    rw [Transcript.messages, Transcript.messages, hentries, hentries', List.map_append,
      List.map_append] at hmessages
    -- the last messages may be cut off on both sides, and their speakers are the same
    obtain ⟨hbefore, he⟩ := List.append_inj' hmessages rfl
    have hspeaker : e.speaker = e'.speaker := by
      simpa using congrArg (List.map ChatMessage.role) he
    rw [Transcript.messages, Transcript.messages, entries_noteExecuted hentries hreply,
      entries_noteExecuted hentries' hreply', List.map_append, List.map_append, hbefore]
    simp [hspeaker]
  · simp only [Session.noteExecuted, h.lastListing]
  · exact congrArg (· ++ [command.render]) h.executed

def AlikeTurns (turn turn' : Turn) : Prop := turn.1 = turn'.1 ∧ Alike turn.2 turn'.2

theorem record_agrees (h : services.Agree R₀ R services') (hs : Alike s s')
    (intent intent' : IntentCode) (speaker : Speaker) (message : String) :
    Agree R (s.record services intent speaker message) (s'.record services' intent' speaker message)
      (fun p p' => Alike p.2 p'.2 ∧ p.2.EndsWith p.1 message ∧ p'.2.EndsWith p'.1 message) R := by
  apply h.stamp.bind
  intro stamp stamp' _
  exact .pure ⟨hs.said stamp stamp' intent intent' speaker message,
    endsWith_said s stamp intent speaker message, endsWith_said s' stamp' intent' speaker message⟩

theorem showCalendar_agrees (h : services.Agree R₀ R services') (hs : Alike s s')
    (intent intent' : IntentCode) :
    Agree R (s.showCalendar services intent) (s'.showCalendar services' intent') AlikeTurns R := by
  apply h.calendar.list.bind_eq
  rintro (failure | l)
  · exact .pure ⟨rfl, hs⟩
  · have hshown : Alike { s with lastListing := l } { s' with lastListing := l } :=
      ⟨hs.messages, rfl, hs.executed⟩
    apply (record_agrees h hshown intent intent' .assistant (showListing l)).bind
    rintro p p' ⟨hs, _⟩
    exact .pure ⟨rfl, hs⟩

theorem perform_agrees (h : services.Agree R₀ R services') (hs : Alike s s') {id id' : Uuid}
    {reply : String} (hlast : s.EndsWith id reply) (hlast' : s'.EndsWith id' reply)
    (command : Command) :
    Agree R (s.perform services id reply command) (s'.perform services' id' reply command)
      AlikeTurns R := by
  apply (h.calendar.ofCommand command).bind_eq
  rintro (failure | resolution)
  · exact .pure ⟨rfl, hs⟩
  apply h.today.bind_eq
  intro today
  apply (h.calendar.run today resolution.command).bind_eq
  rintro (failure | outcome)
  · exact .pure ⟨rfl, hs⟩
  · exact .pure ⟨rfl, hs.noteExecuted hlast hlast' resolution.command outcome⟩

theorem askForCommand_agrees (h : services.Agree R₀ R services') (hs : Alike s s')
    (intent intent' : IntentCode) (prior : List ChatMessage) (question : String) :
    Agree R (s.askForCommand services intent prior question)
      (s'.askForCommand services' intent' prior question) AlikeTurns R := by
  apply (h.command prior question).bind_eq
  rintro (failure | reply)
  · exact .pure ⟨rfl, hs⟩
  apply (record_agrees h hs intent intent' .assistant reply).bind
  rintro ⟨id, s₁⟩ ⟨id', s₁'⟩ ⟨hs, hlast, hlast'⟩
  dsimp only
  cases commandOf? reply with
  | none => exact .pure ⟨rfl, hs⟩
  | some command => exact perform_agrees h hs hlast hlast' command

theorem handle_agrees (h : services.Agree R₀ R services') (hs : Alike s s') (question : String) :
    Agree R₀ (s.handle services question) (s'.handle services' question) AlikeTurns R := by
  rw [handle, handle, ← hs.messages]
  apply (h.classify s.transcript.messages question).bind
  intro answer answer' hanswers
  cases hanswers with
  | error failure =>
    apply (record_agrees h hs unclassified unclassified .user question).bind
    rintro p p' ⟨hs, _⟩
    exact .pure ⟨rfl, hs⟩
  | @ok intent intent' hchoice =>
    apply (record_agrees h hs intent intent' .user question).bind
    rintro ⟨_, s₁⟩ ⟨_, s₁'⟩ ⟨hs₁, _⟩
    -- the same way is taken, and from there on nothing looks at the two numbers
    dsimp only
    rw [← hchoice.asksForCommand]
    split
    · exact askForCommand_agrees h hs₁ intent intent' s.transcript.messages question
    · exact showCalendar_agrees h hs₁ intent intent'

/-- **Two sessions that are alike answer alike**, and stay so. -/
theorem send_agrees (h : services.Agree R₀ R services') (hs : Alike s s') (question : String) :
    Agree R₀ (s.send services question) (s'.send services' question) AlikeTurns R := by
  apply (handle_agrees h hs question).bind
  rintro ⟨answer, s₁⟩ ⟨_, s₁'⟩ ⟨rfl, hs⟩
  exact .pure ⟨rfl, hs⟩

end Session

end

/-! ### Stages -/

/-- Two scripts that differ at most in the reply to the question for the intent, and not in
    the choice that it is taken for. -/
inductive AlikeScripts : List (Except Failure String) → List (Except Failure String) → Prop where
  | same (replies : List (Except Failure String)) : AlikeScripts replies replies
  | asked {ask ask' : String} (replies : List (Except Failure String)) :
      SameChoice (interpretReply ask) (interpretReply ask') →
      AlikeScripts (.ok ask :: replies) (.ok ask' :: replies)

namespace Stage

def nextReply (replies : List (Except Failure String)) : Except Failure String :=
  replies.head?.getD (.error scriptOver)

theorem complete_apply (instructions : String) (history : List ChatMessage) (user : String)
    (stage : Stage) :
    complete instructions history user stage =
      (nextReply stage.replies, { stage with
        calls := stage.calls ++ [⟨instructions, history, user⟩]
        replies := stage.replies.tail }) := by
  obtain ⟨memory, stamps, today, replies, calls⟩ := stage
  cases replies <;> rfl

theorem nextReply_of_alikeScripts {replies replies' : List (Except Failure String)}
    (h : AlikeScripts replies replies') :
    AlikeResults (fun ask ask' => SameChoice (interpretReply ask) (interpretReply ask'))
      (nextReply replies) (nextReply replies') ∧ replies.tail = replies'.tail := by
  cases h with
  | same =>
    refine ⟨?_, rfl⟩
    cases nextReply replies with
    | error failure => exact .error failure
    | ok ask => exact .ok Iff.rfl
  | asked rest hchoice => exact ⟨.ok hchoice, rfl⟩

/-- Two stages with the same calendar, the same day and the same calls so far, and with
    related scripts.  Their stamps are their own. -/
structure Alike (A : List (Except Failure String) → List (Except Failure String) → Prop)
    (stage stage' : Stage) : Prop where
  memory : stage.memory = stage'.memory
  today : stage.today = stage'.today
  calls : stage.calls = stage'.calls
  replies : A stage.replies stage'.replies

theorem onMemory_agrees {α : Type} (act : StateM MemoryCalendar α) :
    Agree (Alike Eq) (onMemory act) (onMemory act) Eq (Alike Eq) := by
  intro stage stage' h
  change (act stage.memory).1 = (act stage'.memory).1 ∧ _
  refine ⟨by rw [h.memory], ?_, h.today, h.calls, h.replies⟩
  change (act stage.memory).2 = (act stage'.memory).2
  rw [h.memory]

theorem services_agree :
    services.Agree (Alike AlikeScripts) (Alike Eq) services where
  intent history question := by
    intro stage stage' h
    obtain ⟨hanswers, hrest⟩ := nextReply_of_alikeScripts h.replies
    simp only [services, model, complete_apply]
    exact ⟨hanswers, h.memory, h.today, congrArg (· ++ [_]) h.calls, hrest⟩
  command history question := by
    intro stage stage' h
    simp only [services, model, complete_apply]
    exact ⟨congrArg nextReply h.replies, h.memory, h.today, congrArg (· ++ [_]) h.calls,
      congrArg List.tail h.replies⟩
  calendar :=
    ⟨onMemory_agrees _, fun _ => onMemory_agrees _, fun _ _ => onMemory_agrees _,
      fun _ => onMemory_agrees _⟩
  today _ _ h := ⟨h.today, h⟩
  stamp _ _ h := ⟨trivial, h.memory, h.today, h.calls, h.replies⟩

end Stage

/-! ### Runs -/

namespace Scene

/-- What is there to be seen, without the numbers of intents and without the ids and times
    of a transcript. -/
structure View where
  memory : MemoryCalendar
  today : Date
  calls : List ModelCall
  messages : List ChatMessage
  lastListing : Listing
  executed : List String

def view (σ : Scene) : View :=
  ⟨σ.stage.memory, σ.stage.today, σ.stage.calls, σ.session.transcript.messages,
    σ.session.lastListing, σ.session.executed⟩

inductive Move where
  | say (question : String) (replies : List (Except Failure String))
  | clear
  /-- Others use the calendar, or switch it. -/
  | operate (op : MemoryCalendar.Operation)
  | dawn (today : Date)

def move (σ : Scene) : Move → Option (Except Failure String) × Scene
  | .say question replies => (some (σ.send question replies).1, (σ.send question replies).2)
  | .clear => (none, σ.next .clear)
  | .operate op => (none, σ.next (.interfere (σ.stage.memory.perform op).2))
  | .dawn today => (none, σ.next (.dawn today))

/-- Every answer, and what is there to be seen after each move. -/
def trace (σ : Scene) : List Move → List (Option (Except Failure String) × View)
  | [] => []
  | mv :: mvs => ((σ.move mv).1, (σ.move mv).2.view) :: (σ.move mv).2.trace mvs

/-- The same moves, but for what the model says about the intent. -/
inductive Move.Alike : Move → Move → Prop where
  | say {replies replies' : List (Except Failure String)} (question : String) :
      AlikeScripts replies replies' → Alike (.say question replies) (.say question replies')
  | clear : Alike .clear .clear
  | operate (op : MemoryCalendar.Operation) : Alike (.operate op) (.operate op)
  | dawn (today : Date) : Alike (.dawn today) (.dawn today)

variable {σ σ' : Scene} {mv mv' : Move}

theorem view_eq_iff : σ.view = σ'.view ↔
    σ.stage.memory = σ'.stage.memory ∧ σ.stage.today = σ'.stage.today ∧
      σ.stage.calls = σ'.stage.calls ∧ Session.Alike σ.session σ'.session := by
  rw [view, view, View.mk.injEq]
  constructor
  · rintro ⟨hmemory, htoday, hcalls, hmessages, hlisting, hexecuted⟩
    exact ⟨hmemory, htoday, hcalls, hmessages, hlisting, hexecuted⟩
  · rintro ⟨hmemory, htoday, hcalls, hmessages, hlisting, hexecuted⟩
    exact ⟨hmemory, htoday, hcalls, hmessages, hlisting, hexecuted⟩

theorem send_alike (h : σ.view = σ'.view) {replies replies' : List (Except Failure String)}
    (hscripts : AlikeScripts replies replies') (question : String) :
    (σ.send question replies).1 = (σ'.send question replies').1 ∧
      (σ.send question replies).2.view = (σ'.send question replies').2.view := by
  obtain ⟨hmemory, htoday, hcalls, hsession⟩ := view_eq_iff.mp h
  obtain ⟨⟨hanswer, hafter⟩, hstage⟩ :=
    Session.send_agrees Stage.services_agree hsession question { σ.stage with replies }
      { σ'.stage with replies := replies' } ⟨hmemory, htoday, hcalls, hscripts⟩
  exact ⟨hanswer, view_eq_iff.mpr ⟨hstage.memory, hstage.today, hstage.calls, hafter⟩⟩

theorem move_alike (h : σ.view = σ'.view) (hmoves : mv.Alike mv') :
    (σ.move mv).1 = (σ'.move mv').1 ∧ (σ.move mv).2.view = (σ'.move mv').2.view := by
  obtain ⟨hmemory, htoday, hcalls, hsession⟩ := view_eq_iff.mp h
  cases hmoves with
  | say question hscripts =>
    obtain ⟨hanswer, hview⟩ := send_alike h hscripts question
    exact ⟨congrArg some hanswer, hview⟩
  | clear => exact ⟨rfl, view_eq_iff.mpr ⟨hmemory, htoday, hcalls, rfl, rfl, rfl⟩⟩
  | operate op =>
    refine ⟨rfl, view_eq_iff.mpr ⟨?_, htoday, hcalls, hsession⟩⟩
    exact congrArg (fun m : MemoryCalendar => (m.perform op).2) hmemory
  | dawn today => exact ⟨rfl, view_eq_iff.mpr ⟨hmemory, rfl, hcalls, hsession⟩⟩

/-- **What the model says about the intent matters only in whether the calendar is to be
    shown.**  Two runs from scenes that look the same, with the same questions, replies
    to commands, days and operations of others, give the same answers and look the same
    after every move, if in every turn both models choose to show the calendar or
    neither does. -/
theorem trace_eq_of_alike (h : σ.view = σ'.view) {mvs mvs' : List Move}
    (hmoves : List.Forall₂ Move.Alike mvs mvs') : σ.trace mvs = σ'.trace mvs' := by
  induction hmoves generalizing σ σ' with
  | nil => rfl
  | cons hmove _ ih =>
    obtain ⟨hanswer, hview⟩ := move_alike h hmove
    rw [trace, trace, hanswer, hview, ih hview]

/-- A removal, taken for a removal and for nothing known.  Only the numbers differ. -/
theorem trace_eq_of_alike_misread :
    let σ : Scene := ⟨.empty, .onNewYear [⟨"a", "Lunch", "", ""⟩, ⟨"b", "Tea", "", ""⟩] []⟩
    let cancel (ask : String) : Move :=
      .say "Cancel the tea" [.ok ask, .ok "remove_outlook_schedule('No.1')"]
    let rest : List Move := [.operate (.delete "a"), .say "What is left?" [.ok "4"]]
    σ.trace (cancel "3" :: rest) = σ.trace (cancel "Remove it!" :: rest) ∧
      (σ.move (cancel "3")).2.session.transcript.entries.map Entry.intent = [3, 3] ∧
      (σ.move (cancel "Remove it!")).2.session.transcript.entries.map Entry.intent = [5, 5] := by
  intro σ cancel rest
  have hchoice : SameChoice (interpretReply "3") (interpretReply "Remove it!") :=
    iff_of_false (by decide +kernel) (by decide +kernel)
  have hcancel : (cancel "3").Alike (cancel "Remove it!") := .say _ (.asked _ hchoice)
  have hrest : List.Forall₂ Move.Alike rest rest :=
    .cons (.operate _) (.cons (.say _ (.same _)) .nil)
  exact ⟨trace_eq_of_alike rfl (.cons hcancel hrest), by decide +kernel, by decide +kernel⟩

end Scene

end Datebook
