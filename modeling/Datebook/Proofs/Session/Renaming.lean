/-
  Datebook/Proofs/Session/Renaming.lean
  =====================================
  **The model is shown an event's id in one place only: in the text of a command
  that was carried out.**

  Two runs are compared that differ in nothing but the ids of events, which a
  `Renaming` carries from one to the other.  The model is to refer to events by their
  ordinals, so a reply is `Spared` if its command refers to nothing that is an id in
  either run.  With such replies the calendars stay renamings of each other, and the
  model is given the same in every call, message by message, except where the text of
  a command stands that was carried out: there each run has its own id.
-/
import Datebook.Proofs.Calendar.Renaming
import Datebook.Proofs.Session.Likeness

namespace Datebook

namespace Renaming

variable (ρ : Renaming)

/-- The same message, or the texts of the same command. -/
inductive MessageAlike : ChatMessage → ChatMessage → Prop where
  | same (message : ChatMessage) : MessageAlike message message
  | command {c c' : Command} : ρ.CommandAlike c c' →
      MessageAlike ⟨.assistant, c.render⟩ ⟨.assistant, c'.render⟩

structure CallAlike (call call' : ModelCall) : Prop where
  instructions : call.instructions = call'.instructions
  history : List.Forall₂ ρ.MessageAlike call.history call'.history
  user : call.user = call'.user

def Renamed (m m' : MemoryCalendar) : Prop := m' = ρ.calendar m ∧ ρ.Covers m

variable {ρ}

/-! ### Calls of the calendar -/

/-- Both calls succeed, or both fail. -/
def Together {α β : Type} (x : Except Failure α) (y : Except Failure β) : Prop := x.isOk = y.isOk

theorem list_agrees :
    Agree ρ.Renamed MemoryCalendar.list MemoryCalendar.list (AlikeResults ρ.ListingAlike)
      ρ.Renamed := by
  rintro m _ ⟨rfl, hm⟩
  obtain ⟨⟨events, available⟩, ids⟩ := m
  cases available with
  | false => exact ⟨.error _, rfl, hm⟩
  | true => exact ⟨.ok ⟨listing_event events, id_mem_of_mem_listing hm.events⟩, rfl, hm⟩

theorem add_agrees (d : EventDetails) :
    Agree ρ.Renamed (MemoryCalendar.add d) (MemoryCalendar.add d) Together ρ.Renamed := by
  rintro m _ ⟨rfl, hm⟩
  have halike := add_alike hm.events (hm.supply m.ids.used) d
  simp only [MemoryCalendar.add, Supply.take, calendar]
  generalize m.store.add (m.ids.item m.ids.used) d = x at halike ⊢
  generalize (ρ.store m.store).add (ρ.newId (m.ids.item m.ids.used)) d = y at halike ⊢
  cases halike with
  | ok hevents => exact ⟨rfl, rfl, hevents, hm.supply⟩
  | error fault fault' => exact ⟨rfl, rfl, hm⟩

theorem change_agrees {act act' : Store → Except CalendarFault Store}
    (h : ∀ s, (∀ e ∈ s.events, e.id ∈ ρ.ids) → ρ.StoresAlike (act s) (act' (ρ.store s))) :
    Agree ρ.Renamed (MemoryCalendar.change act) (MemoryCalendar.change act') Together
      ρ.Renamed := by
  rintro m _ ⟨rfl, hm⟩
  have halike := h m.store hm.events
  simp only [MemoryCalendar.change, calendar]
  generalize act m.store = x at halike ⊢
  generalize act' (ρ.store m.store) = y at halike ⊢
  cases halike with
  | ok hevents => exact ⟨rfl, rfl, hevents, hm.supply⟩
  | error fault fault' => exact ⟨rfl, rfl, hm⟩

/-! ### Stages -/

variable (ρ)

/-- No command in the reply refers to a text that is an id. -/
def Spared (reply : Except Failure String) : Prop :=
  ∀ text c reference, reply = .ok text → Session.commandOf? text = some c →
    c.scheduleId? = some reference → ρ.Foreign reference

/-- Two stages with the same day and the same replies to come.  The calendar of the second
    is that of the first, renamed. -/
structure StageAlike (stage stage' : Stage) : Prop where
  memory : ρ.Renamed stage.memory stage'.memory
  today : stage.today = stage'.today
  replies : stage.replies = stage'.replies
  spared : ∀ reply ∈ stage.replies, ρ.Spared reply
  calls : List.Forall₂ ρ.CallAlike stage.calls stage'.calls

variable {ρ}

theorem onMemory_agrees {α β : Type} {x : StateM MemoryCalendar α} {y : StateM MemoryCalendar β}
    {A : α → β → Prop} (h : Agree ρ.Renamed x y A ρ.Renamed) :
    Agree ρ.StageAlike (Stage.onMemory x) (Stage.onMemory y) A ρ.StageAlike := by
  intro stage stage' hstage
  obtain ⟨hresults, hmemory⟩ := h _ _ hstage.memory
  exact ⟨hresults, hmemory, hstage.today, hstage.replies, hstage.spared, hstage.calls⟩

theorem StageAlike.spared_nextReply {stage stage' : Stage} (h : ρ.StageAlike stage stage') :
    ρ.Spared (Stage.nextReply stage.replies) := by
  rw [Stage.nextReply]
  cases hreplies : stage.replies with
  | nil =>
    intro text c reference htext
    cases htext
  | cons reply replies => exact h.spared reply (by simp [hreplies])

theorem complete_agrees (instructions user : String) {history history' : List ChatMessage}
    (h : List.Forall₂ ρ.MessageAlike history history') :
    Agree ρ.StageAlike (Stage.complete instructions history user)
      (Stage.complete instructions history' user)
      (fun reply reply' => reply = reply' ∧ ρ.Spared reply) ρ.StageAlike := by
  intro stage stage' hstage
  rw [Stage.complete_apply, Stage.complete_apply, ← hstage.replies]
  refine ⟨⟨rfl, ?_⟩, hstage.memory, hstage.today, rfl, ?_, ?_⟩
  · exact hstage.spared_nextReply
  · exact fun reply hreply => hstage.spared reply (List.mem_of_mem_tail hreply)
  · exact List.rel_append hstage.calls (.cons ⟨rfl, h, rfl⟩ .nil)

theorem today_agrees :
    Agree ρ.StageAlike Stage.services.today Stage.services.today Eq ρ.StageAlike :=
  fun _ _ h => ⟨h.today, h⟩

theorem ofCommand_agrees {c : Command} (h : ρ.CommandAlike c c) :
    Agree ρ.StageAlike (Resolution.ofCommand Stage.calendar c)
      (Resolution.ofCommand Stage.calendar c)
      (AlikeResults fun r r' => ρ.CommandAlike r.command r'.command) ρ.StageAlike := by
  rw [Resolution.ofCommand_eq]
  cases c.scheduleId?.bind targetOrdinal? with
  | none => exact .pure (.ok h)
  | some no =>
    apply (onMemory_agrees list_agrees).bind
    intro answer answer' hanswers
    cases hanswers with
    | error failure => exact .pure (.error failure)
    | ok hl => exact .pure (.ok (against_alike h hl no))

theorem isOk_map {α β : Type} (x : Except Failure α) (f : α → β) : (x.map f).isOk = x.isOk := by
  cases x <;> rfl

theorem Together.map {α β α' β' : Type} {x : Except Failure α} {y : Except Failure β}
    (h : Together x y) (f : α → α') (g : β → β') : Together (x.map f) (y.map g) := by
  rw [Together, isOk_map, isOk_map]
  exact h

section

variable {reference reference' : String} (h : ρ.Counterpart reference reference')

include h

theorem update_agrees (d : EventDetails) :
    Agree ρ.StageAlike (Stage.calendar.update reference d) (Stage.calendar.update reference' d)
      Together ρ.StageAlike :=
  onMemory_agrees (change_agrees fun _ hs => update_alike hs h d)

theorem delete_agrees :
    Agree ρ.StageAlike (Stage.calendar.delete reference) (Stage.calendar.delete reference')
      Together ρ.StageAlike :=
  onMemory_agrees (change_agrees fun _ hs => delete_alike hs h)

end

theorem run_agrees (today : Date) {c c' : Command} (h : ρ.CommandAlike c c') :
    Agree ρ.StageAlike (Execution.run Stage.calendar today c)
      (Execution.run Stage.calendar today c') Together ρ.StageAlike := by
  delta Execution.run
  cases h with
  | add description startTime endTime =>
    dsimp only
    cases Execution.details description startTime endTime today with
    | error failure => exact .pure rfl
    | ok d => exact (onMemory_agrees (add_agrees d)).bind fun _ _ h => .pure (h.map _ _)
  | modify description startTime endTime hid =>
    dsimp only
    cases Execution.details description startTime endTime today with
    | error failure => exact .pure rfl
    | ok d => exact (update_agrees hid d).bind fun _ _ h => .pure (h.map _ _)
  | remove hid => exact (delete_agrees hid).bind fun _ _ h => .pure (h.map _ _)
  | list =>
    apply (onMemory_agrees list_agrees).bind
    intro answer answer' hanswers
    cases hanswers <;> exact .pure rfl

/-! ### Turns -/

variable (ρ)

/-- Two sessions whose messages are the same up to the texts of commands. -/
def SessionAlike (s s' : Session) : Prop :=
  List.Forall₂ ρ.MessageAlike s.transcript.messages s'.transcript.messages

/-- What is answered may differ: a fault of the calendar names the id that it knows. -/
def TurnAlike (turn turn' : Session.Turn) : Prop := ρ.SessionAlike turn.2 turn'.2

variable {ρ} {s s' : Session}

theorem SessionAlike.said (h : ρ.SessionAlike s s') (stamp stamp' : Stamp) (intent : IntentCode)
    (speaker : Speaker) (message : String) :
    ρ.SessionAlike (s.said stamp intent speaker message)
      (s'.said stamp' intent speaker message) := by
  rw [SessionAlike, Session.messages_said, Session.messages_said]
  exact List.rel_append h (.cons (.same _) .nil)

theorem messages_noteExecuted (s : Session) (stamp : Stamp) (intent : IntentCode) (reply : String)
    (command : Command) (outcome : Outcome) :
    ((s.said stamp intent .assistant reply).noteExecuted stamp.id reply command
        outcome).transcript.messages =
      s.transcript.messages ++ [⟨.assistant, command.render⟩] := by
  obtain ⟨e, hentries, hid, hcontent⟩ := Session.entries_said s stamp intent .assistant reply
  have hspeaker : e.speaker = .assistant := congrArg (fun c => c.2.role) hcontent
  have hreply : e.message = reply := congrArg (fun c => c.2.content) hcontent
  rw [Transcript.messages, ← hid, Session.entries_noteExecuted hentries hreply, List.map_append,
    ← Transcript.messages]
  simp [hspeaker]

theorem record_agrees (s s' : Session) (intent : IntentCode) (speaker : Speaker)
    (message : String) :
    Agree ρ.StageAlike (s.record Stage.services intent speaker message)
      (s'.record Stage.services intent speaker message)
      (fun p p' => ∃ stamp stamp', p = (stamp.id, s.said stamp intent speaker message) ∧
        p' = (stamp'.id, s'.said stamp' intent speaker message)) ρ.StageAlike := by
  intro stage stage' h
  exact ⟨⟨_, _, rfl, rfl⟩, h.memory, h.today, h.replies, h.spared, h.calls⟩

theorem perform_agrees (hs : ρ.SessionAlike s s') (stamp stamp' : Stamp) (intent : IntentCode)
    (reply : String) {command : Command} (hc : ρ.CommandAlike command command) :
    Agree ρ.StageAlike
      ((s.said stamp intent .assistant reply).perform Stage.services stamp.id reply command)
      ((s'.said stamp' intent .assistant reply).perform Stage.services stamp'.id reply command)
      ρ.TurnAlike ρ.StageAlike := by
  have hsaid := hs.said stamp stamp' intent .assistant reply
  apply (ofCommand_agrees hc).bind
  intro answer answer' hanswers
  cases hanswers with
  | error failure => exact .pure hsaid
  | @ok r r' hcommands =>
    apply today_agrees.bind_eq
    intro today
    apply (run_agrees today hcommands).bind
    rintro (failure | outcome) (failure' | outcome') htogether
    · exact .pure hsaid
    · cases htogether
    · cases htogether
    · -- the one place where the two runs are told different things
      apply Agree.pure
      rw [TurnAlike, SessionAlike, messages_noteExecuted, messages_noteExecuted]
      exact List.rel_append hs (.cons (.command hcommands) .nil)

theorem askForCommand_agrees (hs : ρ.SessionAlike s s') (intent : IntentCode)
    {prior prior' : List ChatMessage} (hprior : List.Forall₂ ρ.MessageAlike prior prior')
    (question : String) :
    Agree ρ.StageAlike (s.askForCommand Stage.services intent prior question)
      (s'.askForCommand Stage.services intent prior' question)
      ρ.TurnAlike ρ.StageAlike := by
  apply (complete_agrees Purpose.command.instructions question hprior).bind
  rintro (failure | reply) _ ⟨rfl, hspared⟩
  · exact .pure hs
  · apply (record_agrees s s' intent .assistant reply).bind
    rintro _ _ ⟨stamp, stamp', rfl, rfl⟩
    dsimp only
    cases hcommand : Session.commandOf? reply with
    | none => exact .pure (hs.said stamp stamp' intent .assistant reply)
    | some command =>
      have hc : ρ.CommandAlike command command :=
        .of_foreign fun reference href => hspared reply command reference rfl hcommand href
      exact perform_agrees hs stamp stamp' intent reply hc

theorem showCalendar_agrees (hs : ρ.SessionAlike s s') (intent : IntentCode) :
    Agree ρ.StageAlike (s.showCalendar Stage.services intent)
      (s'.showCalendar Stage.services intent)
      ρ.TurnAlike ρ.StageAlike := by
  apply (onMemory_agrees list_agrees).bind
  intro answer answer' hanswers
  cases hanswers with
  | error failure => exact .pure hs
  | @ok l l' hl =>
    obtain ⟨rfl, _⟩ := hl
    dsimp only
    rw [showListing_entry]
    apply (record_agrees { s with lastListing := l } { s' with lastListing := l.map ρ.entry }
      intent .assistant (showListing l)).bind
    rintro _ _ ⟨stamp, stamp', rfl, rfl⟩
    have hshown : ρ.SessionAlike { s with lastListing := l }
        { s' with lastListing := l.map ρ.entry } := hs
    exact .pure (hshown.said stamp stamp' intent .assistant (showListing l))

theorem classify_agrees (hs : ρ.SessionAlike s s') (question : String) :
    Agree ρ.StageAlike (classify Stage.model s.transcript.messages question)
      (classify Stage.model s'.transcript.messages question) Eq ρ.StageAlike := by
  apply (complete_agrees Purpose.intent.instructions question hs).bind
  rintro reply _ ⟨rfl, _⟩
  cases reply <;> exact .pure rfl

theorem handle_agrees (hs : ρ.SessionAlike s s') (question : String) :
    Agree ρ.StageAlike (s.handle Stage.services question) (s'.handle Stage.services question)
      ρ.TurnAlike ρ.StageAlike := by
  apply (classify_agrees hs question).bind_eq
  rintro (failure | intent)
  · apply (record_agrees s s' unclassified .user question).bind
    rintro _ _ ⟨stamp, stamp', rfl, rfl⟩
    exact .pure (hs.said stamp stamp' unclassified .user question)
  · apply (record_agrees s s' intent .user question).bind
    rintro _ _ ⟨stamp, stamp', rfl, rfl⟩
    have hsaid := hs.said stamp stamp' intent .user question
    dsimp only
    split
    -- the question is in the transcript by now, but the model is given what was before it
    · exact askForCommand_agrees hsaid intent hs question
    · exact showCalendar_agrees hsaid intent

theorem send_agrees (hs : ρ.SessionAlike s s') (question : String) :
    Agree ρ.StageAlike (s.send Stage.services question) (s'.send Stage.services question)
      ρ.TurnAlike ρ.StageAlike := by
  apply (handle_agrees hs question).bind
  rintro ⟨_, s₁⟩ ⟨_, s₁'⟩ hs₁
  exact .pure hs₁

/-! ### Runs -/

variable (ρ)

/-- Two scenes that differ in the ids of events, and in the texts of commands that were
    carried out. -/
structure SceneAlike (σ σ' : Scene) : Prop where
  session : ρ.SessionAlike σ.session σ'.session
  memory : ρ.Renamed σ.stage.memory σ'.stage.memory
  today : σ.stage.today = σ'.stage.today
  calls : List.Forall₂ ρ.CallAlike σ.stage.calls σ'.stage.calls

/-- Steps of the user's and the calendar's own, with replies that name no id. -/
def SparedStep : Scene.Step → Prop
  | .say _ replies => ∀ reply ∈ replies, ρ.Spared reply
  | .interfere _ => False
  | .clear | .setAvailable _ | .dawn _ => True

variable {ρ}

theorem SceneAlike.next {σ σ' : Scene} (h : ρ.SceneAlike σ σ') {step : Scene.Step}
    (hstep : ρ.SparedStep step) : ρ.SceneAlike (σ.next step) (σ'.next step) := by
  cases step with
  | say question replies =>
    obtain ⟨hsession, hstage⟩ := send_agrees h.session question { σ.stage with replies }
      { σ'.stage with replies } ⟨h.memory, h.today, rfl, hstep, h.calls⟩
    exact ⟨hsession, hstage.memory, hstage.today, hstage.calls⟩
  | clear => exact ⟨.nil, h.memory, h.today, h.calls⟩
  | setAvailable available =>
    obtain ⟨hrenamed, hcovers⟩ := h.memory
    refine ⟨h.session, ⟨?_, hcovers.events, hcovers.supply⟩, h.today, h.calls⟩
    exact congrArg (fun m : MemoryCalendar => m.setAvailable available) hrenamed
  | interfere memory => cases hstep
  | dawn today => exact ⟨h.session, h.memory, rfl, h.calls⟩

theorem SceneAlike.run {σ σ' : Scene} (h : ρ.SceneAlike σ σ') {steps : List Scene.Step}
    (hsteps : ∀ step ∈ steps, ρ.SparedStep step) : ρ.SceneAlike (σ.run steps) (σ'.run steps) := by
  induction steps generalizing σ σ' with
  | nil => exact h
  | cons step steps ih =>
    have hnext := h.next (hsteps step (by simp))
    exact ih hnext fun later hlater => hsteps later (by simp [hlater])

/-! ### What the model is given -/

variable (ρ)

/-- The text of a command that refers to an event by its id. -/
def NamesId (message : ChatMessage) : Prop :=
  ∃ (c : Command) (id : String), id ∈ ρ.ids ∧ c.scheduleId? = some id ∧
    message = ⟨.assistant, c.render⟩

variable {ρ}

theorem MessageAlike.eq_of_not_namesId {message message' : ChatMessage}
    (h : ρ.MessageAlike message message') (hnone : ¬ ρ.NamesId message) : message = message' := by
  cases h with
  | same => rfl
  | command hc =>
    cases hc with
    | add | list => rfl
    | modify _ _ _ hid =>
      cases hid with
      | id hid => exact absurd ⟨_, _, hid, rfl, rfl⟩ hnone
      | foreign => rfl
    | remove hid =>
      cases hid with
      | id hid => exact absurd ⟨_, _, hid, rfl, rfl⟩ hnone
      | foreign => rfl

theorem eq_of_forall₂ {α : Type} {R : α → α → Prop} {as bs : List α} (h : List.Forall₂ R as bs)
    (heq : ∀ a ∈ as, ∀ b, R a b → a = b) : as = bs := by
  induction h with
  | nil => rfl
  | cons hab _ ih =>
    rw [heq _ (by simp) _ hab, ih fun a ha => heq a (by simp [ha])]

theorem CallAlike.eq_of_not_namesId {call call' : ModelCall} (h : ρ.CallAlike call call')
    (hnone : ∀ message ∈ call.history, ¬ ρ.NamesId message) : call = call' := by
  obtain ⟨instructions, history, user⟩ := call
  obtain ⟨instructions', history', user'⟩ := call'
  obtain ⟨rfl, hhistory, rfl⟩ := h
  have hequal : history = history' :=
    eq_of_forall₂ hhistory fun message hmessage _ h => h.eq_of_not_namesId (hnone message hmessage)
  rw [hequal]

/-- **Ids reach the model as the references of commands that were carried out, and in no
    other way.**  Where the second run has the ids of events renamed, and no reply of the
    model names an id, the calls of the model are the same but for the texts of such
    commands; where none of these stands in what the model is given, they are equal. -/
theorem calls_alike_of_renamed (s : Session) {stage : Stage} (hids : ρ.Covers stage.memory)
    (stamps : Supply Stamp) {steps : List Scene.Step}
    (hsteps : ∀ step ∈ steps, ρ.SparedStep step) :
    let calls := (Scene.run ⟨s, stage⟩ steps).stage.calls
    let calls' := (Scene.run ⟨s, { stage with
      memory := ρ.calendar stage.memory, stamps }⟩ steps).stage.calls
    List.Forall₂ ρ.CallAlike calls calls' ∧
      ((∀ call ∈ calls, ∀ message ∈ call.history, ¬ ρ.NamesId message) → calls = calls') := by
  intro calls calls'
  have hstart : ρ.SceneAlike ⟨s, stage⟩
      ⟨s, { stage with memory := ρ.calendar stage.memory, stamps }⟩ := by
    refine ⟨?_, ⟨rfl, hids⟩, rfl, ?_⟩
    · exact List.forall₂_same.mpr fun message _ => .same message
    · apply List.forall₂_same.mpr
      intro call _
      exact ⟨rfl, List.forall₂_same.mpr fun message _ => .same message, rfl⟩
  have hcalls : List.Forall₂ ρ.CallAlike calls calls' := (hstart.run hsteps).calls
  refine ⟨hcalls, fun hnone => ?_⟩
  exact eq_of_forall₂ hcalls fun call hcall _ h => h.eq_of_not_namesId (hnone call hcall)

/-! ### A removal, and what the model is given after it -/

/-- Another id for one event; the events to come have the same id in either run. -/
def anotherId : Renaming where
  ids := {"abc-123", "new"}
  newId id := if id = "abc-123" then "xyz-789" else id
  injOn := by
    rintro id (rfl | rfl) id' (rfl | rfl) heq
    · rfl
    · exact absurd heq (by decide)
    · exact absurd heq (by decide)
    · rfl

def lunchStage : Stage := .onNewYear [⟨"abc-123", "Lunch", "", ""⟩] []

def cancelLunch : List Scene.Step :=
  [ .say "Cancel lunch" [.ok "3", .ok "remove_outlook_schedule(\"No.0\")"],
    .say "Thank you" [.ok "5", .ok "You are welcome."] ]

theorem covers_lunchStage : anotherId.Covers lunchStage.memory where
  events := by
    intro e he
    cases List.mem_singleton.mp he
    exact .inl rfl
  supply _ := .inr rfl

theorem spared_of_no_command {text : String} (h : Session.commandOf? text = none) :
    ρ.Spared (.ok text) := by
  intro text c reference htext hcommand
  cases htext
  rw [h] at hcommand
  cases hcommand

theorem spared_of_foreign {text : String} {c : Command} (h : Session.commandOf? text = some c)
    (hforeign : ∀ reference, c.scheduleId? = some reference → ρ.Foreign reference) :
    ρ.Spared (.ok text) := by
  intro text c reference htext hcommand hreference
  cases htext
  rw [h] at hcommand
  cases hcommand
  exact hforeign reference hreference

theorem sparedStep_cancelLunch : ∀ step ∈ cancelLunch, anotherId.SparedStep step := by
  have hforeign : anotherId.Foreign "No.0" := by
    constructor
    · rintro (h | h) <;> exact absurd h (by decide)
    · rintro ⟨id, rfl | rfl, h⟩ <;> exact absurd h (by decide)
  have hremoval : anotherId.Spared (.ok "remove_outlook_schedule(\"No.0\")") := by
    apply spared_of_foreign (c := .remove "No.0") (by decide +kernel)
    rintro _ ⟨⟩
    exact hforeign
  intro step hstep
  simp only [cancelLunch, List.mem_cons, List.not_mem_nil, or_false] at hstep
  rcases hstep with rfl | rfl
  · intro reply hreply
    rcases List.mem_pair.mp hreply with rfl | rfl
    · exact spared_of_no_command (by decide +kernel)
    · exact hremoval
  · intro reply hreply
    rcases List.mem_pair.mp hreply with rfl | rfl
    · exact spared_of_no_command (by decide +kernel)
    · exact spared_of_no_command (by decide +kernel)

theorem lastHistory_cancelLunch :
    (Scene.run ⟨.empty, lunchStage⟩ cancelLunch).stage.calls.getLast?.map ModelCall.history =
      some [⟨.user, "Cancel lunch"⟩, ⟨.assistant, "remove_outlook_schedule(\"abc-123\")"⟩] := by
  decide +kernel

theorem lastHistory_cancelLunch_renamed :
    (Scene.run ⟨.empty, { lunchStage with memory := anotherId.calendar lunchStage.memory }⟩
        cancelLunch).stage.calls.getLast?.map ModelCall.history =
      some [⟨.user, "Cancel lunch"⟩, ⟨.assistant, "remove_outlook_schedule(\"xyz-789\")"⟩] := by
  decide +kernel

theorem calls_alike_of_renamed_lunch :
    let calls := (Scene.run ⟨.empty, lunchStage⟩ cancelLunch).stage.calls
    let calls' := (Scene.run ⟨.empty, { lunchStage with
      memory := anotherId.calendar lunchStage.memory }⟩ cancelLunch).stage.calls
    List.Forall₂ anotherId.CallAlike calls calls' ∧
      calls.getLast?.map ModelCall.history = some
        [⟨.user, "Cancel lunch"⟩, ⟨.assistant, "remove_outlook_schedule(\"abc-123\")"⟩] ∧
      calls'.getLast?.map ModelCall.history = some
        [⟨.user, "Cancel lunch"⟩, ⟨.assistant, "remove_outlook_schedule(\"xyz-789\")"⟩] := by
  intro calls calls'
  obtain ⟨halike, _⟩ := calls_alike_of_renamed .empty covers_lunchStage lunchStage.stamps
    sparedStep_cancelLunch
  exact ⟨halike, lastHistory_cancelLunch, lastHistory_cancelLunch_renamed⟩

/-- What is said in a step. -/
def texts : Scene.Step → List String
  | .say question replies => question :: replies.filterMap Except.toOption
  | _ => []

/-- What is written of an event besides its id. -/
def eventTexts (e : Event) : List String := [e.subject, e.start, e.finish]

theorem calls_differ_after_removal :
    anotherId.Covers lunchStage.memory ∧
      (∀ text ∈ lunchStage.memory.events.flatMap eventTexts ++ cancelLunch.flatMap texts,
        ∀ id ∈ ["abc-123", "xyz-789", "new"], Text.contains id.toList text.toList = false) ∧
      (Scene.run ⟨.empty, lunchStage⟩ cancelLunch).stage.calls ≠
        (Scene.run ⟨.empty, { lunchStage with memory := anotherId.calendar lunchStage.memory }⟩
          cancelLunch).stage.calls := by
  refine ⟨covers_lunchStage, by decide +kernel, fun h => ?_⟩
  have hlast := lastHistory_cancelLunch
  rw [h, lastHistory_cancelLunch_renamed] at hlast
  exact absurd hlast (by decide)

end Renaming

end Datebook
