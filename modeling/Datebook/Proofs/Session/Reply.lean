/-
  Datebook/Proofs/Session/Reply.lean
  ==================================
  **A reply acts if and only if it is one whole command.**

  Between a reply and the calendar stand the search for a verb, the stripping of
  markup and the reader, and a reply that one of them turns away is answered as it
  came.  All of that comes to one question: is the reply, without its markup, read
  as a command?  If it is not, the calendar is not even called, so that the turn
  is the same whatever calendar there is.  If it is, the turn does what resolving
  the command and carrying it out do (`carryOut`).
-/
import Datebook.Proofs.Command.Wrapping
import Datebook.Proofs.Session.Stage

namespace Datebook.Session

/-! ### Resolving and carrying out -/

/-- Resolve a command and carry out what it was resolved to.  Nothing is recorded
    and no text is looked at. -/
def carryOut {m : Type → Type} [Monad m] (services : Services m) (c : Command) :
    m (Except Failure (Command × Outcome)) := do
  match ← Resolution.ofCommand services.calendar c with
  | .error cause => return .error cause
  | .ok resolution =>
    let today ← services.today
    return (← Execution.run services.calendar today resolution.command).map
      fun outcome => (resolution.command, outcome)

/-- Acting on a reply is carrying its command out and taking note of it. -/
theorem perform_eq {m : Type → Type} [Monad m] [LawfulMonad m] (services : Services m)
    (s : Session) (id : Uuid) (reply : String) (c : Command) :
    s.perform services id reply c = do
      match ← carryOut services c with
      | .error cause => return (.error cause, s)
      | .ok (d, outcome) => return (.ok d.render, s.noteExecuted id reply d outcome) := by
  simp only [perform, carryOut, bind_assoc]
  refine bind_congr fun resolved => ?_
  cases resolved with
  | error cause => simp
  | ok resolution =>
    simp only [bind_assoc]
    refine bind_congr fun today => bind_congr fun answer => ?_
    cases answer with
    | error cause => simp [Except.map]
    | ok outcome => simp [Except.map]

/-! ### The turn of a reply -/

variable {W : Type} {services : Services (StateM W)} {s s₂ : Session} {question : String}
  {w w₂ w₃ : W} {intent : IntentCode} {reply : String} {id : Uuid}

theorem bind_apply_congr {α β : Type} {x y : StateM W α} {v v' : W} (h : x v = y v')
    (f : α → StateM W β) : (x >>= f) v = (y >>= f) v' := by
  change (match x v with | (a, v) => f a v) = _
  rw [h]
  rfl

/-- A turn whose reply has come goes on with the reply and nothing else. -/
theorem send_of_replied (h : Replied services s question w intent reply id s₂ w₂) :
    s.send services question w =
      ((match commandOf? reply with
        | none => pure (.ok reply, s₂)
        | some c => s₂.perform services id reply c) >>= fun turn : Turn =>
          (pure (turn.1.mapError Failure.ofTurn, turn.2) : StateM W Turn)) w₂ := by
  obtain ⟨hheard, hask, hreply, hstamp⟩ := h
  obtain @⟨ask, _, _, _, hintent, hstamp'⟩ := hheard
  apply bind_apply_congr
  refine (bind_apply (classify_apply hintent)).trans
    ((bind_apply (record_apply hstamp' _ _ _)).trans ?_)
  dsimp only
  rw [if_pos hask]
  exact (bind_apply hreply).trans (bind_apply (record_apply hstamp _ _ _))

theorem send_of_no_command (h : Replied services s question w intent reply id s₂ w₂)
    (hnone : commandOf? reply = none) : s.send services question w = ((.ok reply, s₂), w₂) := by
  rw [send_of_replied h, hnone]
  rfl

theorem send_of_command {c : Command} {result : Except Failure (Command × Outcome)}
    (h : Replied services s question w intent reply id s₂ w₂)
    (hcommand : commandOf? reply = some c) (hresult : carryOut services c w₂ = (result, w₃)) :
    s.send services question w =
      match result with
      | .error cause => ((.error cause.ofTurn, s₂), w₃)
      | .ok (d, outcome) => ((.ok d.render, s₂.noteExecuted id reply d outcome), w₃) := by
  rw [send_of_replied h, hcommand]
  dsimp only
  rw [perform_eq, bind_assoc]
  refine (bind_apply hresult).trans ?_
  cases result with
  | error cause => rfl
  | ok done => rfl

/-- No call on the calendar is made before the reply has come. -/
theorem Replied.withCalendar (h : Replied services s question w intent reply id s₂ w₂)
    (calendar : CalendarService (StateM W)) :
    Replied { services with calendar } s question w intent reply id s₂ w₂ := by
  -- the four calls that have been made are on the model and the clock
  obtain ⟨⟨hintent, hstamp'⟩, hask, hreply, hstamp⟩ := h
  exact .mk (.mk hintent hstamp') hask hreply hstamp

theorem exists_replied_of_script {stage : Stage} {ask : String}
    {rest : List (Except Failure String)} (hscript : stage.replies = .ok ask :: .ok reply :: rest)
    (hask : interpretReply ask ≠ Intent.listSchedule.code) (s : Session) (question : String) :
    ∃ id s₂ stage₂,
      Replied Stage.services s question stage (interpretReply ask) reply id s₂ stage₂ := by
  have hasks : (Strategy.ofCode (interpretReply ask)).asksForCommand = true := by
    rw [← Bool.not_eq_false, Strategy.asksForCommand_ofCode]
    exact hask
  have hheard : Heard Stage.services s question stage (interpretReply ask) _ _ :=
    .mk (Stage.complete_of_replies hscript _ _ _) rfl
  exact ⟨_, _, _, .mk hheard hasks (Stage.complete_of_replies (by rfl) _ _ _) rfl⟩

theorem carryOut_of_effect {stage : Stage} {c d : Command} {id? : Option String} {o : Outcome}
    {m : MemoryCalendar} (havailable : stage.memory.store.available = true)
    (hresolve : stage.memory.resolve c = .ok ⟨d, id?⟩)
    (heffect : MemoryCalendar.Effect stage.today stage.memory d o m) :
    carryOut Stage.services c stage = (.ok (d, o), { stage with memory := m }) := by
  have hofCommand : Resolution.ofCommand Stage.services.calendar c stage =
      (.ok ⟨d, id?⟩, stage) := by
    rw [Stage.ofCommand_apply, hresolve]
  have hrun : Execution.run Stage.services.calendar stage.today d stage =
      (.ok o, { stage with memory := m }) := by
    rw [Stage.run_apply, MemoryCalendar.run_of_effect havailable heffect]
  have htoday : Stage.services.today stage = (stage.today, stage) := rfl
  exact (bind_apply hofCommand).trans ((bind_apply htoday).trans (bind_apply hrun))

/-- **A reply acts if and only if it is one whole command.**  If the reply without
    its markup is no command, it is the answer, and the turn is the same for every
    calendar: it calls none, so nothing is stored, logged or listed.  If it is a
    command, the turn is resolving it and carrying it out; where that succeeds, the
    text of the resolved command is answered and logged.  Searching the reply for a
    verb first never hides a command. -/
theorem reply_acts_iff_read :
    (∀ {W : Type} (services : Services (StateM W)) (s s₂ : Session) (question reply : String)
        (intent : IntentCode) (id : Uuid) (w w₂ : W),
      Replied services s question w intent reply id s₂ w₂ →
        (∀ fault, Command.read (Command.stripMarkup reply) = .error fault →
          (∀ calendar, s.send { services with calendar } question w = ((.ok reply, s₂), w₂)) ∧
            s₂.executed = s.executed ∧ s₂.lastListing = s.lastListing) ∧
        ∀ c result w₃, Command.read (Command.stripMarkup reply) = .ok c →
          carryOut services c w₂ = (result, w₃) →
          ∃ answer s', s.send services question w = ((answer, s'), w₃) ∧
            match result with
            | .error cause => answer = .error cause.ofTurn ∧ s' = s₂
            | .ok (d, outcome) => answer = .ok d.render ∧
                s'.executed = s.executed ++ [d.render] ∧
                s'.lastListing =
                  match outcome with
                  | .listed l => l
                  | _ => s.lastListing) ∧
    (∀ (s : Session) (question ask reply : String) (rest : List (Except Failure String))
        (stage : Stage) (fault : CommandFault),
      stage.replies = .ok ask :: .ok reply :: rest →
      interpretReply ask ≠ Intent.listSchedule.code →
      Command.read (Command.stripMarkup reply) = .error fault →
      ∃ s' stage', s.send Stage.services question stage = ((.ok reply, s'), stage') ∧
        stage'.memory = stage.memory ∧ s'.executed = s.executed ∧
        s'.lastListing = s.lastListing) ∧
    ∀ (reply : String) (c : Command), Command.read (Command.stripMarkup reply) = .ok c →
      Command.mentionsVerb reply = true := by
  refine ⟨fun services s s₂ question reply intent id w w₂ hreplied => ⟨?_, ?_⟩, ?_,
    fun _ _ => Command.mentionsVerb_of_read⟩
  · intro fault hfault
    have hnone : commandOf? reply = none := by rw [commandOf?_eq, hfault]; rfl
    exact ⟨fun calendar => send_of_no_command (hreplied.withCalendar calendar) hnone, hreplied.kept⟩
  · intro c result w₃ hread hresult
    have hcommand : commandOf? reply = some c := by rw [commandOf?_eq, hread]; rfl
    obtain ⟨hexecuted, hlast⟩ := hreplied.kept
    have hsend := send_of_command hreplied hcommand hresult
    cases result with
    | error cause => exact ⟨_, _, hsend, rfl, rfl⟩
    | ok done =>
      obtain ⟨d, outcome⟩ := done
      refine ⟨_, _, hsend, rfl, ?_, ?_⟩
      · rw [← hexecuted]
        rfl
      · rw [← hlast]
        cases outcome <;> rfl
  · intro s question ask reply rest stage fault hscript hask hfault
    obtain ⟨id, s₂, stage₂, hreplied⟩ := exists_replied_of_script hscript hask s question
    obtain ⟨_, _, _, hkept⟩ := hreplied.script
    have hnone : commandOf? reply = none := by rw [commandOf?_eq, hfault]; rfl
    exact ⟨s₂, stage₂, send_of_no_command hreplied hnone, hkept.memory, hreplied.kept⟩

/-- A call within a sentence, and a call in a fence. -/
theorem reply_acts_iff_read_fence :
    let sentence := "Sure, I will run remove_outlook_schedule('No.0') for you."
    let fenced := "```text\nremove_outlook_schedule('No.0')\n```"
    let stage (reply : String) := Stage.onNewYear [⟨"a", "Lunch", "", ""⟩] [.ok "3", .ok reply]
    (∃ s' stage', empty.send Stage.services "Cancel it" (stage sentence) =
        ((.ok sentence, s'), stage') ∧
      stage'.memory.events = [⟨"a", "Lunch", "", ""⟩] ∧ s'.executed = []) ∧
    Command.mentionsVerb fenced = true ∧
    ∃ s' stage', empty.send Stage.services "Cancel it" (stage fenced) =
        ((.ok (Command.remove "a").render, s'), stage') ∧
      s'.executed = [(Command.remove "a").render] := by
  intro sentence fenced stage
  obtain ⟨hturn, hstage, hgate⟩ := reply_acts_iff_read
  have hsentence : Command.read (Command.stripMarkup sentence) =
      .error ⟨.unknownVerb "Sure", 0⟩ := by decide +kernel
  have hfenced : Command.read (Command.stripMarkup fenced) = .ok (.remove "No.0") := by
    decide +kernel
  refine ⟨?_, hgate _ _ hfenced, ?_⟩
  · obtain ⟨s', stage', hsend, hmemory, hexecuted, _⟩ :=
      hstage empty "Cancel it" "3" sentence [] (stage sentence) _ rfl (by decide) hsentence
    exact ⟨s', stage', hsend, by rw [hmemory]; rfl, hexecuted⟩
  · have hscript : (stage fenced).replies = [.ok "3", .ok fenced] := rfl
    obtain ⟨id, s₂, stage₂, hreplied⟩ :=
      exists_replied_of_script hscript (by decide) empty "Cancel it"
    obtain ⟨_, _, _, hkept⟩ := hreplied.script
    have hresolve : stage₂.memory.resolve (.remove "No.0") = .ok ⟨.remove "a", some "a"⟩ := by
      rw [hkept.memory]
      decide +kernel
    have hstored : ∃ e ∈ stage₂.memory.events, e.id = "a" := by
      rw [hkept.memory]
      exact ⟨_, .head _, rfl⟩
    obtain ⟨answer, s', hsend, rfl, hexecuted, _⟩ := (hturn _ _ _ _ _ _ _ _ _ hreplied).2 _ _ _
      hfenced (carryOut_of_effect (by rw [hkept.memory]; rfl) hresolve (.removed hstored))
    exact ⟨s', _, hsend, hexecuted⟩

end Datebook.Session
