/-
  Datebook/Proofs/Session/Asking.lean
  ===================================
  **How often a model is asked, and what it is told.**

  A turn asks for the intent, and then for a command unless the calendar is to be shown.
  Both times the model is given the transcript as it was before the turn.  The question
  is in the transcript already when the command is asked for, but what the model is
  given was taken out before.

  Over a run that starts afresh now and then, the transcript holds what was spoken since
  (`remembered`), and so the calls of a run can be told from the courses of its turns
  (`asked`).  The services are any for which there is an account of the model's calls.
-/
import Datebook.Proofs.Session.Conversation

namespace Datebook

variable {W : Type}

/-- A call of the model is entered at the end of the account, with what the model was
    given; no other call is entered. -/
structure Services.Accounts (services : Services (StateM W)) (calls : W → List ModelCall) :
    Prop where
  complete : ∀ instructions history user w,
    calls (services.model.complete instructions history user w).2 =
      calls w ++ [⟨instructions, history, user⟩]
  calendar : ∀ past, services.calendar.Keeps fun w => calls w = past
  today : ∀ w, calls (services.today w).2 = calls w
  stamp : ∀ w, calls (services.stamp w).2 = calls w

namespace Services.Accounts

variable {services : Services (StateM W)} {calls : W → List ModelCall} {w w' : W}

theorem of_complete (h : services.Accounts calls) {instructions : String}
    {history : List ChatMessage} {user : String} {reply : Except Failure String}
    (hreply : services.model.complete instructions history user w = (reply, w')) :
    calls w' = calls w ++ [⟨instructions, history, user⟩] := by
  rw [← h.complete, hreply]

theorem of_stamp (h : services.Accounts calls) {stamp : Stamp}
    (hstamp : services.stamp w = (stamp, w')) : calls w' = calls w := by
  rw [← h.stamp w, hstamp]

theorem of_today (h : services.Accounts calls) {today : Date}
    (htoday : services.today w = (today, w')) : calls w' = calls w := by
  rw [← h.today w, htoday]

end Services.Accounts

theorem Stage.accounts : services.Accounts Stage.calls where
  complete instructions history user stage := by
    cases hreplies : stage.replies with
    | nil => rw [complete_of_no_replies hreplies]
    | cons reply replies => rw [complete_of_replies hreplies]
  calendar _ := ⟨fun _ h => h, fun _ _ h => h, fun _ _ _ h => h, fun _ _ h => h⟩
  today _ := rfl
  stamp _ := rfl

/-- What the model is given for a purpose in a turn. -/
def ModelCall.asking (prior : List ChatMessage) (question : String) (purpose : Purpose) :
    ModelCall :=
  ⟨purpose.instructions, prior, question⟩

/-- What is asked for in a turn in which the model says this about the intent. -/
def Purpose.ofTurn : Except Failure String → List Purpose
  | .ok reply =>
    if interpretReply reply = Intent.listSchedule.code then [.intent] else [.intent, .command]
  | .error _ => [.intent]

namespace Session

variable {services : Services (StateM W)} {account : W → List ModelCall} {s s₁ s₂ s' : Session}
  {question : String} {w w₁ w₂ w' : W} {course : Course} {intent : IntentCode}

/-! ### The calls of a turn -/

/-- What the model was asked for on the course. -/
def Course.purposes : Course → List Purpose
  | .unclassified _ | .unlisted _ _ | .listed _ _ => [.intent]
  | .unanswered _ _ | .words _ _ | .unresolved _ _ _ | .refused _ _ _ _ | .executed _ _ _ _ =>
    [.intent, .command]

theorem Heard.calls (h : Heard services s question w intent s₁ w₁)
    (hcalls : services.Accounts account) :
    account w₁ = account w ++ [.asking s.transcript.messages question .intent] := by
  cases h with
  | mk hintent hstamp => exact (hcalls.of_stamp hstamp).trans (hcalls.of_complete hintent)

theorem calls_of_generateReply {prior : List ChatMessage} {reply : Except Failure String}
    (hcalls : services.Accounts account)
    (h : generateReply services.model prior question w = (reply, w')) :
    account w' = account w ++ [.asking prior question .command] :=
  hcalls.of_complete h

theorem Replied.calls {reply : String} {id : Uuid}
    (h : Replied services s question w intent reply id s₂ w₂) (hcalls : services.Accounts account) :
    account w₂ = account w ++
      [.asking s.transcript.messages question .intent,
        .asking s.transcript.messages question .command] := by
  cases h with
  | mk hheard hask hreply hstamp =>
    rw [hcalls.of_stamp hstamp, calls_of_generateReply hcalls hreply, hheard.calls hcalls,
      List.append_assoc]
    rfl

/-- A turn asks for what its course says, and nobody else asks the model. -/
theorem Takes.calls (h : Takes services s question w course s' w')
    (hcalls : services.Accounts account) :
    account w' = account w ++ course.purposes.map (.asking s.transcript.messages question) := by
  cases h with
  | unclassified hintent hstamp =>
    exact (hcalls.of_stamp hstamp).trans (hcalls.of_complete hintent)
  | unlisted hheard _ hlist =>
    exact ((hcalls.calendar _).list.of_eq hlist rfl).trans (hheard.calls hcalls)
  | listed hheard _ hlist hstamp =>
    rw [hcalls.of_stamp hstamp, (hcalls.calendar _).list.of_eq hlist rfl]
    exact hheard.calls hcalls
  | unanswered hheard _ hreply =>
    rw [calls_of_generateReply hcalls hreply, hheard.calls hcalls, List.append_assoc]
    rfl
  | words hreplied => exact hreplied.calls hcalls
  | unresolved hreplied _ hresolve =>
    exact ((hcalls.calendar _).ofCommand _ |>.of_eq hresolve rfl).trans (hreplied.calls hcalls)
  | refused hreplied _ hresolve htoday hrun | executed hreplied _ hresolve htoday hrun =>
    rw [((hcalls.calendar _).run _ _).of_eq hrun rfl, hcalls.of_today htoday,
      ((hcalls.calendar _).ofCommand _).of_eq hresolve rfl]
    exact hreplied.calls hcalls

theorem Heard.purposes (h : Heard services s question w intent s₁ w₁) :
    Purpose.ofTurn (services.model.complete Purpose.intent.instructions s.transcript.messages
        question w).1 =
      if (Strategy.ofCode intent).asksForCommand then [.intent, .command] else [.intent] := by
  cases h with
  | mk hintent =>
    rw [hintent, Purpose.ofTurn]
    simp only [Strategy.asksForCommand_iff, ne_eq, ite_not]

/-- What is asked for in a turn hangs on what the model says about the intent. -/
theorem Takes.purposes (h : Takes services s question w course s' w') :
    course.purposes = Purpose.ofTurn (services.model.complete Purpose.intent.instructions
      s.transcript.messages question w).1 := by
  cases h with
  | unclassified hintent =>
    rw [hintent]
    rfl
  | unlisted hheard hshow | listed hheard hshow =>
    rw [hheard.purposes, hshow]
    rfl
  | unanswered hheard hask =>
    rw [hheard.purposes, hask]
    rfl
  | words hreplied | unresolved hreplied | refused hreplied | executed hreplied =>
    cases hreplied with
    | mk hheard hask =>
      rw [hheard.purposes, hask]
      rfl

/-! ### Runs -/

/-- What a user does with a session. -/
inductive Act where
  | say (question : String)
  | clear

/-- Do one thing after another: the session at the end. -/
def live {m : Type → Type} [Monad m] (services : Services m) (s : Session) : List Act → m Session
  | [] => return s
  | .say question :: acts => do
    let (_, s) ← s.send services question
    s.live services acts
  | .clear :: acts => s.clear.live services acts

/-- What comes of an act: a turn takes a course. -/
inductive Happening where
  | turn (question : String) (course : Course)
  | cleared

def Happening.act : Happening → Act
  | .turn question _ => .say question
  | .cleared => .clear

variable (services) in
/-- One happening after another. -/
inductive Lives : Session → W → List Happening → Session → W → Prop where
  | nil {s : Session} {w : W} : Lives s w [] s w
  | turn {s s₁ s' : Session} {w w₁ w' : W} {question : String} {course : Course}
      {rest : List Happening} :
      Takes services s question w course s₁ w₁ → Lives s₁ w₁ rest s' w' →
      Lives s w (.turn question course :: rest) s' w'
  | cleared {s s' : Session} {w w' : W} {rest : List Happening} :
      Lives s.clear w rest s' w' → Lives s w (.cleared :: rest) s' w'

theorem exists_lives (services : Services (StateM W)) (s : Session) (acts : List Act) (w : W) :
    ∃ course s' w', s.live services acts w = (s', w') ∧ course.map Happening.act = acts ∧
      Lives services s w course s' w' := by
  induction acts generalizing s w with
  | nil => exact ⟨[], s, w, rfl, rfl, .nil⟩
  | cons act acts ih =>
    cases act with
    | say question =>
      obtain ⟨course, s₁, w₁, hsend, htakes⟩ := exists_takes_send services s question w
      obtain ⟨rest, s', w', hlive, hacts, hrest⟩ := ih s₁ w₁
      refine ⟨.turn question course :: rest, s', w', (bind_apply hsend).trans hlive, ?_,
        .turn htakes hrest⟩
      rw [List.map_cons, hacts]
      rfl
    | clear =>
      obtain ⟨rest, s', w', hlive, hacts, hrest⟩ := ih s.clear w
      refine ⟨.cleared :: rest, s', w', hlive, ?_, .cleared hrest⟩
      rw [List.map_cons, hacts]
      rfl

/-- What a transcript holds after all that has happened: what was spoken since the last
    time that it was cleared. -/
def remembered (prior : List ChatMessage) : List Happening → List ChatMessage
  | [] => prior
  | .turn question course :: rest => remembered (prior ++ course.spoken question) rest
  | .cleared :: rest => remembered [] rest

/-- The calls of all turns, each with what the transcript held before. -/
def asked (prior : List ChatMessage) : List Happening → List ModelCall
  | [] => []
  | .turn question course :: rest =>
    course.purposes.map (.asking prior question) ++ asked (prior ++ course.spoken question) rest
  | .cleared :: rest => asked [] rest

variable {happened : List Happening}

theorem Lives.messages (h : Lives services s w happened s' w') :
    s'.transcript.messages = remembered s.transcript.messages happened := by
  induction h with
  | nil => rfl
  | turn htakes _ ih => rw [ih, htakes.messages, remembered]
  | cleared _ ih => exact ih

theorem Lives.calls (h : Lives services s w happened s' w') (hcalls : services.Accounts account) :
    account w' = account w ++ asked s.transcript.messages happened := by
  induction h with
  | nil => exact (List.append_nil _).symm
  | turn htakes _ ih =>
    rw [ih, htakes.calls hcalls, htakes.messages, asked, List.append_assoc]
  | cleared _ ih => exact ih

/-- **A model is asked once or twice in a turn, and told what was said before it.**
    The first call of a turn asks for the intent.  A second one asks for a command, and
    is made exactly if the first was answered with another intent than to show the
    calendar.  Both carry the question, and the messages of the transcript as it stood
    before the turn.

    In a run of turns from any session, cleared now and then, these are the messages
    spoken since it was last cleared: the questions, and the replies as they were left,
    a command that was carried out by its text. -/
theorem calls_of_live (services : Services (StateM W)) (account : W → List ModelCall)
    (hcalls : services.Accounts account) :
    (∀ (s : Session) (question : String) (w : W),
      account (s.send services question w).2 = account w ++
        (Purpose.ofTurn (services.model.complete Purpose.intent.instructions
          s.transcript.messages question w).1).map
            fun purpose => ⟨purpose.instructions, s.transcript.messages, question⟩) ∧
    ∀ (s : Session) (acts : List Act) (w : W), ∃ happened s' w',
      s.live services acts w = (s', w') ∧ happened.map Happening.act = acts ∧
        Lives services s w happened s' w' ∧
        s'.transcript.messages = remembered s.transcript.messages happened ∧
        account w' = account w ++ asked s.transcript.messages happened := by
  constructor
  · intro s question w
    obtain ⟨course, s', w', hsend, htakes⟩ := exists_takes_send services s question w
    rw [hsend, htakes.calls hcalls, htakes.purposes]
    rfl
  · intro s acts w
    obtain ⟨happened, s', w', hlive, hacts, hlives⟩ := exists_lives services s acts w
    exact ⟨happened, s', w', hlive, hacts, hlives, hlives.messages, hlives.calls hcalls⟩

/-- A removal, then a listing, which is told of the removal by the id that was put in;
    then nothing is known any more, and the model has nothing more to say. -/
theorem calls_of_live_cleared :
    let stage := Stage.onNewYear [⟨"a", "Lunch", "", ""⟩]
      [.ok "3", .ok "`remove_outlook_schedule('No.0')`", .ok "4"]
    let acts : List Act := [.say "Cancel lunch", .say "What is left?", .clear, .say "Hello"]
    let removal := [⟨.user, "Cancel lunch"⟩, ⟨.assistant, "remove_outlook_schedule(\"a\")"⟩]
    ∃ happened s' stage', empty.live Stage.services acts stage = (s', stage') ∧
      happened.map Happening.act = acts ∧ stage'.calls = asked [] happened ∧
      stage'.calls.map (fun call => (call.history, call.user)) =
        [([], "Cancel lunch"), ([], "Cancel lunch"), (removal, "What is left?"), ([], "Hello")] := by
  intro stage acts removal
  obtain ⟨_, hrun⟩ := calls_of_live Stage.services Stage.calls Stage.accounts
  obtain ⟨happened, s', stage', hlive, hacts, _, _, hcalls⟩ := hrun empty acts stage
  refine ⟨happened, s', stage', hlive, hacts, hcalls, ?_⟩
  have hend : _ = stage' := congrArg Prod.snd hlive
  rw [← hend]
  decide +kernel

end Session

end Datebook
