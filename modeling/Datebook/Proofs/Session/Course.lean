/-
  Datebook/Proofs/Session/Course.lean
  ===================================
  **The courses a turn can take.**

  A turn calls on the model, the clock and the calendar, and each of them can
  end it.  `Course` names the eight ways in which that can go, with what came up
  on the way; `Takes` says of each of them which calls were made in which order,
  what they returned, and what the session is afterwards.

  `exists_takes_send` says that there is no ninth way.  What holds of every turn
  is proved by going through the courses, and nobody unfolds `send` again.

  The services are any that work on some state `W` of the world: a model, a
  calendar and a clock may do to it whatever they like.
-/
import Datebook.Proofs.Transcript
import Datebook.Session.Basic

namespace Datebook

/-- An entry apart from its id and time. -/
def Entry.content (e : Entry) : IntentCode × ChatMessage := (e.intent, ⟨e.speaker, e.message⟩)

namespace Session

/-! ### Courses -/

/-- How a turn goes. -/
inductive Course where
  /-- The intent could not be asked for. -/
  | unclassified (cause : Failure)
  /-- The calendar was to be shown and gave no listing. -/
  | unlisted (intent : IntentCode) (cause : Failure)
  /-- The calendar was shown. -/
  | listed (intent : IntentCode) (l : Listing)
  /-- A command was to be written and the model gave no reply. -/
  | unanswered (intent : IntentCode) (cause : Failure)
  /-- The reply is no command. -/
  | words (intent : IntentCode) (reply : String)
  /-- The reply is a command whose reference could not be looked up. -/
  | unresolved (intent : IntentCode) (reply : String) (cause : Failure)
  /-- The reply is a command that failed once it was resolved. -/
  | refused (intent : IntentCode) (reply : String) (resolved : Command) (cause : Failure)
  /-- The reply is a command that was resolved and carried out. -/
  | executed (intent : IntentCode) (reply : String) (resolved : Command) (outcome : Outcome)

namespace Course

/-- What the user is answered. -/
def answer : Course → Except Failure String
  | .unclassified cause => .error (Failure.classification cause.message).ofTurn
  | .unlisted _ cause | .unanswered _ cause => .error cause.ofTurn
  | .unresolved _ _ cause | .refused _ _ _ cause => .error cause.ofTurn
  | .listed _ l => .ok (showListing l)
  | .words _ reply => .ok reply
  | .executed _ _ resolved _ => .ok resolved.render

/-- The listing that the turn got to show, if it got one. -/
def listing? : Course → Option Listing
  | .listed _ l | .executed _ _ _ (.listed l) => some l
  | _ => none

/-- The commands that the turn carried out. -/
def commands : Course → List Command
  | .executed _ _ resolved _ => [resolved]
  | _ => []

/-- What the transcript has of the turn: the question, and the reply as it is
    left there. -/
def spoken (question : String) : Course → List ChatMessage
  | .unclassified _ | .unlisted _ _ | .unanswered _ _ => [⟨.user, question⟩]
  | .listed _ l => [⟨.user, question⟩, ⟨.assistant, showListing l⟩]
  | .words _ reply | .unresolved _ reply _ | .refused _ reply _ _ =>
    [⟨.user, question⟩, ⟨.assistant, reply⟩]
  | .executed _ _ resolved _ => [⟨.user, question⟩, ⟨.assistant, resolved.render⟩]

/-- The number that the entries of the turn are kept under. -/
def intent : Course → IntentCode
  | .unclassified _ => Datebook.unclassified
  | .unlisted intent _ | .listed intent _ | .unanswered intent _ | .words intent _
  | .unresolved intent _ _ | .refused intent _ _ _ | .executed intent _ _ _ => intent

end Course

/-! ### What a turn does on each course -/

/-- The session with something said at the moment of a stamp. -/
def said (s : Session) (stamp : Stamp) (intent : IntentCode) (speaker : Speaker)
    (message : String) : Session :=
  { s with transcript := s.transcript.append stamp intent speaker message }

variable {W : Type} (services : Services (StateM W)) (s : Session) (question : String) (w : W)

/-- The intent was found out, and the question stands in the transcript. -/
inductive Heard : IntentCode → Session → W → Prop where
  | mk {reply : String} {stamp : Stamp} {w₁ w₂ : W} :
      services.model.complete Purpose.intent.instructions s.transcript.messages question w =
        (.ok reply, w₁) →
      services.stamp w₁ = (stamp, w₂) →
      Heard (interpretReply reply) (s.said stamp (interpretReply reply) .user question) w₂

/-- The model was asked for a command, and its reply stands in the transcript
    under the given id. -/
inductive Replied : IntentCode → String → Uuid → Session → W → Prop where
  | mk {intent : IntentCode} {reply : String} {stamp : Stamp} {s₁ : Session} {w₁ w₂ w₃ : W} :
      Heard services s question w intent s₁ w₁ → (Strategy.ofCode intent).asksForCommand = true →
      generateReply services.model s.transcript.messages question w₁ = (.ok reply, w₂) →
      services.stamp w₂ = (stamp, w₃) →
      Replied intent reply stamp.id (s₁.said stamp intent .assistant reply) w₃

/-- A turn takes a course, and leaves the session and the world like this. -/
inductive Takes : Course → Session → W → Prop where
  | unclassified {cause : Failure} {stamp : Stamp} {w₁ w₂ : W} :
      services.model.complete Purpose.intent.instructions s.transcript.messages question w =
        (.error cause, w₁) →
      services.stamp w₁ = (stamp, w₂) →
      Takes (.unclassified cause) (s.said stamp Datebook.unclassified .user question) w₂
  | unlisted {intent : IntentCode} {cause : Failure} {s₁ : Session} {w₁ w₂ : W} :
      Heard services s question w intent s₁ w₁ → (Strategy.ofCode intent).asksForCommand = false →
      services.calendar.list w₁ = (.error cause, w₂) →
      Takes (.unlisted intent cause) s₁ w₂
  | listed {intent : IntentCode} {l : Listing} {stamp : Stamp} {s₁ : Session} {w₁ w₂ w₃ : W} :
      Heard services s question w intent s₁ w₁ → (Strategy.ofCode intent).asksForCommand = false →
      services.calendar.list w₁ = (.ok l, w₂) →
      services.stamp w₂ = (stamp, w₃) →
      Takes (.listed intent l)
        (({ s₁ with lastListing := l } : Session).said stamp intent .assistant (showListing l)) w₃
  | unanswered {intent : IntentCode} {cause : Failure} {s₁ : Session} {w₁ w₂ : W} :
      Heard services s question w intent s₁ w₁ → (Strategy.ofCode intent).asksForCommand = true →
      generateReply services.model s.transcript.messages question w₁ = (.error cause, w₂) →
      Takes (.unanswered intent cause) s₁ w₂
  | words {intent : IntentCode} {reply : String} {id : Uuid} {s₂ : Session} {w₂ : W} :
      Replied services s question w intent reply id s₂ w₂ → commandOf? reply = none →
      Takes (.words intent reply) s₂ w₂
  | unresolved {intent : IntentCode} {reply : String} {id : Uuid} {command : Command}
      {cause : Failure} {s₂ : Session} {w₂ w₃ : W} :
      Replied services s question w intent reply id s₂ w₂ → commandOf? reply = some command →
      Resolution.ofCommand services.calendar command w₂ = (.error cause, w₃) →
      Takes (.unresolved intent reply cause) s₂ w₃
  | refused {intent : IntentCode} {reply : String} {id : Uuid} {command : Command}
      {resolution : Resolution} {today : Date} {cause : Failure} {s₂ : Session} {w₂ w₃ w₄ w₅ : W} :
      Replied services s question w intent reply id s₂ w₂ → commandOf? reply = some command →
      Resolution.ofCommand services.calendar command w₂ = (.ok resolution, w₃) →
      services.today w₃ = (today, w₄) →
      Execution.run services.calendar today resolution.command w₄ = (.error cause, w₅) →
      Takes (.refused intent reply resolution.command cause) s₂ w₅
  | executed {intent : IntentCode} {reply : String} {id : Uuid} {command : Command}
      {resolution : Resolution} {today : Date} {outcome : Outcome} {s₂ : Session}
      {w₂ w₃ w₄ w₅ : W} :
      Replied services s question w intent reply id s₂ w₂ → commandOf? reply = some command →
      Resolution.ofCommand services.calendar command w₂ = (.ok resolution, w₃) →
      services.today w₃ = (today, w₄) →
      Execution.run services.calendar today resolution.command w₄ = (.ok outcome, w₅) →
      Takes (.executed intent reply resolution.command outcome)
        (s₂.noteExecuted id reply resolution.command outcome) w₅

/-! ### Every turn takes a course -/

theorem bind_apply {α β : Type} {x : StateM W α} {f : α → StateM W β} {v v' : W} {a : α}
    (h : x v = (a, v')) : (x >>= f) v = f a v' := by
  change (match x v with | (a, v) => f a v) = f a v'
  rw [h]

theorem pure_apply {α : Type} (a : α) (v : W) : (pure a : StateM W α) v = (a, v) := rfl

variable {services s question w}

theorem record_apply {s : Session} {w w' : W} {stamp : Stamp} (h : services.stamp w = (stamp, w'))
    (intent : IntentCode) (speaker : Speaker) (message : String) :
    s.record services intent speaker message w =
      ((stamp.id, s.said stamp intent speaker message), w') :=
  bind_apply h

theorem classify_apply {reply : String} {w₁ : W}
    (h : services.model.complete Purpose.intent.instructions s.transcript.messages question w =
      (.ok reply, w₁)) :
    classify services.model s.transcript.messages question w = (.ok (interpretReply reply), w₁) :=
  bind_apply h

theorem exists_takes_perform {intent : IntentCode} {reply : String} {id : Uuid} {s₂ : Session}
    {w₂ : W} {command : Command} (h : Replied services s question w intent reply id s₂ w₂)
    (hcommand : commandOf? reply = some command) :
    ∃ course answer s' w', s₂.perform services id reply command w₂ = ((answer, s'), w') ∧
      answer.mapError Failure.ofTurn = course.answer ∧
      Takes services s question w course s' w' := by
  rcases hresolve : Resolution.ofCommand services.calendar command w₂ with ⟨cause | resolution, w₃⟩
  · exact ⟨_, _, _, _, bind_apply hresolve, rfl, .unresolved h hcommand hresolve⟩
  rcases htoday : services.today w₃ with ⟨today, w₄⟩
  rcases hrun : Execution.run services.calendar today resolution.command w₄ with
    ⟨cause | outcome, w₅⟩
  · refine ⟨_, .error cause, _, _, ?_, rfl, .refused h hcommand hresolve htoday hrun⟩
    exact (bind_apply hresolve).trans ((bind_apply htoday).trans (bind_apply hrun))
  · refine ⟨_, .ok resolution.command.render, _, _, ?_, rfl,
      .executed h hcommand hresolve htoday hrun⟩
    exact (bind_apply hresolve).trans ((bind_apply htoday).trans (bind_apply hrun))

theorem exists_takes_askForCommand {intent : IntentCode} {s₁ : Session} {w₁ : W}
    (h : Heard services s question w intent s₁ w₁)
    (hask : (Strategy.ofCode intent).asksForCommand = true) :
    ∃ course answer s' w', s₁.askForCommand services intent s.transcript.messages question w₁ =
        ((answer, s'), w') ∧
      answer.mapError Failure.ofTurn = course.answer ∧
      Takes services s question w course s' w' := by
  rcases hreply : generateReply services.model s.transcript.messages question w₁ with
    ⟨cause | reply, w₂⟩
  · exact ⟨_, _, _, _, bind_apply hreply, rfl, .unanswered h hask hreply⟩
  rcases hstamp : services.stamp w₂ with ⟨stamp, w₃⟩
  have hreplied := Replied.mk h hask hreply hstamp
  cases hcommand : commandOf? reply with
  | none =>
    refine ⟨_, .ok reply, _, _, ?_, rfl, .words hreplied hcommand⟩
    refine (bind_apply hreply).trans ((bind_apply (record_apply hstamp _ _ _)).trans ?_)
    rw [hcommand]
    exact pure_apply _ _
  | some command =>
    obtain ⟨course, answer, s', w', hperform, hanswer, htakes⟩ :=
      exists_takes_perform hreplied hcommand
    refine ⟨course, answer, s', w', ?_, hanswer, htakes⟩
    refine (bind_apply hreply).trans ((bind_apply (record_apply hstamp _ _ _)).trans ?_)
    rw [hcommand]
    exact hperform

theorem exists_takes_showCalendar {intent : IntentCode} {s₁ : Session} {w₁ : W}
    (h : Heard services s question w intent s₁ w₁)
    (hshow : (Strategy.ofCode intent).asksForCommand = false) :
    ∃ course answer s' w', s₁.showCalendar services intent w₁ = ((answer, s'), w') ∧
      answer.mapError Failure.ofTurn = course.answer ∧
      Takes services s question w course s' w' := by
  rcases hlist : services.calendar.list w₁ with ⟨cause | l, w₂⟩
  · exact ⟨_, _, _, _, bind_apply hlist, rfl, .unlisted h hshow hlist⟩
  rcases hstamp : services.stamp w₂ with ⟨stamp, w₃⟩
  refine ⟨_, .ok (showListing l), _, _, ?_, rfl, .listed h hshow hlist hstamp⟩
  exact (bind_apply hlist).trans (bind_apply (record_apply hstamp intent .assistant _))

/-- **Every turn takes one of the courses**, and its answer is that of the course. -/
theorem exists_takes_send (services : Services (StateM W)) (s : Session) (question : String)
    (w : W) : ∃ course s' w', s.send services question w = ((course.answer, s'), w') ∧
      Takes services s question w course s' w' := by
  have hhandle : ∃ course answer s' w', s.handle services question w = ((answer, s'), w') ∧
      answer.mapError Failure.ofTurn = course.answer ∧
      Takes services s question w course s' w' := by
    rcases hintent : services.model.complete Purpose.intent.instructions s.transcript.messages
      question w with ⟨cause | reply, w₁⟩
    · rcases hstamp : services.stamp w₁ with ⟨stamp, w₂⟩
      have hclassify : classify services.model s.transcript.messages question w =
          (.error (.classification cause.message), w₁) := bind_apply hintent
      refine ⟨_, .error (.classification cause.message), _, _, ?_, rfl,
        .unclassified hintent hstamp⟩
      exact (bind_apply hclassify).trans (bind_apply (record_apply hstamp _ _ _))
    rcases hstamp : services.stamp w₁ with ⟨stamp, w₂⟩
    have hheard := Heard.mk hintent hstamp
    have hrest : s.handle services question w =
        (if (Strategy.ofCode (interpretReply reply)).asksForCommand then
          (s.said stamp (interpretReply reply) .user question).askForCommand services
            (interpretReply reply) s.transcript.messages question
        else (s.said stamp (interpretReply reply) .user question).showCalendar services
          (interpretReply reply) : StateM W Turn) w₂ :=
      (bind_apply (classify_apply hintent)).trans (bind_apply (record_apply hstamp _ _ _))
    rw [hrest]
    cases hask : (Strategy.ofCode (interpretReply reply)).asksForCommand with
    | true => exact exists_takes_askForCommand hheard hask
    | false => exact exists_takes_showCalendar hheard hask
  obtain ⟨course, answer, s', w', hrun, hanswer, htakes⟩ := hhandle
  refine ⟨course, s', w', ?_, htakes⟩
  rw [← hanswer]
  exact bind_apply hrun

/-! ### What a turn leaves behind -/

variable {intent : IntentCode} {s₁ s₂ : Session} {w₁ w₂ : W}

theorem entries_said (s : Session) (stamp : Stamp) (intent : IntentCode) (speaker : Speaker)
    (message : String) :
    ∃ e : Entry, (s.said stamp intent speaker message).transcript.entries =
        s.transcript.entries ++ [e] ∧
      e.id = stamp.id ∧ e.content = (intent, ⟨speaker, message⟩) := by
  refine ⟨_, rfl, ?_⟩
  rw [Transcript.clamp]
  split <;> exact ⟨rfl, rfl⟩

theorem Heard.entries (h : Heard services s question w intent s₁ w₁) :
    ∃ e, s₁.transcript.entries = s.transcript.entries ++ [e] ∧
      e.content = (intent, ⟨.user, question⟩) := by
  cases h with
  | mk hintent hstamp =>
    obtain ⟨e, hentries, _, hcontent⟩ := entries_said s _ _ .user question
    exact ⟨e, hentries, hcontent⟩

theorem Replied.entries {reply : String} {id : Uuid}
    (h : Replied services s question w intent reply id s₂ w₂) :
    ∃ e e', s₂.transcript.entries = s.transcript.entries ++ [e, e'] ∧
      e.content = (intent, ⟨.user, question⟩) ∧
      e'.content = (intent, ⟨.assistant, reply⟩) ∧ e'.id = id := by
  cases h with
  | mk hheard hask hreply hstamp =>
    obtain ⟨e, hentries, hcontent⟩ := hheard.entries
    obtain ⟨e', hentries', hid, hcontent'⟩ := entries_said _ _ intent .assistant reply
    refine ⟨e, e', ?_, hcontent, hcontent', hid⟩
    rw [hentries', hentries, List.append_assoc]
    rfl

theorem Heard.kept (h : Heard services s question w intent s₁ w₁) :
    s₁.executed = s.executed ∧ s₁.lastListing = s.lastListing := by
  cases h
  exact ⟨rfl, rfl⟩

theorem Replied.kept {reply : String} {id : Uuid}
    (h : Replied services s question w intent reply id s₂ w₂) :
    s₂.executed = s.executed ∧ s₂.lastListing = s.lastListing := by
  cases h with
  | mk hheard => exact hheard.kept

theorem entries_noteExecuted {s₂ : Session} {before : List Entry} {e : Entry} {reply : String}
    (hentries : s₂.transcript.entries = before ++ [e]) (hreply : e.message = reply)
    (command : Command) (outcome : Outcome) :
    (s₂.noteExecuted e.id reply command outcome).transcript.entries =
      before ++ [{ e with message := command.render }] := by
  change (if command.render = reply then s₂.transcript
    else s₂.transcript.replaceLast e.id command.render).entries = _
  split
  · rename_i hsame
    rw [hentries, hsame, ← hreply]
  · have hlast := Transcript.last?_eq_some_iff.mpr ⟨before, hentries⟩
    rw [Transcript.replaceLast, hlast]
    simp [hentries]

variable {course : Course} {s' : Session} {w' : W}

/-- **The log grows by the commands that were carried out.** -/
theorem Takes.executed_eq (h : Takes services s question w course s' w') :
    s'.executed = s.executed ++ course.commands.map Command.render := by
  cases h with
  | unclassified => simp [said, Course.commands]
  | unlisted hheard | unanswered hheard => simp [hheard.kept.1, Course.commands]
  | listed hheard => simp [said, hheard.kept.1, Course.commands]
  | words hreplied | unresolved hreplied | refused hreplied =>
    simp [hreplied.kept.1, Course.commands]
  | executed hreplied => simp [noteExecuted, hreplied.kept.1, Course.commands]

/-- **The listing that is kept is the one that was shown last.** -/
theorem Takes.lastListing_eq (h : Takes services s question w course s' w') :
    s'.lastListing = course.listing?.getD s.lastListing := by
  cases h with
  | unclassified => rfl
  | unlisted hheard | unanswered hheard => exact hheard.kept.2
  | listed => rfl
  | words hreplied | unresolved hreplied | refused hreplied => exact hreplied.kept.2
  | @executed _ _ _ _ _ _ outcome _ _ _ _ _ hreplied =>
    cases outcome with
    | listed l => rfl
    | added | updated | removed => exact hreplied.kept.2

/-- **The transcript grows by what was spoken**, and what it had stays as it is. -/
theorem Takes.entries (h : Takes services s question w course s' w') :
    ∃ added, s'.transcript.entries = s.transcript.entries ++ added ∧
      added.map Entry.content = (course.spoken question).map (course.intent, ·) := by
  cases h with
  | unclassified =>
    obtain ⟨e, hentries, _, hcontent⟩ := entries_said s _ Datebook.unclassified .user question
    exact ⟨[e], hentries, congrArg (fun c => [c]) hcontent⟩
  | unlisted hheard | unanswered hheard =>
    obtain ⟨e, hentries, hcontent⟩ := hheard.entries
    exact ⟨[e], hentries, congrArg (fun c => [c]) hcontent⟩
  | @listed intent l stamp s₁ _ _ _ hheard =>
    obtain ⟨e, hentries, hcontent⟩ := hheard.entries
    obtain ⟨e', hentries', _, hcontent'⟩ :=
      entries_said { s₁ with lastListing := l } stamp intent .assistant (showListing l)
    refine ⟨[e, e'], ?_, ?_⟩
    · rw [hentries', hentries, List.append_assoc]
      rfl
    · simp [hcontent, hcontent', Course.spoken, Course.intent]
  | words hreplied | unresolved hreplied | refused hreplied =>
    obtain ⟨e, e', hentries, hcontent, hcontent', _⟩ := hreplied.entries
    exact ⟨[e, e'], hentries, by simp [hcontent, hcontent', Course.spoken, Course.intent]⟩
  | @executed intent _ _ _ resolution _ _ _ _ _ _ _ hreplied =>
    obtain ⟨e, e', hentries, hcontent, hcontent', hid⟩ := hreplied.entries
    rw [Entry.content, Prod.mk.injEq, ChatMessage.mk.injEq] at hcontent'
    obtain ⟨hintent, hspeaker, hmessage⟩ := hcontent'
    have hlast := hentries.trans (List.append_assoc _ [e] [e']).symm
    have hrewritten : ({ e' with message := resolution.command.render } : Entry).content =
        (intent, ⟨.assistant, resolution.command.render⟩) := by
      rw [Entry.content, hintent, hspeaker]
    subst hid
    refine ⟨_, (entries_noteExecuted hlast hmessage _ _).trans (List.append_assoc _ _ _), ?_⟩
    simp [hcontent, hrewritten, Course.spoken, Course.intent]

end Session

end Datebook
