/-
  Datebook/Proofs/Session/Invariant.lean
  ======================================
  **What every call keeps, a turn keeps.**

  Nothing is known of the services of a session.  So a property of transcript and
  world holds throughout when the calls that the services offer keep it
  (`Services.Keeps`): those of the model, the calendar and the clock, whatever they
  are called with.  `Session.Takes.keeps` then goes through the courses of a turn.

  Two properties are used.  That the times are in order is kept by any services,
  since it does not look at the world.  That the ids are those that were handed out
  is kept where only the stamps hand out ids (`Services.Issues`).
-/
import Datebook.Proofs.Execution
import Datebook.Proofs.Resolution
import Datebook.Proofs.Session.Course

namespace Datebook

variable {W : Type}

/-- Where the world has the property before, it has it after. -/
def Keeps {α : Type} (P : W → Prop) (x : StateM W α) : Prop := ∀ w, P w → P (x w).2

namespace Keeps

variable {α β : Type} {P : W → Prop} {x : StateM W α}

theorem of_eq {a : α} {w w' : W} (h : Keeps P x) (hx : x w = (a, w')) (hw : P w) : P w' := by
  have hkept := h w hw
  rwa [hx] at hkept

theorem pure (a : α) : Keeps P (Pure.pure a : StateM W α) := fun _ hw => hw

theorem bind {f : α → StateM W β} (hx : Keeps P x) (hf : ∀ a, Keeps P (f a)) :
    Keeps P (x >>= f) := by
  intro w hw
  exact hf _ _ (hx w hw)

end Keeps

/-! ### Calendars -/

structure CalendarService.Keeps (P : W → Prop) (calendar : CalendarService (StateM W)) : Prop where
  list : Datebook.Keeps P calendar.list
  add : ∀ d, Datebook.Keeps P (calendar.add d)
  update : ∀ id d, Datebook.Keeps P (calendar.update id d)
  delete : ∀ id, Datebook.Keeps P (calendar.delete id)

variable {P : W → Prop} {calendar : CalendarService (StateM W)}

theorem CalendarService.Keeps.ofCommand (h : calendar.Keeps P) (c : Command) :
    Datebook.Keeps P (Resolution.ofCommand calendar c) := by
  -- the definition looks at the call's text; without it there is one call at most
  rw [Resolution.ofCommand_eq]
  cases c.scheduleId?.bind targetOrdinal? with
  | none => exact .pure _
  | some no => exact h.list.bind fun _ => .pure _

theorem CalendarService.Keeps.run (h : calendar.Keeps P) (today : Date) (c : Command) :
    Datebook.Keeps P (Execution.run calendar today c) := by
  rw [Execution.run_eq]
  cases Execution.call today c with
  | error failure => exact .pure _
  | ok call =>
    cases call with
    | add d => exact (h.add d).bind fun _ => .pure _
    | update id d => exact (h.update id d).bind fun _ => .pure _
    | delete id => exact (h.delete id).bind fun _ => .pure _
    | list => exact h.list.bind fun _ => .pure _

/-! ### Services -/

/-- No call breaks the property of transcript and world; of the changes to the
    transcript, an entry comes together with a stamp. -/
structure Services.Keeps (P : Transcript → W → Prop) (services : Services (StateM W)) : Prop where
  complete : ∀ t instructions history user,
    Datebook.Keeps (P t) (services.model.complete instructions history user)
  calendar : ∀ t, services.calendar.Keeps (P t)
  today : ∀ t, Datebook.Keeps (P t) services.today
  append : ∀ t intent speaker message w, P t w →
    P (t.append (services.stamp w).1 intent speaker message) (services.stamp w).2
  replaceLast : ∀ t id message w, P t w → P (t.replaceLast id message) w

/-- Any services keep the times in order. -/
theorem Services.keeps_inOrder (services : Services (StateM W)) :
    services.Keeps fun t _ => t.InOrder where
  complete _ _ _ _ _ h := h
  calendar _ := ⟨fun _ h => h, fun _ _ h => h, fun _ _ _ h => h, fun _ _ h => h⟩
  today _ _ h := h
  append _ intent speaker message _ h := h.append _ intent speaker message
  replaceLast _ id message _ h := h.replaceLast id message

/-- The list of the ids handed out so far: a stamp adds its own at the end, and no
    other call adds any. -/
structure Services.Issues (services : Services (StateM W)) (issued : W → List Uuid) : Prop where
  complete : ∀ instructions history user w,
    issued (services.model.complete instructions history user w).2 = issued w
  list : ∀ w, issued (services.calendar.list w).2 = issued w
  add : ∀ d w, issued (services.calendar.add d w).2 = issued w
  update : ∀ id d w, issued (services.calendar.update id d w).2 = issued w
  delete : ∀ id w, issued (services.calendar.delete id w).2 = issued w
  today : ∀ w, issued (services.today w).2 = issued w
  stamp : ∀ w, issued (services.stamp w).2 = issued w ++ [(services.stamp w).1.id]

/-- The ids of the entries are the ones that were handed out, in this order. -/
theorem Services.Issues.keeps {services : Services (StateM W)} {issued : W → List Uuid}
    (h : services.Issues issued) (before : List Uuid) :
    services.Keeps fun t w => issued w = before ++ t.entries.map Entry.id where
  complete _ instructions history user w hw := (h.complete instructions history user w).trans hw
  calendar _ :=
    ⟨fun w hw => (h.list w).trans hw, fun d w hw => (h.add d w).trans hw,
      fun id d w hw => (h.update id d w).trans hw, fun id w hw => (h.delete id w).trans hw⟩
  today _ w hw := (h.today w).trans hw
  append t intent speaker message w hw := by
    rw [h.stamp, hw, Transcript.append, Transcript.entries_push, List.map_append,
      List.map_singleton, Transcript.id_clamp, List.append_assoc]
  replaceLast t id message w hw := by
    rw [hw, Transcript.map_replaceLast fun _ _ => rfl]

/-! ### Turns -/

namespace Session

variable {P : Transcript → W → Prop} {services : Services (StateM W)} {s s₁ s₂ s' : Session}
  {question : String} {intent : IntentCode} {w w₁ w₂ w' : W}

theorem keeps_said (hP : services.Keeps P) {stamp : Stamp}
    (hstamp : services.stamp w = (stamp, w')) (hw : P s.transcript w) (intent : IntentCode)
    (speaker : Speaker) (message : String) :
    P (s.said stamp intent speaker message).transcript w' := by
  have hkept := hP.append _ intent speaker message w hw
  rw [hstamp] at hkept
  exact hkept

theorem Heard.keeps (h : Heard services s question w intent s₁ w₁) (hP : services.Keeps P)
    (hw : P s.transcript w) : P s₁.transcript w₁ := by
  cases h with
  | mk hintent hstamp =>
    have hasked := (hP.complete _ _ _ _).of_eq hintent hw
    exact keeps_said hP hstamp hasked _ _ _

theorem Replied.keeps {reply : String} {id : Uuid}
    (h : Replied services s question w intent reply id s₂ w₂) (hP : services.Keeps P)
    (hw : P s.transcript w) : P s₂.transcript w₂ := by
  cases h with
  | mk hheard hask hreply hstamp =>
    have hasked := (hP.complete _ _ _ _).of_eq hreply (hheard.keeps hP hw)
    exact keeps_said hP hstamp hasked _ _ _

theorem keeps_noteExecuted (hP : services.Keeps P) (hw : P s.transcript w) (id : Uuid)
    (reply : String) (command : Command) (outcome : Outcome) :
    P (s.noteExecuted id reply command outcome).transcript w := by
  change P (if command.render = reply then s.transcript
    else s.transcript.replaceLast id command.render) w
  split
  · exact hw
  · exact hP.replaceLast _ _ _ _ hw

/-- **What every call keeps, a turn keeps**, on whichever course it is. -/
theorem Takes.keeps {course : Course} (h : Takes services s question w course s' w')
    (hP : services.Keeps P) (hw : P s.transcript w) : P s'.transcript w' := by
  cases h with
  | unclassified hintent hstamp =>
    have hasked := (hP.complete _ _ _ _).of_eq hintent hw
    exact keeps_said hP hstamp hasked _ _ _
  | unlisted hheard hshow hlist => exact (hP.calendar _).list.of_eq hlist (hheard.keeps hP hw)
  | @listed _ l _ s₁ _ w₂ _ hheard hshow hlist hstamp =>
    have hlisted := (hP.calendar _).list.of_eq hlist (hheard.keeps hP hw)
    exact keeps_said (s := { s₁ with lastListing := l }) hP hstamp hlisted _ _ _
  | unanswered hheard hask hreply =>
    exact (hP.complete _ _ _ _).of_eq hreply (hheard.keeps hP hw)
  | words hreplied => exact hreplied.keeps hP hw
  | unresolved hreplied hcommand hresolve =>
    exact ((hP.calendar _).ofCommand _).of_eq hresolve (hreplied.keeps hP hw)
  | refused hreplied hcommand hresolve htoday hrun =>
    have hresolved := ((hP.calendar _).ofCommand _).of_eq hresolve (hreplied.keeps hP hw)
    have hdated := (hP.today _).of_eq htoday hresolved
    exact ((hP.calendar _).run _ _).of_eq hrun hdated
  | executed hreplied hcommand hresolve htoday hrun =>
    -- the reply gives way to the command's text behind all calls
    have hresolved := ((hP.calendar _).ofCommand _).of_eq hresolve (hreplied.keeps hP hw)
    have hdated := (hP.today _).of_eq htoday hresolved
    exact keeps_noteExecuted hP (((hP.calendar _).run _ _).of_eq hrun hdated) _ _ _ _

end Session

end Datebook
