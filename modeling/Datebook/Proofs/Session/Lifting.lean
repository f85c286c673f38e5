/-
  Datebook/Proofs/Session/Lifting.lean
  ====================================
  **A turn does not know how large the world is.**

  The services of a session work in some monad, and the same services can be had in a
  larger one, where more can happen than they know of.  Carrying them over call by call,
  or carrying over a whole turn that was made with them, comes to the same (`send_lift`),
  as long as carrying over keeps the order in which calls follow one another (`Carries`).

  So what a turn, or a run of turns, does in a world of its own says what it does in a
  world that has files as well.
-/
import Datebook.Calendar.Memory
import Datebook.Proofs.Execution
import Datebook.Proofs.Resolution
import Datebook.Session.Basic

namespace Datebook

variable {m n : Type → Type} [Monad m] [Monad n]

variable (m n) in
/-- Carrying over keeps what follows what. -/
structure Carries (run : {α : Type} → m α → n α) : Prop where
  pure {α : Type} (a : α) : run (Pure.pure a : m α) = Pure.pure a
  bind {α β : Type} (x : m α) (f : α → m β) : run (x >>= f) = run x >>= fun a => run (f a)

def LanguageModel.lift (run : {α : Type} → m α → n α) (model : LanguageModel m) :
    LanguageModel n where
  complete := fun instructions history user => run (model.complete instructions history user)

/-- Services that work in `m`, as services that work in `n`. -/
def Services.lift (run : {α : Type} → m α → n α) (services : Services m) : Services n where
  model := services.model.lift run
  calendar := services.calendar.lift run
  stamp := run services.stamp
  today := run services.today

namespace Carries

variable {run : {α : Type} → m α → n α} (h : Carries m n run)

include h

theorem bind_eq {α β : Type} {x : m α} {x' : n α} {f : α → m β} {f' : α → n β} (hx : run x = x')
    (hf : ∀ a, run (f a) = f' a) : run (x >>= f) = x' >>= f' := by
  rw [h.bind, hx]
  exact congrArg (x' >>= ·) (funext hf)

/-! ### The calls of a turn -/

theorem classify (model : LanguageModel m) (prior : List ChatMessage) (question : String) :
    run (classify model prior question) = Datebook.classify (model.lift run) prior question := by
  refine h.bind_eq rfl fun answer => ?_
  cases answer <;> exact h.pure _

theorem ofCommand [LawfulMonad m] [LawfulMonad n] (calendar : CalendarService m) (c : Command) :
    run (Resolution.ofCommand calendar c) = Resolution.ofCommand (calendar.lift run) c := by
  rw [Resolution.ofCommand_eq, Resolution.ofCommand_eq]
  cases c.scheduleId?.bind targetOrdinal? with
  | none => exact h.pure _
  | some no => exact h.bind_eq rfl fun _ => h.pure _

theorem execution (calendar : CalendarService m) (today : Date) (c : Command) :
    run (Execution.run calendar today c) = Execution.run (calendar.lift run) today c := by
  rw [Execution.run_eq, Execution.run_eq]
  cases Execution.call today c with
  | error failure => exact h.pure _
  | ok call => cases call <;> exact h.bind_eq rfl fun _ => h.pure _

/-! ### Turns -/

variable (services : Services m)

theorem record (s : Session) (intent : IntentCode) (speaker : Speaker) (message : String) :
    run (s.record services intent speaker message) =
      s.record (services.lift run) intent speaker message :=
  h.bind_eq rfl fun _ => h.pure _

theorem showCalendar (s : Session) (intent : IntentCode) :
    run (s.showCalendar services intent) = s.showCalendar (services.lift run) intent := by
  refine h.bind_eq rfl fun answer => ?_
  cases answer with
  | error failure => exact h.pure _
  | ok l => exact h.bind_eq (h.record services _ _ _ _) fun _ => h.pure _

theorem perform [LawfulMonad m] [LawfulMonad n] (s : Session) (replyId : Uuid) (reply : String)
    (command : Command) :
    run (s.perform services replyId reply command) =
      s.perform (services.lift run) replyId reply command := by
  refine h.bind_eq (h.ofCommand services.calendar command) fun answer => ?_
  cases answer with
  | error failure => exact h.pure _
  | ok resolution =>
    refine h.bind_eq rfl fun today => h.bind_eq (h.execution services.calendar _ _) fun answer => ?_
    cases answer <;> exact h.pure _

theorem askForCommand [LawfulMonad m] [LawfulMonad n] (s : Session) (intent : IntentCode)
    (prior : List ChatMessage) (question : String) :
    run (s.askForCommand services intent prior question) =
      s.askForCommand (services.lift run) intent prior question := by
  refine h.bind_eq rfl fun answer => ?_
  cases answer with
  | error failure => exact h.pure _
  | ok reply =>
    refine h.bind_eq (h.record services _ _ _ _) fun recorded => ?_
    dsimp only
    cases Session.commandOf? reply with
    | none => exact h.pure _
    | some command => exact h.perform services _ _ _ _

theorem handle [LawfulMonad m] [LawfulMonad n] (s : Session) (question : String) :
    run (s.handle services question) = s.handle (services.lift run) question := by
  refine h.bind_eq (h.classify services.model _ _) fun answer => ?_
  cases answer with
  | error failure => exact h.bind_eq (h.record services _ _ _ _) fun _ => h.pure _
  | ok intent =>
    refine h.bind_eq (h.record services _ _ _ _) fun recorded => ?_
    dsimp only
    cases (Strategy.ofCode intent).asksForCommand with
    | true => exact h.askForCommand services _ _ _ _
    | false => exact h.showCalendar services _ _

theorem send [LawfulMonad m] [LawfulMonad n] (s : Session) (question : String) :
    run (s.send services question) = s.send (services.lift run) question :=
  h.bind_eq (h.handle services s question) fun _ => h.pure _

end Carries

end Datebook
