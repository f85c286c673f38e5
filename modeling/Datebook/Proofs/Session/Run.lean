/-
  Datebook/Proofs/Session/Run.lean
  ================================
  **Runs of a session**: turns, and what happens around them, one after another.

  A `Scene` is a session on its stage.  Each turn brings the script that the model
  follows during it, so a run is a list of steps and nothing else; what is left
  of a script is never used again.  Between turns the user may start over, the
  calendar may fail or come back, other people may change it, and a day may go by.

  A property that every step of a run keeps holds at its end (`run_invariant`).
-/
import Datebook.Proofs.Session.Stage

namespace Datebook

/-- A session and the stage it is on. -/
structure Scene where
  session : Session
  stage : Stage

namespace Scene

/-- The stored events. -/
def events (σ : Scene) : List Event := σ.stage.memory.events

/-! ### Steps -/

/-- One turn, in which the model follows a script. -/
def send (σ : Scene) (question : String) (replies : List (Except Failure String)) :
    Except Failure String × Scene :=
  let ((answer, session), stage) := σ.session.send Stage.services question { σ.stage with replies }
  (answer, ⟨session, stage⟩)

inductive Step where
  | say (question : String) (replies : List (Except Failure String))
  | clear
  | setAvailable (available : Bool)
  /-- Others have changed the calendar into this one. -/
  | interfere (memory : MemoryCalendar)
  | dawn (today : Date)

def next (σ : Scene) : Step → Scene
  | .say question replies => (σ.send question replies).2
  | .clear => { σ with session := σ.session.clear }
  | .setAvailable available =>
    { σ with stage := { σ.stage with memory := σ.stage.memory.setAvailable available } }
  | .interfere memory => { σ with stage := { σ.stage with memory } }
  | .dawn today => { σ with stage := { σ.stage with today } }

def run (σ : Scene) (steps : List Step) : Scene := steps.foldl next σ

@[simp] theorem run_cons (σ : Scene) (step : Step) (steps : List Step) :
    σ.run (step :: steps) = (σ.next step).run steps := rfl

theorem run_append (σ : Scene) (steps later : List Step) :
    σ.run (steps ++ later) = (σ.run steps).run later := List.foldl_append

theorem run_invariant {P : Scene → Prop} {steps : List Step}
    (hkeep : ∀ σ, ∀ step ∈ steps, P σ → P (σ.next step)) {σ : Scene} (h : P σ) :
    P (σ.run steps) := by
  induction steps generalizing σ with
  | nil => exact h
  | cons step steps ih =>
    apply ih
    · intro τ later hlater
      exact hkeep τ later (by simp [hlater])
    · exact hkeep σ step (by simp) h

/-! ### Turns -/

/-- The turn takes a course. -/
def Takes (σ : Scene) (question : String) (replies : List (Except Failure String))
    (course : Session.Course) : Prop :=
  Session.Takes Stage.services σ.session question { σ.stage with replies } course
    (σ.send question replies).2.session (σ.send question replies).2.stage

variable (σ : Scene) (question : String) (replies : List (Except Failure String))

theorem exists_takes :
    ∃ course, σ.Takes question replies course ∧ (σ.send question replies).1 = course.answer := by
  obtain ⟨course, s', stage', hsend, htakes⟩ :=
    Session.exists_takes_send Stage.services σ.session question { σ.stage with replies }
  have hnext : σ.send question replies = (course.answer, ⟨s', stage'⟩) := by
    rw [send, hsend]
  refine ⟨course, ?_, ?_⟩
  · rw [Takes, hnext]
    exact htakes
  · rw [hnext]

end Scene

end Datebook
