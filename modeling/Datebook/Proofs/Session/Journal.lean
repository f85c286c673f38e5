/-
  Datebook/Proofs/Session/Journal.lean
  ====================================
  **The log of a session is a journal of its calendar.**

  A calendar that is changed by nobody else is, at the end of a run, what the
  logged commands make of the calendar at its start.  They are read back from
  their texts and carried out as they stand, without looking any reference up;
  none of them fails, provided that the calendar is available.

  The run itself may find the calendar unavailable at times.  Then nothing
  happens and nothing is logged, so the replay is not held up.
-/
import Datebook.Proofs.Command.RoundTrip
import Datebook.Proofs.Session.Run

namespace Datebook

namespace MemoryCalendar

/-! ### Replaying commands -/

/-- Carry commands out one after another, up to the first that fails. -/
def replay (today : Date) : List Command → MemoryCalendar → Except Failure MemoryCalendar
  | [], m => .ok m
  | c :: cs, m =>
    match Execution.run service today c m with
    | (.ok _, m) => replay today cs m
    | (.error failure, _) => .error failure

variable {today : Date} {m m' : MemoryCalendar}

theorem replay_cons_of_run {c : Command} {o : Outcome}
    (h : Execution.run service today c m = (.ok o, m')) (cs : List Command) :
    replay today (c :: cs) m = replay today cs m' := by
  rw [replay, h]

theorem replay_append {cs : List Command} (h : replay today cs m = .ok m') (ds : List Command) :
    replay today (cs ++ ds) m = replay today ds m' := by
  induction cs generalizing m with
  | nil =>
    cases h
    rfl
  | cons c cs ih =>
    rcases hrun : Execution.run service today c m with ⟨failure | o, m₁⟩
    · rw [replay, hrun] at h
      cases h
    · rw [replay_cons_of_run hrun] at h
      rw [List.cons_append, replay_cons_of_run hrun]
      exact ih h

end MemoryCalendar

namespace Scene

open MemoryCalendar

/-! ### The journal of a run -/

/-- The step is one that the session itself takes, or the calendar failing or
    coming back. -/
def Step.IsUndisturbed : Step → Prop
  | .say _ _ | .setAvailable _ => True
  | .clear | .interfere _ | .dawn _ => False

/-- The commands lead from one calendar to the other, both taken as available. -/
structure Journal (start σ : Scene) (cs : List Command) : Prop where
  executed : σ.session.executed = start.session.executed ++ cs.map Command.render
  replayed : replay start.stage.today cs (start.stage.memory.setAvailable true) =
    .ok (σ.stage.memory.setAvailable true)
  today : σ.stage.today = start.stage.today

theorem journal_self (σ : Scene) : Journal σ σ [] := ⟨by simp, rfl, rfl⟩

variable {start σ : Scene} {cs : List Command}

/-- A turn continues the journal by the commands that it carried out. -/
theorem Journal.say (h : Journal start σ cs) {question : String}
    {replies : List (Except Failure String)} {course : Session.Course}
    (htakes : σ.Takes question replies course) :
    Journal start (σ.next (.say question replies)) (cs ++ course.commands) := by
  have hexecuted := htakes.executed_eq
  obtain ⟨htoday, hcalendar⟩ := htakes.calendar
  refine ⟨?_, ?_, htoday.trans h.today⟩
  · rw [List.map_append, ← List.append_assoc, ← h.executed]
    exact hexecuted
  rw [replay_append h.replayed]
  rcases hcalendar with ⟨hnone, hmemory⟩ | ⟨c, o, hone, hrun⟩
  · rw [hnone, replay]
    exact congrArg (fun m : MemoryCalendar => Except.ok (m.setAvailable true)) hmemory.symm
  · obtain ⟨_, heffect⟩ := effect_of_run_eq_ok hrun
    have hreplayed := run_of_effect rfl (heffect.setAvailable true)
    rw [h.today] at hreplayed
    rw [hone, replay_cons_of_run hreplayed]
    rfl

theorem Journal.setAvailable (h : Journal start σ cs) (available : Bool) :
    Journal start (σ.next (.setAvailable available)) cs :=
  ⟨h.executed, h.replayed, h.today⟩

theorem exists_journal (start : Scene) {steps : List Step}
    (hsteps : ∀ step ∈ steps, step.IsUndisturbed) :
    ∃ cs, Journal start (start.run steps) cs := by
  apply run_invariant (P := fun σ => ∃ cs, Journal start σ cs)
  · intro σ step hstep hjournal
    obtain ⟨cs, hjournal⟩ := hjournal
    cases step with
    | say question replies =>
      obtain ⟨course, htakes, _⟩ := σ.exists_takes question replies
      exact ⟨_, hjournal.say htakes⟩
    | setAvailable available => exact ⟨cs, hjournal.setAvailable available⟩
    | clear | interfere | dawn => exact absurd (hsteps _ hstep) id
  · exact ⟨[], journal_self start⟩

/-- **The log is a journal.**  Whatever was said in a run, and whatever the model
    made of it: the texts that were logged are all read as commands, and carrying
    these out on a copy of the calendar, kept available, succeeds from the first to
    the last and ends with the events that the run has ended with. -/
theorem replay_executed (start : Scene) (steps : List Step)
    (hsteps : ∀ step ∈ steps, step.IsUndisturbed) :
    ∃ texts cs copy, (start.run steps).session.executed = start.session.executed ++ texts ∧
      texts.map Command.read = cs.map .ok ∧
      replay start.stage.today cs (start.stage.memory.setAvailable true) = .ok copy ∧
      copy.events = (start.run steps).events := by
  obtain ⟨cs, hjournal⟩ := exists_journal start hsteps
  refine ⟨cs.map Command.render, cs, _, hjournal.executed, ?_, hjournal.replayed, rfl⟩
  rw [List.map_map]
  apply List.map_congr_left
  intro c _
  rw [Function.comp_apply, Command.read_render]

/-- Two events; the second is removed by its ordinal, and while the calendar is
    unavailable the first is not. -/
theorem replay_executed_outage :
    let start : Scene := ⟨.empty, .onNewYear [⟨"a", "Lunch", "", ""⟩, ⟨"b", "Tea", "", ""⟩] []⟩
    let steps : List Step :=
      [.say "Cancel tea" [.ok "3", .ok "remove_outlook_schedule('No.1')"], .setAvailable false,
        .say "Cancel lunch" [.ok "3", .ok "remove_outlook_schedule('No.0')"]]
    (start.run steps).session.executed = ["remove_outlook_schedule(\"b\")"] ∧
    (start.run steps).events = [⟨"a", "Lunch", "", ""⟩] ∧
    ∃ texts cs copy, (start.run steps).session.executed = start.session.executed ++ texts ∧
      texts.map Command.read = cs.map .ok ∧
      replay start.stage.today cs (start.stage.memory.setAvailable true) = .ok copy ∧
      copy.events = (start.run steps).events := by
  intro start steps
  refine ⟨by decide +kernel, by decide +kernel, replay_executed start steps ?_⟩
  simp [steps, Step.IsUndisturbed]

end Scene

end Datebook
