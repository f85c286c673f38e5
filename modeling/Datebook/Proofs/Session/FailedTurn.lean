/-
  Datebook/Proofs/Session/FailedTurn.lean
  =======================================
  **A turn that fails only adds to the transcript.**

  Five steps of a turn can fail.  Whichever it is, the calendar, the log and the
  listing shown last are afterwards what they were before, and all that is new in
  the transcript is the question and, from the resolution on, the reply of the
  model as it came.
-/
import Datebook.Proofs.Command.Recognition
import Datebook.Proofs.Session.Stage

namespace Datebook.Session

/-! ### Where a turn can fail -/

inductive Phase where
  | classification
  | listing
  | generation
  | resolution
  | execution
  deriving DecidableEq, Repr

namespace Course

/-- The phase at which the turn failed, if it did. -/
def failedAt? : Course → Option Phase
  | .unclassified _ => some .classification
  | .unlisted _ _ => some .listing
  | .unanswered _ _ => some .generation
  | .unresolved _ _ _ => some .resolution
  | .refused _ _ _ _ => some .execution
  | .listed _ _ | .words _ _ | .executed _ _ _ _ => none

theorem exists_failedAt? {course : Course} {failure : Failure}
    (h : course.answer = .error failure) : ∃ phase, course.failedAt? = some phase := by
  cases course with
  | unclassified | unlisted | unanswered | unresolved | refused => exact ⟨_, rfl⟩
  | listed | words | executed => cases h

theorem commands_of_failedAt? {course : Course} {phase : Phase}
    (h : course.failedAt? = some phase) : course.commands = [] ∧ course.listing? = none := by
  cases course with
  | unclassified | unlisted | unanswered | unresolved | refused => exact ⟨rfl, rfl⟩
  | listed | words | executed => cases h

end Course

/-! ### What a turn that fails leaves -/

variable {s s' : Session} {stage stage' : Stage} {question : String} {course : Course}
  {phase : Phase}

/-- Of the question alone, if there was no reply. -/
theorem Takes.entries_of_unanswered
    (h : Takes Stage.services s question stage course s' stage')
    (hphase : course.failedAt? = some phase)
    (hunanswered : phase ∈ [Phase.classification, .listing, .generation]) :
    ∃ e, s'.transcript.entries = s.transcript.entries ++ [e] ∧
      e.speaker = .user ∧ e.message = question := by
  obtain ⟨added, hentries, hadded⟩ := h.entries
  have hspoken : course.spoken question = [⟨.user, question⟩] := by
    cases course with
    | unclassified | unlisted | unanswered => rfl
    | unresolved | refused =>
      cases hphase
      simp at hunanswered
    | listed | words | executed => cases hphase
  rw [hspoken, List.map_singleton, List.map_eq_singleton_iff] at hadded
  obtain ⟨e, rfl, hcontent⟩ := hadded
  rw [Entry.content, Prod.mk.injEq, ChatMessage.mk.injEq] at hcontent
  exact ⟨e, hentries, hcontent.2⟩

/-- Of the question and the reply, if it is the command that failed. -/
theorem Takes.entries_of_answered
    (h : Takes Stage.services s question stage course s' stage')
    (hphase : course.failedAt? = some phase) (hanswered : phase ∈ [Phase.resolution, .execution]) :
    ∃ e e' intentReply reply rest, stage.replies = .ok intentReply :: .ok reply :: rest ∧
      s'.transcript.entries = s.transcript.entries ++ [e, e'] ∧
      (e.speaker = .user ∧ e.message = question) ∧
      e'.speaker = .assistant ∧ e'.message = reply := by
  have hreplied : ∃ intent reply id s₂ stage₂,
      Replied Stage.services s question stage intent reply id s₂ stage₂ ∧
        s'.transcript = s₂.transcript := by
    cases h with
    | unclassified | unlisted | unanswered =>
      cases hphase
      simp at hanswered
    | listed | words | executed => cases hphase
    | unresolved hreplied | refused hreplied => exact ⟨_, _, _, _, _, hreplied, rfl⟩
  obtain ⟨intent, reply, id, s₂, stage₂, hreplied, htranscript⟩ := hreplied
  obtain ⟨intentReply, hscript, _, _⟩ := hreplied.script
  obtain ⟨e, e', hentries, hcontent, hcontent', _⟩ := hreplied.entries
  rw [Entry.content, Prod.mk.injEq, ChatMessage.mk.injEq] at hcontent hcontent'
  rw [htranscript]
  exact ⟨e, e', intentReply, reply, stage₂.replies, hscript, hentries, hcontent.2, hcontent'.2⟩

/-- **A turn that fails only adds to the transcript.**  It adds the question, and
    behind it the reply if the failure came with the command. -/
theorem send_error {failure : Failure}
    (h : s.send Stage.services question stage = ((.error failure, s'), stage')) :
    stage'.memory = stage.memory ∧ s'.executed = s.executed ∧ s'.lastListing = s.lastListing ∧
      ∃ course phase, Takes Stage.services s question stage course s' stage' ∧
        course.answer = .error failure ∧ course.failedAt? = some phase ∧
        ((phase ∈ [Phase.classification, .listing, .generation] ∧
            ∃ e, s'.transcript.entries = s.transcript.entries ++ [e] ∧
              e.speaker = .user ∧ e.message = question) ∨
          (phase ∈ [Phase.resolution, .execution] ∧
            ∃ e e' intentReply reply rest, stage.replies = .ok intentReply :: .ok reply :: rest ∧
              s'.transcript.entries = s.transcript.entries ++ [e, e'] ∧
              (e.speaker = .user ∧ e.message = question) ∧
              e'.speaker = .assistant ∧ e'.message = reply)) := by
  obtain ⟨course, t, stage₁, hsend, htakes⟩ := exists_takes_send Stage.services s question stage
  rw [h, Prod.mk.injEq, Prod.mk.injEq] at hsend
  obtain ⟨⟨hanswer, rfl⟩, rfl⟩ := hsend
  obtain ⟨phase, hphase⟩ := Course.exists_failedAt? hanswer.symm
  obtain ⟨hcommands, hlisting⟩ := Course.commands_of_failedAt? hphase
  have hmemory : stage'.memory = stage.memory := by
    obtain ⟨_, ⟨_, hmemory⟩ | ⟨c, _, hc, _⟩⟩ := htakes.calendar
    · exact hmemory
    · rw [hcommands] at hc
      cases hc
  have hexecuted : s'.executed = s.executed := by
    simpa [hcommands] using htakes.executed_eq
  have hlast : s'.lastListing = s.lastListing := by
    simpa [hlisting] using htakes.lastListing_eq
  refine ⟨hmemory, hexecuted, hlast, course, phase, htakes, hanswer.symm, hphase, ?_⟩
  by_cases hanswered : phase ∈ [Phase.resolution, .execution]
  · right
    exact ⟨hanswered, htakes.entries_of_answered hphase hanswered⟩
  · left
    have hunanswered : phase ∈ [Phase.classification, .listing, .generation] := by
      cases phase <;> simp at hanswered ⊢
    exact ⟨hunanswered, htakes.entries_of_unanswered hphase hunanswered⟩

/-- Nothing has the id `x`, so it cannot be removed. -/
theorem send_error_unknown_id :
    ∃ failure s' stage',
      empty.send Stage.services "Cancel it"
          (.onNewYear [⟨"a", "Lunch", "", ""⟩] [.ok "3", .ok (Command.remove "x").render]) =
        ((.error failure, s'), stage') ∧
      stage'.memory.events = [⟨"a", "Lunch", "", ""⟩] ∧ s'.executed = [] := by
  obtain ⟨course, s', stage', hsend, htakes⟩ := exists_takes_send Stage.services empty "Cancel it"
    (.onNewYear [⟨"a", "Lunch", "", ""⟩] [.ok "3", .ok (Command.remove "x").render])
  have hfails : ∃ failure, course.answer = .error failure := by
    rcases htakes.of_command rfl (by decide) (commandOf?_render _) with
      ⟨cause, _, rfl⟩ | ⟨resolution, answer, hresolve, hrun, hanswer⟩
    · exact ⟨_, rfl⟩
    · cases hresolve
      obtain rfl : answer = .error (.calendar (.notFound "x")) := (congrArg Prod.fst hrun).symm
      exact ⟨_, hanswer⟩
  obtain ⟨failure, hfailure⟩ := hfails
  rw [hfailure] at hsend
  obtain ⟨hmemory, hexecuted, _⟩ := send_error hsend
  exact ⟨failure, s', stage', hsend, by rw [hmemory]; rfl, hexecuted⟩

end Datebook.Session
