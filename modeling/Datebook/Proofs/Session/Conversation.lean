/-
  Datebook/Proofs/Session/Conversation.lean
  =========================================
  **The transcript of a conversation.**

  A conversation is turn after turn, with whatever services: each turn is taken to
  where the one before has left the session and the world.  `Converses` follows the
  courses of the turns, and says all that can come of a conversation; its transcript
  is what was spoken on these courses, one after another (`Converses.entries`).

  A turn that was answered has spoken twice, the user and then the assistant.  So
  when all of them were, the speakers take turns from the first entry to the last.
-/
import Datebook.Proofs.Session.Invariant
import Datebook.Proofs.Session.Stage
import Mathlib.Data.List.Nodup

namespace Datebook

namespace Stage

/-- The ids of the stamps that were taken. -/
def issued (stage : Stage) : List Uuid :=
  (List.range stage.stamps.used).map fun k => (stage.stamps.item k).id

theorem issues : services.Issues issued where
  complete instructions history user stage := by
    cases hreplies : stage.replies with
    | nil =>
      rw [complete_of_no_replies hreplies]
      rfl
    | cons reply replies =>
      rw [complete_of_replies hreplies]
      rfl
  list _ := rfl
  add _ _ := rfl
  update _ _ _ := rfl
  delete _ _ := rfl
  today _ := rfl
  stamp stage := by
    change (List.range (stage.stamps.used + 1)).map _ = _
    rw [List.range_succ, List.map_append]
    rfl

end Stage

namespace Session

/-! ### Conversations -/

/-- Say one thing after another: the answers, and the session at the end. -/
def converse {m : Type → Type} [Monad m] (services : Services m) (s : Session) :
    List String → m (List (Except Failure String) × Session)
  | [] => return ([], s)
  | question :: questions => do
    let (answer, s) ← s.send services question
    let (answers, s) ← s.converse services questions
    return (answer :: answers, s)

variable {W : Type} (services : Services (StateM W))

/-- Turns one after another, each with what the user said and the course it took. -/
inductive Converses : Session → W → List (String × Course) → Session → W → Prop where
  | nil {s : Session} {w : W} : Converses s w [] s w
  | cons {s s₁ s' : Session} {w w₁ w' : W} {question : String} {course : Course}
      {turns : List (String × Course)} :
      Takes services s question w course s₁ w₁ → Converses s₁ w₁ turns s' w' →
      Converses s w ((question, course) :: turns) s' w'

/-- **Every conversation goes on such turns**, and its answers are those of the
    courses. -/
theorem exists_converses (s : Session) (questions : List String) (w : W) :
    ∃ turns s' w', s.converse services questions w =
        ((turns.map fun turn => turn.2.answer, s'), w') ∧
      turns.map Prod.fst = questions ∧ Converses services s w turns s' w' := by
  induction questions generalizing s w with
  | nil => exact ⟨[], s, w, rfl, rfl, .nil⟩
  | cons question questions ih =>
    obtain ⟨course, s₁, w₁, hsend, htakes⟩ := exists_takes_send services s question w
    obtain ⟨turns, s', w', hconverse, hquestions, hturns⟩ := ih s₁ w₁
    refine ⟨(question, course) :: turns, s', w', ?_, ?_, .cons htakes hturns⟩
    · exact (bind_apply hsend).trans (bind_apply hconverse)
    · rw [List.map_cons, hquestions]

variable {services} {s s' : Session} {w w' : W} {turns : List (String × Course)}
  {question : String} {course : Course}

theorem Converses.keeps {P : Transcript → W → Prop} (h : Converses services s w turns s' w')
    (hP : services.Keeps P) (hw : P s.transcript w) : P s'.transcript w' := by
  induction h with
  | nil => exact hw
  | cons htakes _ ih => exact ih (htakes.keeps hP hw)

/-- What was spoken in a turn stands behind what was there before. -/
theorem Takes.messages (h : Takes services s question w course s' w') :
    s'.transcript.messages = s.transcript.messages ++ course.spoken question := by
  obtain ⟨added, hentries, hcontent⟩ := h.entries
  have hadded := congrArg (List.map Prod.snd) hcontent
  rw [List.map_map, List.map_map] at hadded
  rw [Transcript.messages, hentries, List.map_append, ← Transcript.messages]
  exact congrArg (s.transcript.messages ++ ·) (hadded.trans (List.map_id _))

/-- **The transcript of a conversation grows by what was spoken**, turn by turn. -/
theorem Converses.messages (h : Converses services s w turns s' w') :
    s'.transcript.messages =
      s.transcript.messages ++ turns.flatMap fun turn => turn.2.spoken turn.1 := by
  induction h with
  | nil => exact (List.append_nil _).symm
  | cons htakes _ ih => rw [ih, htakes.messages, List.flatMap_cons, List.append_assoc]

/-! ### Turns that were answered -/

/-- What the user says, and the reply to it. -/
def exchange (question reply : String) : List ChatMessage :=
  [⟨.user, question⟩, ⟨.assistant, reply⟩]

theorem Course.spoken_of_answer {course : Course} {reply : String} (h : course.answer = .ok reply)
    (question : String) : course.spoken question = exchange question reply := by
  cases course with
  | unclassified | unlisted | unanswered | unresolved | refused => cases h
  | listed | words | executed =>
    cases h
    rfl

theorem Heard.classify_eq {intent : IntentCode} {s₁ : Session} {w₁ : W}
    (h : Heard services s question w intent s₁ w₁) :
    ∃ w₂, classify services.model s.transcript.messages question w = (.ok intent, w₂) := by
  cases h with
  | mk hintent => exact ⟨_, classify_apply hintent⟩

/-- An answer comes only of a turn whose intent was found out, and the entries of
    the turn are kept under it. -/
theorem Takes.classify_eq {reply : String} (h : Takes services s question w course s' w')
    (hanswer : course.answer = .ok reply) :
    ∃ w₁, classify services.model s.transcript.messages question w = (.ok course.intent, w₁) := by
  cases h with
  | unclassified | unlisted | unanswered | unresolved | refused => cases hanswer
  | listed hheard => exact hheard.classify_eq
  | words hreplied | executed hreplied =>
    cases hreplied with
    | mk hheard => exact hheard.classify_eq

/-- The log, and what was said last, of a turn. -/
theorem Takes.commands (h : Takes services s question w course s' w') :
    (course.commands = [] ∧ s'.executed = s.executed) ∨
      ∃ c, course.commands = [c] ∧ course.answer = .ok c.render ∧
        s'.executed = s.executed ++ [c.render] ∧
        s'.transcript.messages.getLast? = some ⟨.assistant, c.render⟩ := by
  have hexecuted := h.executed_eq
  cases course with
  | unclassified | unlisted | listed | unanswered | words | unresolved | refused =>
    left
    exact ⟨rfl, hexecuted.trans (List.append_nil _)⟩
  | executed intent reply c outcome =>
    right
    refine ⟨c, rfl, rfl, hexecuted, ?_⟩
    rw [h.messages, List.getLast?_append]
    rfl

/-- The entries of a turn that was answered. -/
theorem Takes.entries_of_answer {reply : String} (h : Takes services s question w course s' w')
    (hanswer : course.answer = .ok reply) :
    ∃ e e', s'.transcript.entries = s.transcript.entries ++ [e, e'] ∧
      e.content = (course.intent, ⟨.user, question⟩) ∧
      e'.content = (course.intent, ⟨.assistant, reply⟩) := by
  obtain ⟨added, hentries, hcontent⟩ := h.entries
  rw [Course.spoken_of_answer hanswer] at hcontent
  obtain ⟨e, rest, rfl, hquestion, hrest⟩ := List.map_eq_cons_iff.mp hcontent
  obtain ⟨e', rest', rfl, hreply, hnone⟩ := List.map_eq_cons_iff.mp hrest
  obtain rfl := List.map_eq_nil_iff.mp hnone
  exact ⟨e, e', hentries, hquestion, hreply⟩

/-! ### Conversations in which all was answered -/

theorem spoken_of_answers {replies : List String}
    (h : turns.map (fun turn => turn.2.answer) = replies.map .ok) :
    (turns.flatMap fun turn => turn.2.spoken turn.1) =
      ((turns.map Prod.fst).zip replies).flatMap fun pair => exchange pair.1 pair.2 := by
  induction turns generalizing replies with
  | nil => rfl
  | cons turn turns ih =>
    obtain ⟨reply, replies', rfl, hreply, hreplies⟩ := List.map_eq_cons_iff.mp h.symm
    rw [List.flatMap_cons, ih hreplies.symm, Course.spoken_of_answer hreply.symm]
    rfl

variable (pairs : List (String × String))

theorem length_exchanges :
    (pairs.flatMap fun pair => exchange pair.1 pair.2).length = 2 * pairs.length := by
  induction pairs with
  | nil => rfl
  | cons pair pairs ih =>
    rw [List.flatMap_cons, List.length_append, ih, List.length_cons, exchange, List.length_cons,
      List.length_singleton]
    omega

/-- The user and the assistant take turns, and the user begins. -/
theorem role_of_exchanges {i : Nat} {m : ChatMessage}
    (h : (pairs.flatMap fun pair => exchange pair.1 pair.2)[i]? = some m) :
    m.role = if i % 2 = 0 then .user else .assistant := by
  induction pairs generalizing i with
  | nil => cases h
  | cons pair pairs ih =>
    -- an exchange takes up two places, so what is left starts at an even one again
    match i with
    | 0 =>
      cases h
      rfl
    | 1 =>
      cases h
      rfl
    | i + 2 =>
      rw [Nat.add_mod_right]
      exact ih h

/-! ### The account of a transcript -/

/-- **What a transcript holds of a conversation**, with any services whatever.

    A turn, at any time, leaves the entries there are as they are.  If it is
    answered, it adds the question and the answer, both under the intent that was
    found out; if it has carried a command out, the answer, the last entry and the
    last line of the log are the text of the command.

    Over a whole conversation from a cleared session, no entry is earlier than one
    before it, and the ids of the entries are those that were handed out meanwhile;
    so they are distinct if these are.  If every turn was answered, there are two
    entries for each, and the speakers take turns. -/
theorem transcript_accounts {W : Type} (services : Services (StateM W)) :
    (∀ (s : Session) (question : String) (w : W), ∃ course s' w' added,
      s.send services question w = ((course.answer, s'), w') ∧
        Takes services s question w course s' w' ∧
        s'.transcript.entries = s.transcript.entries ++ added ∧
        (∀ reply, course.answer = .ok reply → ∃ code w₁ e e',
          classify services.model s.transcript.messages question w = (.ok code, w₁) ∧
            added = [e, e'] ∧ e.content = (code, ⟨.user, question⟩) ∧
            e'.content = (code, ⟨.assistant, reply⟩)) ∧
        ((course.commands = [] ∧ s'.executed = s.executed) ∨
          ∃ c, course.commands = [c] ∧ course.answer = .ok c.render ∧
            s'.executed = s.executed ++ [c.render] ∧
            s'.transcript.messages.getLast? = some ⟨.assistant, c.render⟩)) ∧
    ∀ (old : Session) (questions : List String) (w : W), ∃ answers s' w',
      old.clear.converse services questions w = ((answers, s'), w') ∧
        s'.transcript.InOrder ∧
        (∀ issued, services.Issues issued →
          issued w' = issued w ++ s'.transcript.entries.map Entry.id ∧
            ((issued w').Nodup → (s'.transcript.entries.map Entry.id).Nodup)) ∧
        ∀ replies, answers = replies.map .ok →
          s'.transcript.messages =
              (questions.zip replies).flatMap (fun pair => exchange pair.1 pair.2) ∧
            s'.transcript.length = 2 * questions.length ∧
            ∀ i e, s'.transcript.entries[i]? = some e →
              e.speaker = if i % 2 = 0 then .user else .assistant := by
  constructor
  · intro s question w
    obtain ⟨course, s', w', hsend, htakes⟩ := exists_takes_send services s question w
    obtain ⟨added, hentries, _⟩ := htakes.entries
    refine ⟨course, s', w', added, hsend, htakes, hentries, ?_, htakes.commands⟩
    intro reply hanswer
    obtain ⟨w₁, hclassify⟩ := htakes.classify_eq hanswer
    obtain ⟨e, e', hentries', hquestion, hreply⟩ := htakes.entries_of_answer hanswer
    rw [hentries, List.append_cancel_left_eq] at hentries'
    exact ⟨_, w₁, e, e', hclassify, hentries', hquestion, hreply⟩
  · intro old questions w
    obtain ⟨turns, s', w', hconverse, rfl, hturns⟩ :=
      exists_converses services old.clear questions w
    refine ⟨_, s', w', hconverse, ?_, ?_, ?_⟩
    · exact hturns.keeps services.keeps_inOrder Transcript.inOrder_empty
    · intro issued hissued
      -- the transcript starts empty, so at first nothing has been handed out for it
      have hids := hturns.keeps (hissued.keeps (issued w)) (List.append_nil _).symm
      refine ⟨hids, fun hnodup => ?_⟩
      rw [hids] at hnodup
      exact (List.nodup_append.mp hnodup).2.1
    · intro replies hanswers
      have hmessages := hturns.messages.trans (spoken_of_answers hanswers)
      have hreplies : replies.length = turns.length := by
        simpa using (congrArg List.length hanswers).symm
      refine ⟨hmessages, ?_, ?_⟩
      · have hlength := congrArg List.length hmessages
        rw [length_exchanges, List.length_zip, hreplies, List.length_map, Nat.min_self,
          Transcript.messages, List.length_map] at hlength
        rw [List.length_map]
        exact hlength
      · intro i e he
        have hmessage : s'.transcript.messages[i]? = some ⟨e.speaker, e.message⟩ := by
          rw [Transcript.messages, List.getElem?_map, he]
          rfl
        rw [hmessages] at hmessage
        exact role_of_exchanges _ hmessage

/-- The one event of the calendar is removed by its ordinal, from between backticks;
    with a clock that goes back after the first entry, the same after the calendar
    has been listed. -/
theorem transcript_accounts_backward_clock :
    let removal := "remove_outlook_schedule(\"a\")"
    let newYear := Stage.onNewYear [⟨"a", "Lunch", "", ""⟩]
      [.ok "3", .ok "`remove_outlook_schedule('No.0')`"]
    let clock : Supply Stamp :=
      ⟨fun k => ⟨.random k, ⟨⟨⟨if k = 0 then 2025 else 2024, 1, 1, by split <;> decide⟩,
        ⟨0, 0, 0, 0, by decide⟩⟩⟩⟩, 0⟩
    let stage : Stage := { newYear with stamps := clock, replies := .ok "4" :: newYear.replies }
    (∃ s' stage' e e',
      empty.send Stage.services "Cancel lunch" newYear = ((.ok removal, s'), stage') ∧
        s'.transcript.entries = [e, e'] ∧ e.content = (3, ⟨.user, "Cancel lunch"⟩) ∧
        e'.content = (3, ⟨.assistant, removal⟩)) ∧
    ∃ s' stage',
      empty.converse Stage.services ["My calendar", "Cancel lunch"] stage =
          (([.ok "No.0 Lunch -\n", .ok removal], s'), stage') ∧
        s'.transcript.InOrder ∧ (s'.transcript.entries.map Entry.id).Nodup ∧
        s'.transcript.messages =
          exchange "My calendar" "No.0 Lunch -\n" ++ exchange "Cancel lunch" removal ∧
        s'.transcript.length = 4 := by
  intro removal newYear clock stage
  obtain ⟨hturn, hrun⟩ := transcript_accounts Stage.services
  constructor
  · obtain ⟨course, s', stage', added, hsend, _, hentries, hanswered, _⟩ :=
      hturn empty "Cancel lunch" newYear
    have hanswer : course.answer = .ok removal := by
      have hanswer : _ = course.answer := congrArg (fun turn => turn.1.1) hsend
      rw [← hanswer]
      decide +kernel
    obtain ⟨code, _, e, e', hclassify, rfl, hquestion, hreply⟩ := hanswered removal hanswer
    obtain rfl : interpretReply "3" = code := Except.ok.inj (congrArg Prod.fst hclassify)
    have hthree : interpretReply "3" = 3 := by decide
    rw [hthree] at hquestion hreply
    rw [hanswer] at hsend
    exact ⟨s', stage', e, e', hsend, hentries, hquestion, hreply⟩
  · obtain ⟨answers, s', stage', hconverse, horder, hids, hanswered⟩ :=
      hrun empty ["My calendar", "Cancel lunch"] stage
    have hanswers : answers = ["No.0 Lunch -\n", removal].map .ok := by
      have hanswers : _ = answers := congrArg (fun result => result.1.1) hconverse
      rw [← hanswers]
      decide +kernel
    have hissued : (Stage.issued stage').Nodup := by
      have hend : _ = stage' := congrArg Prod.snd hconverse
      rw [← hend]
      decide +kernel
    obtain ⟨hmessages, hlength, _⟩ := hanswered _ hanswers
    rw [hanswers] at hconverse
    exact ⟨s', stage', hconverse, horder, (hids _ Stage.issues).2 hissued, hmessages, hlength⟩

end Session

end Datebook
