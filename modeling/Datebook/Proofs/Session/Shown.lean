/-
  Datebook/Proofs/Session/Shown.lean
  ==================================
  **What the user saw is what gets changed.**

  The listing that a session keeps is the one that was shown last.  As long as
  nothing changes the events, it is the listing of the events as they are
  (`upToDate_run`), and so an ordinal means the same event when it is looked up as
  it did when it was shown, whatever has been said in between.
-/
import Datebook.Proofs.Calendar.Listing
import Datebook.Proofs.Command.Recognition
import Datebook.Proofs.Session.Run

namespace Datebook.Scene

open Datebook.Text

variable {σ : Scene} {question : String} {replies : List (Except Failure String)}

/-! ### The listing shown last -/

/-- The turn has shown a listing. -/
def Shows (σ : Scene) (question : String) (replies : List (Except Failure String)) : Prop :=
  ∃ course l, σ.Takes question replies course ∧ course.listing? = some l

/-- No step changes the events. -/
def KeepsEvents : Scene → List Step → Prop
  | _, [] => True
  | σ, step :: steps => (σ.next step).events = σ.events ∧ KeepsEvents (σ.next step) steps

/-- The listing shown last is that of the events, if there is one. -/
def UpToDate (σ : Scene) : Prop :=
  σ.session.lastListing = [] ∨ σ.session.lastListing = listing σ.events

theorem listing_of_takes {course : Session.Course} {l : Listing}
    (h : σ.Takes question replies course) (hl : course.listing? = some l) :
    (σ.next (.say question replies)).session.lastListing = l ∧
      l = listing (σ.next (.say question replies)).events := by
  obtain ⟨hmemory, hlisting⟩ := Session.Takes.listing_eq h hl
  constructor
  · have hlast := Session.Takes.lastListing_eq h
    rw [hl] at hlast
    exact hlast
  · rw [hlisting]
    exact congrArg (fun m : MemoryCalendar => listing m.events) hmemory.symm

theorem shows_of_list {reply : String} (havailable : σ.stage.memory.store.available = true)
    (hlist : interpretReply reply = Intent.listSchedule.code) (question : String)
    (rest : List (Except Failure String)) : σ.Shows question (.ok reply :: rest) := by
  obtain ⟨course, htakes, _⟩ := σ.exists_takes question (.ok reply :: rest)
  have hshow := (Strategy.asksForCommand_ofCode _).mpr hlist
  rcases htakes.of_list rfl hshow with ⟨hunavailable, _⟩ | ⟨_, rfl⟩
  · rw [havailable] at hunavailable
    cases hunavailable
  · exact ⟨_, _, htakes, rfl⟩

theorem upToDate_of_shows (h : σ.Shows question replies) :
    UpToDate (σ.next (.say question replies)) := by
  obtain ⟨course, l, htakes, hl⟩ := h
  obtain ⟨hlast, hlisting⟩ := listing_of_takes htakes hl
  right
  rw [hlast, hlisting]

theorem UpToDate.next (h : UpToDate σ) {step : Step} (hkeep : (σ.next step).events = σ.events) :
    UpToDate (σ.next step) := by
  cases step with
  | say question replies =>
    obtain ⟨course, htakes, _⟩ := σ.exists_takes question replies
    cases hl : course.listing? with
    | some l => exact upToDate_of_shows ⟨course, l, htakes, hl⟩
    | none =>
      have hlast : (σ.next (.say question replies)).session.lastListing =
          σ.session.lastListing := by
        have hlast := Session.Takes.lastListing_eq htakes
        rw [hl] at hlast
        exact hlast
      rw [UpToDate, hlast, hkeep]
      exact h
  | clear =>
    left
    rfl
  | setAvailable | dawn => exact h
  | interfere memory =>
    rw [UpToDate, hkeep]
    exact h

theorem UpToDate.run {steps : List Step} (h : UpToDate σ) (hkeep : σ.KeepsEvents steps) :
    UpToDate (σ.run steps) := by
  induction steps generalizing σ with
  | nil => exact h
  | cons step steps ih => exact ih (h.next hkeep.1) hkeep.2

theorem UpToDate.exists_event (h : UpToDate σ) {i : Nat} (hi : i < σ.session.lastListing.length) :
    ∃ before e after, σ.events = before ++ e :: after ∧ before.length = i ∧
      e.id = σ.session.lastListing[i].id := by
  rcases h with h | h
  · simp [h] at hi
  · have hlength : i < σ.events.length := by
      rw [h, length_listing] at hi
      exact hi
    refine ⟨σ.events.take i, σ.events[i], σ.events.drop (i + 1), ?_, ?_, ?_⟩
    · rw [← List.drop_eq_getElem_cons hlength, List.take_append_drop]
    · rw [List.length_take, Nat.min_eq_left (Nat.le_of_lt hlength)]
    · have hentry : σ.session.lastListing[i]? = some (σ.events[i].entry i) := by
        rw [h, getElem?_listing, List.getElem?_eq_getElem hlength, Option.map_some]
      rw [List.getElem?_eq_getElem hi, Option.some.injEq] at hentry
      rw [hentry]
      rfl

/-! ### Commands by ordinal -/

/-- The turn of a command does what the resolved command does. -/
theorem send_of_effect (question : String) (rest : List (Except Failure String)) {ask : String}
    {c d : Command} {id? : Option String} {o : Outcome} {m : MemoryCalendar}
    (hask : interpretReply ask ≠ Intent.listSchedule.code)
    (havailable : σ.stage.memory.store.available = true)
    (hresolve : σ.stage.memory.resolve c = .ok ⟨d, id?⟩)
    (heffect : MemoryCalendar.Effect σ.stage.today σ.stage.memory d o m) :
    (σ.send question (.ok ask :: .ok c.render :: rest)).1 = .ok d.render ∧
      (σ.send question (.ok ask :: .ok c.render :: rest)).2.stage.memory = m := by
  have hasks : (Strategy.ofCode (interpretReply ask)).asksForCommand = true := by
    rw [← Bool.not_eq_false, Strategy.asksForCommand_ofCode]
    exact hask
  obtain ⟨course, htakes, hanswer⟩ :=
    σ.exists_takes question (.ok ask :: .ok c.render :: rest)
  rcases htakes.of_command rfl hasks (Session.commandOf?_render c) with
    ⟨cause, hcause, _⟩ | ⟨resolution, answer, hresolution, hrun, hcourse⟩
  · rw [hresolve] at hcause
    cases hcause
  · rw [hresolve, Except.ok.injEq] at hresolution
    subst hresolution
    rw [MemoryCalendar.run_of_effect havailable heffect, Prod.mk.injEq] at hrun
    obtain ⟨rfl, hmemory⟩ := hrun
    rw [hanswer, hcourse]
    exact ⟨rfl, hmemory.symm⟩

theorem details_of_normalize {today : Date} {startTime endTime : String} {t₁ t₂ : DateTime}
    (h₁ : DateTime.normalize startTime today = .ok t₁)
    (h₂ : DateTime.normalize endTime today = .ok t₂) (description : String) :
    Execution.details description startTime endTime today = .ok ⟨description, t₁, t₂⟩ := by
  rw [Execution.details, h₁, h₂]
  rfl

/-- **What the user saw is what gets changed.**  In a run that has not changed the
    events since a listing was shown, an ordinal of the listing shown last means the
    event that this listing has at the ordinal's place: removing by the ordinal
    removes this event and no other, modifying gives this event the new description and
    times under its id and changes no other, and the answer names its id. -/
theorem change_shown_event (start : Scene) (earlier later : List Step) (question : String)
    (replies : List (Except Failure String))
    (hshows : (start.run earlier).Shows question replies)
    (hkeeps : ((start.run earlier).next (.say question replies)).KeepsEvents later)
    {now : Scene} (hnow : now = start.run (earlier ++ .say question replies :: later))
    (havailable : now.stage.memory.store.available = true)
    (hids : (now.events.map (·.id)).Nodup) {i : Nat} (hi : i < now.session.lastListing.length)
    {suffix : String} (hsuffix : ∀ c ∈ suffix.toList.head?, isDigit c = false) {ask : String}
    (hask : interpretReply ask ≠ Intent.listSchedule.code) :
    ∃ before e after, now.events = before ++ e :: after ∧ before.length = i ∧
      e.id = now.session.lastListing[i].id ∧
      ∀ request rest,
        (let removal := now.send request
          (.ok ask :: .ok (Command.remove (ordinalReference i suffix)).render :: rest)
        removal.1 = .ok (Command.remove e.id).render ∧
          removal.2.events = before ++ after) ∧
        ∀ description startTime endTime t₁ t₂,
          DateTime.normalize startTime now.stage.today = .ok t₁ →
          DateTime.normalize endTime now.stage.today = .ok t₂ →
          let change := now.send request (.ok ask ::
            .ok (Command.modify (ordinalReference i suffix) description startTime endTime).render ::
            rest)
          change.1 = .ok (Command.modify e.id description startTime endTime).render ∧
            change.2.events = before ++ ⟨e.id, description, t₁.text, t₂.text⟩ :: after := by
  have huptodate : UpToDate now := by
    rw [hnow, run_append, run_cons]
    exact (upToDate_of_shows hshows).run hkeeps
  obtain ⟨before, e, after, hevents, hplace, hid⟩ := huptodate.exists_event hi
  have hentry : now.stage.memory.events[i]? = some e := by
    rw [show now.stage.memory.events = before ++ e :: after from hevents, ← hplace]
    simp
  refine ⟨before, e, after, hevents, hplace, hid, fun request rest => ⟨?_, ?_⟩⟩
  · have hresolve := MemoryCalendar.resolve_reference havailable hentry hsuffix
      (c := .remove (ordinalReference i suffix)) rfl rfl
    obtain ⟨hanswer, hmemory⟩ := send_of_effect request rest hask havailable hresolve
      (MemoryCalendar.removed_of_nodup hevents hids)
    exact ⟨hanswer, congrArg MemoryCalendar.events hmemory⟩
  · intro description startTime endTime t₁ t₂ h₁ h₂
    have hresolve := MemoryCalendar.resolve_reference havailable hentry hsuffix
      (c := .modify (ordinalReference i suffix) description startTime endTime) rfl rfl
    obtain ⟨hanswer, hmemory⟩ := send_of_effect request rest hask havailable hresolve
      (MemoryCalendar.updated_of_nodup hevents hids (details_of_normalize h₁ h₂ description))
    exact ⟨hanswer, congrArg MemoryCalendar.events hmemory⟩

/-- An event whose subject looks like a reference, meant by its own ordinal after a
    turn that failed. -/
theorem change_shown_event_tea :
    let lunch : Event := ⟨"a", "Lunch", "", ""⟩
    let start : Scene := ⟨.empty, .onNewYear [lunch, ⟨"b", "\"No.0\", (tea)", "", ""⟩] []⟩
    let now := start.run ([] ++ .say "Show me" [.ok "4"] :: [.say "Hello" []])
    let change := Command.modify (ordinalReference 1 ", please") "Tea" "YYYY-MM-DD 10:00:00"
      "YYYY-MM-DD 11:00:00"
    now.session.lastListing.length = 2 ∧
      (now.send "Cancel it" [.ok "3", .ok (Command.remove (ordinalReference 1 ", please")).render]
        ).2.events = [lunch] ∧
      (now.send "Move it" [.ok "3", .ok change.render]).1 =
        .ok (Command.modify "b" "Tea" "YYYY-MM-DD 10:00:00" "YYYY-MM-DD 11:00:00").render ∧
      (now.send "Move it" [.ok "3", .ok change.render]).2.events =
        [lunch, ⟨"b", "Tea", "2024-01-01T10:00:00", "2024-01-01T11:00:00"⟩] := by
  intro lunch start now change
  have hshows : (start.run []).Shows "Show me" [.ok "4"] := shows_of_list rfl (by decide) _ _
  have hkeeps : ((start.run []).next (.say "Show me" [.ok "4"])).KeepsEvents [.say "Hello" []] :=
    ⟨by decide +kernel, trivial⟩
  have hlength : now.session.lastListing.length = 2 := by decide +kernel
  have hi : 1 < now.session.lastListing.length := by rw [hlength]; decide
  have hsuffix : ∀ c ∈ ", please".toList.head?, isDigit c = false := by
    intro c hc
    cases hc
    decide
  have hask : interpretReply "3" ≠ Intent.listSchedule.code := by decide
  obtain ⟨before, e, after, hevents, hplace, _, hchange⟩ :=
    change_shown_event start [] [.say "Hello" []] "Show me" [.ok "4"] hshows hkeeps rfl
      (by decide +kernel) (by decide +kernel) hi hsuffix hask
  -- there is one event before the one at place 1, and none behind it
  have hstored : now.events = [lunch, ⟨"b", "\"No.0\", (tea)", "", ""⟩] := by decide +kernel
  obtain ⟨first, rfl⟩ := List.length_eq_one_iff.mp hplace
  rw [hstored] at hevents
  obtain ⟨rfl, rfl, rfl⟩ : first = lunch ∧ e = ⟨"b", "\"No.0\", (tea)", "", ""⟩ ∧ after = [] := by
    simpa [eq_comm] using hevents
  let ten : DateTime := ⟨⟨2024, 1, 1, by decide⟩, ⟨10, 0, 0, 0, by decide⟩⟩
  let eleven : DateTime := ⟨⟨2024, 1, 1, by decide⟩, ⟨11, 0, 0, 0, by decide⟩⟩
  have hten : DateTime.normalize "YYYY-MM-DD 10:00:00" now.stage.today = .ok ten := by
    have hread : Time.read? (Time.fillPlaceholder "YYYY-MM-DD 10:00:00" now.stage.today) =
        some ten := by decide +kernel
    rw [DateTime.normalize, DateTime.parse, hread]
  have heleven : DateTime.normalize "YYYY-MM-DD 11:00:00" now.stage.today = .ok eleven := by
    have hread : Time.read? (Time.fillPlaceholder "YYYY-MM-DD 11:00:00" now.stage.today) =
        some eleven := by decide +kernel
    rw [DateTime.normalize, DateTime.parse, hread]
  obtain ⟨hanswer, hchanged⟩ := (hchange "Move it" []).2 "Tea" _ _ ten eleven hten heleven
  have htimes : ten.text = "2024-01-01T10:00:00" ∧ eleven.text = "2024-01-01T11:00:00" := by
    decide +kernel
  rw [htimes.1, htimes.2] at hchanged
  exact ⟨hlength, (hchange "Cancel it" []).1.2, hanswer, hchanged⟩

end Datebook.Scene
