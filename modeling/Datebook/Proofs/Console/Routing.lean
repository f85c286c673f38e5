/-
  Datebook/Proofs/Console/Routing.lean
  ====================================
  **Where the lines on the console go.**

  The lines are taken without the white space at their ends, up to the first that asks to
  quit (`linesRead`), and each is for the console or for the session: `act?` says what it
  asks the session for.  What comes of the lines is what comes of these acts, one after
  the other, as if there were no console (`converse_eq_answers`).  So lines that ask the
  session for nothing can be left out.

  Files are beside the world of the services (`Desk.beside`): a save changes the one and
  the model, the calendar and the clock the other.

  Which lines ask to save is a question of its own.  One would expect those whose first
  word is `/save`; taken are those that start with these five characters, wherever the
  word ends.  The two agree on all lines but those where the word goes on, and of these
  the session never hears.
-/
import Datebook.Console.Basic
import Datebook.Proofs.Session.Asking
import Datebook.Proofs.Session.Lifting
import Datebook.Proofs.Text.Replacement

namespace Datebook

open Datebook.Text

/-! ### What acts come to -/

/-- Do one thing after another: all answers, and the session at the end. -/
def Session.answers {m : Type → Type} [Monad m] (services : Services m) (s : Session) :
    List Act → m (List (Except Failure String) × Session)
  | [] => return ([], s)
  | .say question :: acts => do
    let (answer, s) ← s.send services question
    let (answers, s) ← s.answers services acts
    return (answer :: answers, s)
  | .clear :: acts => s.clear.answers services acts

namespace Console

open Session (Act)

/-! ### What a line asks for -/

/-- The text up to the first white space. -/
def firstWord (text : String) : String :=
  String.ofList (text.toList.takeWhile fun c => !isBlank c)

/-- The first word is the one that asks to save. -/
def savesByWord (text : String) : Bool := firstWord text == "/save"

/-- The text starts with the letters of that word. -/
def savesByLead (text : String) : Bool := "/save".toList.isPrefixOf text.toList

/-- What a line asks the session for, if `saves` tells the lines that ask to save. -/
def act? (saves : String → Bool) (text : String) : Option Act :=
  if text = "/clear" then some .clear
  else if text = "" ∨ text = "/history" ∨ text = "/odsl" ∨ saves text then none
  else some (.say text)

def asksToQuit (text : String) : Bool := text == "quit" || text == "q"

/-- The lines before the first that asks to quit, without the white space at their ends. -/
def linesRead (inputs : List String) : List String :=
  (inputs.map trimText).takeWhile fun text => !asksToQuit text

/-- What the lines ask the session for. -/
def acts (saves : String → Bool) (inputs : List String) : List Act :=
  (linesRead inputs).filterMap (act? saves)

theorem linesRead_of_asksToQuit {input : String} (h : asksToQuit (trimText input) = true)
    (inputs : List String) : linesRead (input :: inputs) = [] := by
  simp [linesRead, h]

theorem linesRead_cons {input : String} (h : asksToQuit (trimText input) = false)
    (inputs : List String) : linesRead (input :: inputs) = trimText input :: linesRead inputs := by
  simp [linesRead, h]

theorem acts_of_asksToQuit {input : String} (h : asksToQuit (trimText input) = true)
    (saves : String → Bool) (inputs : List String) : acts saves (input :: inputs) = [] := by
  rw [acts, linesRead_of_asksToQuit h, List.filterMap_nil]

theorem acts_cons {input : String} (h : asksToQuit (trimText input) = false)
    (saves : String → Bool) (inputs : List String) :
    acts saves (input :: inputs) = (act? saves (trimText input)).toList ++ acts saves inputs := by
  rw [acts, linesRead_cons h, List.filterMap_cons, acts]
  cases act? saves (trimText input) <;> rfl

/-- The act that a line is. -/
def Line.act? : Line → Option Act
  | .clear => some .clear
  | .message text => some (.say text)
  | .blank | .quit | .history | .journal | .save _ => none

theorem Line.eq_clear_of_act? {line : Line} (h : line.act? = some .clear) : line = .clear := by
  cases line <;> cases h
  rfl

theorem Line.eq_message_of_act? {line : Line} {text : String} (h : line.act? = some (.say text)) :
    line = .message text := by
  cases line <;> cases h
  rfl

theorem eq_of_act?_eq_say {saves : String → Bool} {text question : String}
    (h : act? saves text = some (.say question)) : question = text := by
  rw [act?] at h
  split_ifs at h <;> cases h
  rfl

theorem afterLead?_eq_none_iff (text : String) :
    afterLead? "/save" text = none ↔ savesByLead text = false := by
  rw [afterLead?, Option.map_eq_none_iff, ← Option.not_isSome_iff_eq_none, isSome_dropLead?_iff,
    savesByLead, ← List.isPrefixOf_iff_prefix, Bool.not_eq_true]

/-- A text that does not ask to quit is the line that does what it asks for. -/
theorem act?_ofTrimmed {text : String} (h : asksToQuit text = false) :
    (Line.ofTrimmed text).act? = act? savesByLead text := by
  simp only [asksToQuit, Bool.or_eq_false_iff, beq_eq_false_iff_ne] at h
  rw [Line.ofTrimmed, act?]
  by_cases hblank : text = ""
  · simp [hblank, Line.act?]
  by_cases hclear : text = "/clear"
  · simp [hclear, Line.act?]
  by_cases hhistory : text = "/history"
  · simp [hhistory, Line.act?]
  by_cases hjournal : text = "/odsl"
  · simp [hjournal, Line.act?]
  simp only [hblank, h, hclear, hhistory, hjournal, or_self, false_or, if_false]
  cases hrest : afterLead? "/save" text with
  | none =>
    rw [(afterLead?_eq_none_iff text).mp hrest]
    rfl
  | some rest =>
    have hsaves : savesByLead text = true := by
      rw [← Bool.not_eq_false, ← afterLead?_eq_none_iff, hrest]
      exact Option.some_ne_none rest
    rw [hsaves]
    rfl

theorem ofTrimmed_of_asksToQuit {text : String} (h : asksToQuit text = true) :
    Line.ofTrimmed text = .quit := by
  simp only [asksToQuit, Bool.or_eq_true, beq_iff_eq] at h
  rcases h with rfl | rfl <;> rfl

theorem ofTrimmed_ne_quit {text : String} (h : asksToQuit text = false) :
    Line.ofTrimmed text ≠ .quit := by
  simp only [asksToQuit, Bool.or_eq_false_iff, beq_eq_false_iff_ne] at h
  rw [Line.ofTrimmed]
  simp only [h, or_self, if_false]
  split_ifs
  · exact Line.noConfusion
  · exact Line.noConfusion
  · exact Line.noConfusion
  · exact Line.noConfusion
  · cases afterLead? "/save" text <;> exact Line.noConfusion

/-! ### One line after the other -/

variable {V F : Type}

/-- Do something in the world of the services; the files are left alone. -/
def besideFiles {α : Type} (act : StateM V α) : StateM (V × F) α := fun (v, f) =>
  let (a, v) := act v
  (a, (v, f))

theorem carries_besideFiles : Carries (StateM V) (StateM (V × F)) besideFiles where
  pure _ := rfl
  bind _ _ := rfl

/-- Services in a world of their own, and files in another. -/
def Desk.beside (services : Services (StateM V))
    (save : String → String → StateM F (Except FileFault Unit)) : Desk (StateM (V × F)) where
  services := services.lift besideFiles
  save path text := fun (v, f) =>
    let (result, f) := save path text f
    (result, (v, f))

/-- What is shown for lines, where the session has given these answers. -/
inductive Shows : List String → List (Except Failure String) → String → Prop where
  | done : Shows [] [] prompt
  | answered {text : String} {texts : List String} {answer : Except Failure String}
      {answers : List (Except Failure String)} {rest : String} :
      act? savesByLead text = some (.say text) → Shows texts answers rest →
      Shows (text :: texts) (answer :: answers) (prompt ++ answerText answer ++ rest)
  | other {text shown : String} {texts : List String} {answers : List (Except Failure String)}
      {rest : String} :
      (∀ question, act? savesByLead text ≠ some (.say question)) → Shows texts answers rest →
      Shows (text :: texts) answers (prompt ++ shown ++ rest)

variable {services : Services (StateM V)}
  {save : String → String → StateM F (Except FileFault Unit)} {s s' : Session} {v v' : V} {f : F}

/-- A line that asks the session for nothing leaves it and the services alone. -/
theorem react_of_none (services : Services (StateM V))
    (save : String → String → StateM F (Except FileFault Unit)) (s : Session) (v : V) (f : F)
    {line : Line} (h : line.act? = none) :
    ∃ shown f', react (Desk.beside services save) s line (v, f) = ((shown, s), (v, f')) := by
  cases line with
  | clear | message => cases h
  | blank | quit | history | journal => exact ⟨_, f, rfl⟩
  | save path =>
    cases path with
    | none => exact ⟨_, f, rfl⟩
    | some path => exact ⟨_, _, rfl⟩

theorem react_clear :
    react (Desk.beside services save) s .clear (v, f) = ((clearedText, s.clear), (v, f)) := rfl

/-- A message is given to the session, once. -/
theorem react_message {text : String} {answer : Except Failure String}
    (h : s.send services text v = ((answer, s'), v')) :
    react (Desk.beside services save) s (.message text) (v, f) =
      ((answerText answer, s'), (v', f)) := by
  have hsend : s.send (Desk.beside services save).services text (v, f) = ((answer, s'), (v', f)) := by
    rw [Desk.beside, ← carries_besideFiles.send, besideFiles, h]
  exact Session.bind_apply hsend

theorem converse_cons {input : String} {inputs : List String} {shown rest : String}
    {s₁ : Session} {w w₁ w' : V × F} (hquit : asksToQuit (trimText input) = false)
    (hline : react (Desk.beside services save) s (Line.read input) w = ((shown, s₁), w₁))
    (hrest : converse (Desk.beside services save) s₁ inputs w₁ = ((rest, s'), w')) :
    converse (Desk.beside services save) s (input :: inputs) w =
      ((prompt ++ shown ++ rest, s'), w') := by
  have hread : Line.read input ≠ .quit := ofTrimmed_ne_quit hquit
  rw [converse]
  cases hcase : Line.read input with
  | quit => exact absurd hcase hread
  | blank | clear | history | journal | save | message =>
    rw [hcase] at hline
    exact (Session.bind_apply hline).trans (Session.bind_apply hrest)

/-- What comes of the lines is what comes of what they ask the session for. -/
theorem converse_eq_answers (services : Services (StateM V))
    (save : String → String → StateM F (Except FileFault Unit)) (s : Session)
    (inputs : List String) (v : V) (f : F) :
    ∃ answers s' v' shown f',
      s.answers services (acts savesByLead inputs) v = ((answers, s'), v') ∧
      converse (Desk.beside services save) s inputs (v, f) = ((shown, s'), (v', f')) ∧
      Shows (linesRead inputs) answers shown := by
  induction inputs generalizing s v f with
  | nil => exact ⟨[], s, v, prompt, f, rfl, rfl, .done⟩
  | cons input inputs ih =>
    cases hquit : asksToQuit (trimText input) with
    | true =>
      have hread : Line.read input = .quit := ofTrimmed_of_asksToQuit hquit
      rw [acts_of_asksToQuit hquit, linesRead_of_asksToQuit hquit]
      refine ⟨[], s, v, prompt, f, rfl, ?_, .done⟩
      rw [converse, hread]
      rfl
    | false =>
      have hact : (Line.read input).act? = act? savesByLead (trimText input) := act?_ofTrimmed hquit
      rw [acts_cons hquit, linesRead_cons hquit]
      cases hasks : act? savesByLead (trimText input) with
      | none =>
        obtain ⟨shown, f₁, hline⟩ := react_of_none services save s v f (hact.trans hasks)
        obtain ⟨answers, s', v', rest, f', hanswers, hrest, hshows⟩ := ih s v f₁
        exact ⟨answers, s', v', prompt ++ shown ++ rest, f', hanswers,
          converse_cons hquit hline hrest, .other (by simp [hasks]) hshows⟩
      | some act =>
        cases act with
        | clear =>
          have hread := Line.eq_clear_of_act? (hact.trans hasks)
          have hline : react (Desk.beside services save) s (Line.read input) (v, f) =
              ((clearedText, s.clear), (v, f)) := by
            rw [hread, react_clear]
          obtain ⟨answers, s', v', rest, f', hanswers, hrest, hshows⟩ := ih s.clear v f
          exact ⟨answers, s', v', prompt ++ clearedText ++ rest, f', hanswers,
            converse_cons hquit hline hrest, .other (by simp [hasks]) hshows⟩
        | say question =>
          obtain rfl := eq_of_act?_eq_say hasks
          have hread := Line.eq_message_of_act? (hact.trans hasks)
          rcases hsend : s.send services (trimText input) v with ⟨⟨answer, s₁⟩, v₁⟩
          have hline : react (Desk.beside services save) s (Line.read input) (v, f) =
              ((answerText answer, s₁), (v₁, f)) := by
            rw [hread, react_message hsend]
          obtain ⟨answers, s', v', rest, f', hanswers, hrest, hshows⟩ := ih s₁ v₁ f
          refine ⟨answer :: answers, s', v', prompt ++ answerText answer ++ rest, f', ?_,
            converse_cons hquit hline hrest, .answered hasks hshows⟩
          exact (Session.bind_apply hsend).trans (Session.bind_apply hanswers)

/-! ### Lines that can be left out, and lines that are swallowed -/

theorem savesByLead_of_savesByWord {text : String} (h : savesByWord text = true) :
    savesByLead text = true := by
  rw [savesByWord, beq_iff_eq] at h
  have hword := congrArg String.toList h
  rw [firstWord, String.toList_ofList] at hword
  rw [savesByLead, List.isPrefixOf_iff_prefix, ← hword]
  exact List.takeWhile_prefix _

theorem act?_of_agree {text : String} (h : savesByLead text = savesByWord text) :
    act? savesByLead text = act? savesByWord text := by
  rw [act?, act?, h]

theorem ne_of_savesByLead {text control : String} (hlead : savesByLead text = true)
    (hcontrol : savesByLead control = false) : text ≠ control := by
  rintro rfl
  exact Bool.false_ne_true (hcontrol.symm.trans hlead)

/-- Where the word goes on behind the lead, a message is withheld. -/
theorem act?_of_swallowed {text : String} (hlead : savesByLead text = true)
    (hword : savesByWord text = false) :
    act? savesByLead text = none ∧ act? savesByWord text = some (.say text) := by
  have hclear : text ≠ "/clear" := ne_of_savesByLead hlead (by decide)
  have hblank : text ≠ "" := ne_of_savesByLead hlead (by decide)
  have hhistory : text ≠ "/history" := ne_of_savesByLead hlead (by decide)
  have hjournal : text ≠ "/odsl" := ne_of_savesByLead hlead (by decide)
  exact ⟨by simp [act?, hclear, hlead],
    by simp [act?, hclear, hblank, hhistory, hjournal, hword]⟩

theorem agree_or_swallowed (text : String) :
    savesByLead text = savesByWord text ∨ savesByLead text = true ∧ savesByWord text = false := by
  cases hword : savesByWord text with
  | true => exact .inl (savesByLead_of_savesByWord hword)
  | false =>
    cases hlead : savesByLead text with
    | true => exact .inr ⟨rfl, rfl⟩
    | false => exact .inl rfl

theorem length_filterMap_act?_le (texts : List String) :
    (texts.filterMap (act? savesByLead)).length ≤ (texts.filterMap (act? savesByWord)).length := by
  induction texts with
  | nil => exact Nat.le_refl 0
  | cons text texts ih =>
    rcases agree_or_swallowed text with hagree | ⟨hlead, hword⟩
    · rw [List.filterMap_cons, List.filterMap_cons, act?_of_agree hagree]
      split
      · exact ih
      · exact Nat.succ_le_succ ih
    · obtain ⟨hnone, hsome⟩ := act?_of_swallowed hlead hword
      rw [List.filterMap_cons_none hnone, List.filterMap_cons_some hsome, List.length_cons]
      omega

/-- The session hears all that it should exactly if no word goes on behind the lead. -/
theorem filterMap_act?_eq_iff (texts : List String) :
    texts.filterMap (act? savesByLead) = texts.filterMap (act? savesByWord) ↔
      ∀ text ∈ texts, savesByLead text = savesByWord text := by
  constructor
  · intro h
    induction texts with
    | nil => exact fun _ htext => absurd htext List.not_mem_nil
    | cons text texts ih =>
      rcases agree_or_swallowed text with hagree | ⟨hlead, hword⟩
      · have hrest : texts.filterMap (act? savesByLead) = texts.filterMap (act? savesByWord) := by
          rw [List.filterMap_cons, List.filterMap_cons, act?_of_agree hagree] at h
          split at h
          · exact h
          · exact (List.cons.inj h).2
        intro other hother
        rcases List.mem_cons.mp hother with rfl | hother
        · exact hagree
        · exact ih hrest other hother
      · obtain ⟨hnone, hsome⟩ := act?_of_swallowed hlead hword
        have hlength := length_filterMap_act?_le texts
        rw [List.filterMap_cons_none hnone, List.filterMap_cons_some hsome] at h
        rw [h, List.length_cons] at hlength
        omega
  · intro h
    exact List.filterMap_congr fun text htext => act?_of_agree (h text htext)

theorem act?_ne_none_of_asksToQuit {text : String} (h : asksToQuit text = true) :
    act? savesByLead text ≠ none := by
  simp only [asksToQuit, Bool.or_eq_true, beq_iff_eq] at h
  rcases h with rfl | rfl <;> exact Option.some_ne_none _

/-- Lines that ask the session for nothing can be left out. -/
theorem acts_filter {inputs : List String} {keep : String → Bool}
    (hkeep : ∀ input ∈ inputs, keep input = false → act? savesByLead (trimText input) = none) :
    acts savesByLead (inputs.filter keep) = acts savesByLead inputs := by
  induction inputs with
  | nil => rfl
  | cons input inputs ih =>
    have ih := ih fun later hlater => hkeep later (List.mem_cons_of_mem _ hlater)
    have hinput := hkeep input List.mem_cons_self
    cases hkept : keep input with
    | true =>
      rw [List.filter_cons_of_pos hkept]
      cases hquit : asksToQuit (trimText input) with
      | true => rw [acts_of_asksToQuit hquit, acts_of_asksToQuit hquit]
      | false => rw [acts_cons hquit, acts_cons hquit, ih]
    | false =>
      have hnone := hinput hkept
      have hquit : asksToQuit (trimText input) = false := by
        rw [← Bool.not_eq_true]
        exact fun hquit => act?_ne_none_of_asksToQuit hquit hnone
      rw [List.filter_cons_of_neg (by simp [hkept]), acts_cons hquit, hnone, ih]
      rfl

/-- What stands behind the lead is the path, and the conversation is written there. -/
theorem react_save (services : Services (StateM V))
    (save : String → String → StateM F (Except FileFault Unit)) (s : Session) (v : V) (f : F)
    {rest : String} (hrest : trimText rest ≠ "") :
    react (Desk.beside services save) s (Line.ofTrimmed ("/save" ++ rest)) (v, f) =
      let saved := save (trimText rest) s.transcript.jsonText f
      ((savedText (trimText rest) saved.1, s), (v, saved.2)) := by
  have hlead : savesByLead ("/save" ++ rest) = true := by
    rw [savesByLead, List.isPrefixOf_iff_prefix, String.toList_append]
    exact List.prefix_append _ _
  have hpath : afterLead? "/save" ("/save" ++ rest) = some rest := by
    rw [afterLead?, String.toList_append, dropLead?_append, Option.map_some, String.ofList_toList]
  have hnamed : Line.savePath rest = some (trimText rest) := by
    simp [Line.savePath, hrest]
  have hother : ∀ control, savesByLead control = false → "/save" ++ rest ≠ control :=
    fun _ => ne_of_savesByLead hlead
  have hread : Line.ofTrimmed ("/save" ++ rest) = .save (some (trimText rest)) := by
    rw [Line.ofTrimmed, if_neg (hother "" (by decide)), if_neg, if_neg (hother "/clear" (by decide)),
      if_neg (hother "/history" (by decide)), if_neg (hother "/odsl" (by decide)), hpath]
    · exact congrArg Line.save hnamed
    · exact not_or.mpr ⟨hother "quit" (by decide), hother "q" (by decide)⟩
  rw [hread]
  rfl

/-- **Every line goes where it belongs, but for those that only start like a save.**  A
    conversation on the console leaves the session, the services' world and the answers
    that come of the acts its lines ask for, each said once, without the white space at its
    ends, in the order of the lines and up to the first that asks to quit; the answers,
    failures among them, are what is shown.  Every other line leaves the session and the
    services as they are, so all such lines can be left out, and nothing but what they
    show themselves, and the files, will differ.

    The lines that start with the letters of `/save` are among these.  If they all have it
    as their first word, the session hears all that it should; otherwise it does not, and
    a file is written in the place of a message, at the path that the rest of it names. -/
theorem converse_routes (services : Services (StateM V))
    (save : String → String → StateM F (Except FileFault Unit)) (s : Session)
    (inputs : List String) (v : V) (f : F) :
    let desk := Desk.beside services save
    (∃ answers s' v' shown f',
      s.answers services (acts savesByLead inputs) v = ((answers, s'), v') ∧
      converse desk s inputs (v, f) = ((shown, s'), (v', f')) ∧
      Shows (linesRead inputs) answers shown) ∧
    (∀ text, asksToQuit text = false → act? savesByLead text = none →
      ∃ shown f', react desk s (Line.ofTrimmed text) (v, f) = ((shown, s), (v, f'))) ∧
    (∀ keep : String → Bool,
      (∀ input ∈ inputs, keep input = false → act? savesByLead (trimText input) = none) →
      ∃ answers s' v' shown f' shownOfKept fOfKept,
        converse desk s inputs (v, f) = ((shown, s'), (v', f')) ∧
        Shows (linesRead inputs) answers shown ∧
        converse desk s (inputs.filter keep) (v, f) = ((shownOfKept, s'), (v', fOfKept)) ∧
        Shows (linesRead (inputs.filter keep)) answers shownOfKept) ∧
    (acts savesByLead inputs = acts savesByWord inputs ↔
      ∀ text ∈ linesRead inputs, savesByLead text = savesByWord text) ∧
    ∀ rest, trimText rest ≠ "" →
      react desk s (Line.ofTrimmed ("/save" ++ rest)) (v, f) =
        let saved := save (trimText rest) s.transcript.jsonText f
        ((savedText (trimText rest) saved.1, s), (v, saved.2)) := by
  intro desk
  refine ⟨converse_eq_answers services save s inputs v f, ?_, ?_, filterMap_act?_eq_iff _, ?_⟩
  · intro text hquit hnone
    exact react_of_none services save s v f ((act?_ofTrimmed hquit).trans hnone)
  · intro keep hkeep
    obtain ⟨answers, s', v', shown, f', hanswers, hall, hshows⟩ :=
      converse_eq_answers services save s inputs v f
    obtain ⟨answers₁, s₁, v₁, shown₁, f₁, hkept, hsome, hshows₁⟩ :=
      converse_eq_answers services save s (inputs.filter keep) v f
    rw [acts_filter hkeep, hanswers] at hkept
    cases hkept
    exact ⟨answers, s', v', shown, f', shown₁, f₁, hall, hshows, hsome, hshows₁⟩
  · exact fun rest hrest => react_save services save s v f hrest

/-- A desk with the services of a stage, where every file can be written and is kept. -/
def stageDesk : Desk (StateM (Stage × List (String × String))) :=
  Desk.beside Stage.services fun path text files => (.ok (), files ++ [(path, text)])

/-- Lines of all kinds, and a model that has nothing more to say after its first reply:
    three messages, two of which fail, and a new beginning between them. -/
theorem converse_routes_failing :
    let inputs := ["  What is on?", "", "/history", "/save notes.json", "/odsl", "Thanks\t", "/clear",
      "Hello", "q", "What is on?"]
    let kept := ["  What is on?", "Thanks\t", "/clear", "Hello", "q", "What is on?"]
    let stage := Stage.onNewYear [] [.ok "4"]
    ∃ answers s' stage' shown files shownOfKept filesOfKept,
      converse stageDesk .empty inputs (stage, []) = ((shown, s'), (stage', files)) ∧
      Shows (linesRead inputs) answers shown ∧
      converse stageDesk .empty kept (stage, []) = ((shownOfKept, s'), (stage', filesOfKept)) ∧
      Shows (linesRead kept) answers shownOfKept ∧
      stage'.calls.map (·.user) = ["What is on?", "Thanks", "Hello"] ∧
      files.length = 1 ∧ filesOfKept = [] := by
  intro inputs kept stage
  let keep (input : String) : Bool := (act? savesByLead (trimText input)).isSome
  have hkeep : ∀ input ∈ inputs, keep input = false → act? savesByLead (trimText input) = none := by
    intro input _ hkeep
    rwa [← Option.isNone_iff_eq_none, ← Option.not_isSome, Bool.not_eq_true']
  have hkept : inputs.filter keep = kept := by decide +kernel
  obtain ⟨-, -, hfilter, -, -⟩ := converse_routes Stage.services
    (fun path text files => (.ok (), files ++ [(path, text)])) .empty inputs stage []
  obtain ⟨answers, s', stage', shown, files, shownOfKept, filesOfKept, hall, hshows, hsome,
    hshows'⟩ := hfilter keep hkeep
  rw [hkept] at hsome hshows'
  refine ⟨answers, s', stage', shown, files, shownOfKept, filesOfKept, hall, hshows, hsome,
    hshows', ?_⟩
  have hstage : _ = stage' := congrArg (·.2.1) hall
  have hfiles : _ = files := congrArg (·.2.2) hall
  have hfilesOfKept : _ = filesOfKept := congrArg (·.2.2) hsome
  rw [← hstage, ← hfiles, ← hfilesOfKept]
  decide +kernel

/-- A message that starts with the letters of a save: the session should hear it and ask
    the model twice, but a file is written and nobody is asked anything. -/
theorem converse_swallows_message :
    let inputs := ["/save-the-date: dinner on Friday"]
    let stage := Stage.onNewYear [] [.ok "5", .ok "Which one?"]
    acts savesByWord inputs = [.say "/save-the-date: dinner on Friday"] ∧
    (Session.empty.answers Stage.services (acts savesByWord inputs) stage).2.calls.length = 2 ∧
    ∃ shown stage' files,
      converse stageDesk .empty inputs (stage, []) = ((shown, .empty), (stage', files)) ∧
      shown = "> Saved conversation to -the-date: dinner on Friday\n> " ∧
      stage'.calls = [] ∧ files = [("-the-date: dinner on Friday", "[]")] := by
  intro inputs stage
  refine ⟨rfl, by decide +kernel, _, stage, _, rfl, ?_, rfl, ?_⟩
  · decide +kernel
  · decide +kernel

end Console

end Datebook
