/-
  Datebook/Proofs/Settings/Building.lean
  ======================================
  **Settings that were prepared can be built from, but for the key of the model.**

  Two checks are written apart: the one on settings, and the ones of the partners
  that are built from them.  Where a mailbox was asked for, the settings have a
  secret, so the calendar never refuses (`calendarOfSettings_of_usable`); the key is
  not among what is checked before, and is all that can be missing
  (`setup_of_usable`).

  Offline, the calendar is the one in memory, and of the section on the calendar only
  its kind is still looked at, since a word that is no kind makes the text
  unreadable.  `SectionsAlike` relates two sections that differ in the other
  settings, as long as each is left out or is a string; then preparing and building
  give the same (`prepare_offline_alike`).
-/
import Datebook.Proofs.Settings.Validation
import Datebook.Setup
import Mathlib

namespace Datebook

open Toml

namespace Settings

/-! ### What is built -/

/-- The key of the environment comes before the one that was read, also where it is
    empty. -/
theorem apiKey_overridden (s : Settings) (isOffline : Bool) (lookup : String → Option String) :
    (s.overridden isOffline lookup).model.apiKey = (lookup "LLM_API_KEY").or s.model.apiKey := by
  cases isOffline <;> rfl

theorem calendarOfSettings_of_usable {s : Settings} (h : s.Usable) :
    ∃ calendar, Setup.calendarOfSettings s.calendar = .ok calendar := by
  cases hkind : s.calendar.kind with
  | memory => exact ⟨.memory, by rw [Setup.calendarOfSettings, hkind]⟩
  | graph =>
    obtain ⟨-, -, -, secret, hsecret, hne⟩ := h.credentials hkind
    have hfull : secret.isEmpty = false := by simpa using hne
    simp [Setup.calendarOfSettings, hkind, GraphCalendar.ofSettings, hsecret, hfull, Except.map]

theorem endpoint_of_key {s : ModelSettings} {key : String} (hkey : s.apiKey = some key)
    (hne : key ≠ "") : ∃ endpoint, Endpoint.ofSettings s = .ok endpoint := by
  have hfull : key.isEmpty = false := by simpa using hne
  simp [Endpoint.ofSettings, hkey, hfull]

theorem endpoint_without_key {s : ModelSettings} (h : ¬ ∃ key, s.apiKey = some key ∧ key ≠ "") :
    Endpoint.ofSettings s = .error (.settings .noApiKey) := by
  cases hkey : s.apiKey with
  | none => simp [Endpoint.ofSettings, hkey]
  | some key =>
    have hempty : key = "" := by
      by_contra hne
      exact h ⟨key, hkey, hne⟩
    simp [Endpoint.ofSettings, hkey, hempty]

/-- With a key everything is built; without one it is the key that is missed. -/
theorem setup_of_usable {s : Settings} (h : s.Usable) :
    ((∃ key, s.model.apiKey = some key ∧ key ≠ "") → ∃ setup, Setup.ofSettings s = .ok setup) ∧
    (¬ (∃ key, s.model.apiKey = some key ∧ key ≠ "") →
      Setup.ofSettings s = .error (.settings .noApiKey)) := by
  constructor
  · rintro ⟨key, hkey, hne⟩
    obtain ⟨endpoint, hendpoint⟩ := endpoint_of_key hkey hne
    obtain ⟨calendar, hcalendar⟩ := calendarOfSettings_of_usable h
    exact ⟨⟨endpoint, calendar⟩, by
      simp [Setup.ofSettings, hendpoint, hcalendar, bind, Except.bind, pure, Except.pure]⟩
  · intro hnone
    simp [Setup.ofSettings, endpoint_without_key hnone, bind, Except.bind]

/-! ### Sections that differ in their strings -/

/-- What a section gives for the settings of a mailbox, kind first; a section that is
    left out gives nothing. -/
def givenForCalendar : Option Toml → Option (List (Option Toml))
  | none => some (CalendarSettings.names.map fun _ => none)
  | some v => v.settings? CalendarSettings.names

/-- A setting that is left out, or is a string. -/
def IsString (o : Option Toml) : Prop := ∀ v, o = some v → ∃ s, v = .string s

/-- Two sections that give the same kind, and strings, or nothing, for the other
    settings. -/
def SectionsAlike (v w : Option Toml) : Prop :=
  v = w ∨ ∃ kind vs ws, givenForCalendar v = some (kind :: vs) ∧
    givenForCalendar w = some (kind :: ws) ∧ ∀ o ∈ vs ++ ws, IsString o

/-- Two sources of settings that differ at most in the strings that their sections on
    the calendar give. -/
inductive Source.Alike : Source → Source → Prop
  | same (source : Source) : Source.Alike source source
  | texts {text text' : String} {document document' : Entries}
      (hread : Toml.read? text = some document) (hread' : Toml.read? text' = some document')
      (hmodel : document.lookup "llm" = document'.lookup "llm")
      (hlogging : document.lookup "logging" = document'.lookup "logging")
      (hcalendar : SectionsAlike (document.lookup "calendar") (document'.lookup "calendar")) :
      Source.Alike (.file text) (.file text')

theorem length_settings? {names : List String} {v : Toml} {given : List (Option Toml)}
    (h : v.settings? names = some given) : given.length = names.length := by
  cases v <;> simp only [settings?, Option.some.injEq, reduceCtorEq] at h <;> simp [← h]

/-- A setting that is a string, or left out, is always read, so what is read of the
    section depends on the rest of it only. -/
theorem map_bind_orElse {α β γ : Type} {initial : α} {read : Toml → Option α} {o : Option Toml}
    (hread : ∀ s, ∃ a, read (.string s) = some a) (h : IsString o) {rest : α → Option β}
    {f : β → γ} {r : Option γ} (hrest : ∀ a, (rest a).map f = r) :
    ((orElse initial read o).bind rest).map f = r := by
  cases o with
  | none => exact hrest initial
  | some v =>
    obtain ⟨s, rfl⟩ := h v rfl
    obtain ⟨a, ha⟩ := hread s
    rw [orElse, ha]
    exact hrest a

/-- Where everything but the kind is a string, only the kind decides whether a section
    is read. -/
theorem kind_of_strings {v kind : Option Toml} {vs : List (Option Toml)}
    (hgiven : givenForCalendar v = some (kind :: vs)) (hvs : ∀ o ∈ vs, IsString o) :
    (orElse CalendarSettings.initial CalendarSettings.ofToml? v).map (·.kind)
      = orElse CalendarSettings.initial.kind (asWord? CalendarKind.ofWord?) kind := by
  cases v with
  | none =>
    simp only [givenForCalendar, CalendarSettings.names, List.map_cons, List.map_nil,
      Option.some.injEq, List.cons.injEq] at hgiven
    obtain ⟨rfl, -⟩ := hgiven
    rfl
  | some v =>
    have hlength := length_settings? (show v.settings? CalendarSettings.names = _ from hgiven)
    obtain ⟨tenant, clientId, clientSecret, user, graphUrl, authorityUrl, timeZone, rfl⟩ :
        ∃ a b c d e f g, vs = [a, b, c, d, e, f, g] := by
      match vs, hlength with
      | [a, b, c, d, e, f, g], _ => exact ⟨a, b, c, d, e, f, g, rfl⟩
    simp only [List.mem_cons, List.not_mem_nil, or_false, forall_eq_or_imp, forall_eq] at hvs
    obtain ⟨htenant, hclient, hsecret, huser, hgraph, hauthority, hzone⟩ := hvs
    have hsettings : v.settings? CalendarSettings.names
        = some [kind, tenant, clientId, clientSecret, user, graphUrl, authorityUrl, timeZone] :=
      hgiven
    have hstring : ∀ s, ∃ a, asString? (.string s) = some a := fun s => ⟨s, rfl⟩
    change (CalendarSettings.ofToml? v).map (·.kind) = _
    simp only [CalendarSettings.ofToml?, hsettings, Option.bind_eq_bind, Option.bind_some]
    cases orElse CalendarSettings.initial.kind (asWord? CalendarKind.ofWord?) kind with
    | none => rfl
    | some k =>
      rw [Option.bind_some]
      refine map_bind_orElse hstring htenant fun _ => ?_
      refine map_bind_orElse hstring hclient fun _ => ?_
      refine map_bind_orElse (fun s => ⟨some s, rfl⟩) hsecret fun _ => ?_
      refine map_bind_orElse hstring huser fun _ => ?_
      refine map_bind_orElse hstring hgraph fun _ => ?_
      refine map_bind_orElse hstring hauthority fun _ => ?_
      exact map_bind_orElse hstring hzone fun _ => rfl

theorem kind_of_alike {v w : Option Toml} (h : SectionsAlike v w) :
    (orElse CalendarSettings.initial CalendarSettings.ofToml? v).map (·.kind)
      = (orElse CalendarSettings.initial CalendarSettings.ofToml? w).map (·.kind) := by
  rcases h with rfl | ⟨kind, vs, ws, hv, hw, hstrings⟩
  · rfl
  · rw [kind_of_strings hv fun o ho => hstrings o (List.mem_append_left ws ho),
      kind_of_strings hw fun o ho => hstrings o (List.mem_append_right vs ho)]

/-! ### Reading, preparing and building offline -/

/-- What of the settings an offline run still looks at. -/
def offlinePart (s : Settings) : ModelSettings × CalendarKind × LoggingSettings :=
  (s.model, s.calendar.kind, s.logging)

theorem read_alike {source source' : Source} (h : source.Alike source') :
    source.read.map offlinePart = source'.read.map offlinePart := by
  cases h with
  | same => rfl
  | @texts text text' document document' hread hread' hmodel hlogging hcalendar =>
    have hkind := kind_of_alike hcalendar
    simp only [Source.read, ofText, hread, hread', Option.bind_some, ofEntries?, hmodel, hlogging,
      Option.bind_eq_bind]
    cases orElse ModelSettings.initial ModelSettings.ofToml? (document'.lookup "llm") with
    | none => rfl
    | some model =>
      -- both calendar sections are read, with the same kind, or neither is
      cases hv : orElse CalendarSettings.initial CalendarSettings.ofToml?
          (document.lookup "calendar") with
      | none =>
        rw [hv, Option.map_none, eq_comm, Option.map_eq_none_iff] at hkind
        rw [hkind]
      | some calendar =>
        rw [hv, Option.map_some, eq_comm, Option.map_eq_some_iff] at hkind
        obtain ⟨calendar', hw, hsame⟩ := hkind
        rw [hw]
        cases orElse LoggingSettings.initial LoggingSettings.ofToml?
            (document'.lookup "logging") with
        | none => rfl
        | some logging => simp [Except.map, offlinePart, hsame]

/-- What is left of the settings offline: no string of the calendar's section. -/
theorem overridden_alike {s s' : Settings} {lookup lookup' : String → Option String}
    (hs : s.offlinePart = s'.offlinePart)
    (hlookup : ∀ name, name ≠ "GRAPH_CLIENT_SECRET" → lookup name = lookup' name) :
    (s.overridden true lookup).model = (s'.overridden true lookup').model ∧
    (s.overridden true lookup).calendar.kind = .memory ∧
    (s'.overridden true lookup').calendar.kind = .memory := by
  have hmodel : s.model = s'.model := congrArg Prod.fst hs
  refine ⟨?_, rfl, rfl⟩
  simp [overridden, withEnvironment, offline, hmodel, hlookup "LLM_API_KEY" (by decide),
    hlookup "LLM_API_URL" (by decide), hlookup "LLM_MODEL" (by decide)]

theorem validate_of_memory {s s' : Settings} (hmodel : s.model = s'.model)
    (hs : s.calendar.kind = .memory) (hs' : s'.calendar.kind = .memory) :
    s.validate = s'.validate := by
  simp [validate, hmodel, hs, hs']

theorem setup_of_memory {s s' : Settings} (hmodel : s.model = s'.model)
    (hs : s.calendar.kind = .memory) (hs' : s'.calendar.kind = .memory) :
    Setup.ofSettings s = Setup.ofSettings s' := by
  simp [Setup.ofSettings, Setup.calendarOfSettings, hmodel, hs, hs']

/-- Offline, sources that differ in the strings of the calendar's section, and in the
    client's secret, can be prepared alike, and the same is built from them. -/
theorem prepare_offline_alike {source source' : Source} {lookup lookup' : String → Option String}
    (hsource : source.Alike source')
    (hlookup : ∀ name, name ≠ "GRAPH_CLIENT_SECRET" → lookup name = lookup' name) :
    ((∃ s, prepare source true lookup = .ok s) ↔ ∃ s', prepare source' true lookup' = .ok s') ∧
    (prepare source true lookup).bind Setup.ofSettings
      = (prepare source' true lookup').bind Setup.ofSettings := by
  have hread := read_alike hsource
  rw [prepare_eq, prepare_eq]
  cases hs : source.read with
  | error failure =>
    cases hs' : source'.read with
    | error failure' =>
      simp only [hs, hs', Except.map, Except.error.injEq] at hread
      simp [Except.bind, hread]
    | ok s' => simp [hs, hs', Except.map] at hread
  | ok s =>
    cases hs' : source'.read with
    | error failure' => simp [hs, hs', Except.map] at hread
    | ok s' =>
      simp only [hs, hs', Except.map, Except.ok.injEq] at hread
      obtain ⟨hmodel, hmemory, hmemory'⟩ := overridden_alike hread hlookup
      have hvalid := validate_of_memory hmodel hmemory hmemory'
      have hsetup := setup_of_memory hmodel hmemory hmemory'
      cases hcheck : (s'.overridden true lookup').validate with
      | error fault =>
        rw [hcheck] at hvalid
        simp [Except.bind, Except.map, Except.mapError, hvalid, hcheck]
      | ok u =>
        rw [hcheck] at hvalid
        simp [Except.bind, Except.map, Except.mapError, hvalid, hcheck, hsetup]

/-! ### Preparing and building together -/

/-- Settings that were prepared can be built from exactly when there is a key for the
    model, and otherwise it is the key that is missed.  Offline, neither preparing nor
    building depends on the strings given for a mailbox. -/
theorem prepared_builds_iff_keyed (source : Source) (isOffline : Bool)
    (lookup : String → Option String) :
    (∀ s, prepare source isOffline lookup = .ok s →
      ∃ initial, source.read = .ok initial ∧
        ((∃ setup, Setup.ofSettings s = .ok setup) ↔
          ∃ key, (lookup "LLM_API_KEY").or initial.model.apiKey = some key ∧ key ≠ "") ∧
        ((¬ ∃ key, (lookup "LLM_API_KEY").or initial.model.apiKey = some key ∧ key ≠ "") →
          Setup.ofSettings s = .error (.settings .noApiKey))) ∧
    (∀ source' lookup', source.Alike source' →
      (∀ name, name ≠ "GRAPH_CLIENT_SECRET" → lookup name = lookup' name) →
      ((∃ s, prepare source true lookup = .ok s) ↔ ∃ s, prepare source' true lookup' = .ok s) ∧
      (prepare source true lookup).bind Setup.ofSettings
        = (prepare source' true lookup').bind Setup.ofSettings) := by
  refine ⟨?_, fun source' lookup' => prepare_offline_alike⟩
  intro s hprepare
  obtain ⟨initial, hread, rfl, husable⟩ := prepare_eq_ok_iff.mp hprepare
  obtain ⟨hkeyed, hunkeyed⟩ := setup_of_usable husable
  rw [apiKey_overridden] at hkeyed hunkeyed
  refine ⟨initial, hread, ⟨?_, hkeyed⟩, hunkeyed⟩
  rintro ⟨setup, hsetup⟩
  by_contra hnone
  rw [hunkeyed hnone] at hsetup
  cases hsetup

/-- A tenant in a table, and another one in an array. -/
theorem alike_table_array :
    (Source.file "[calendar]\nbackend='graph'\ntenant='a'").Alike (.file "calendar=['graph','b']") := by
  have htable : Toml.read? "[calendar]\nbackend='graph'\ntenant='a'"
      = some [("calendar", .table .header
          [("backend", .string "graph"), ("tenant", .string "a")])] := by cbv
  have harray : Toml.read? "calendar=['graph','b']"
      = some [("calendar", .array [.string "graph", .string "b"])] := by cbv
  refine .texts htable harray rfl rfl (.inr ⟨some (.string "graph"),
    [some (.string "a"), none, none, none, none, none, none],
    [some (.string "b"), none, none, none, none, none, none], rfl, rfl, ?_⟩)
  simp [IsString]

/-- The empty variable of the environment takes the key away; a tenant that is written
    differently, and a secret in the environment, change nothing. -/
theorem prepared_builds_iff_keyed_empty_variable :
    let lookup := fun name => if name = "LLM_API_KEY" then some "" else none
    let lookup' := fun name => if name = "GRAPH_CLIENT_SECRET" then some "s" else lookup name
    (∃ s, prepare (.file "[calendar]\nbackend='graph'\ntenant='a'") true lookup = .ok s ∧
      Setup.ofSettings s = .error (.settings .noApiKey)) ∧
    (Source.file "[calendar]\nbackend='graph'\ntenant='a'").Alike (.file "calendar=['graph','b']") ∧
    (∀ name, name ≠ "GRAPH_CLIENT_SECRET" → lookup name = lookup' name) ∧
    (∃ s, prepare (.file "calendar=['graph','b']") true lookup' = .ok s) ∧
    (prepare (.file "[calendar]\nbackend='graph'\ntenant='a'") true lookup).bind Setup.ofSettings
      = (prepare (.file "calendar=['graph','b']") true lookup').bind Setup.ofSettings := by
  intro lookup lookup'
  have hprepare : prepare (.file "[calendar]\nbackend='graph'\ntenant='a'") true lookup = .ok
      { Settings.initial with
        model := { ModelSettings.initial with apiKey := some "" }
        calendar := { CalendarSettings.initial with kind := .memory, tenant := "a" } } := by
    decide +kernel
  have hlookup : ∀ name, name ≠ "GRAPH_CLIENT_SECRET" → lookup name = lookup' name := by
    intro name hname
    simp [lookup', hname]
  obtain ⟨hkey, halike⟩ :=
    prepared_builds_iff_keyed (.file "[calendar]\nbackend='graph'\ntenant='a'") true lookup
  obtain ⟨initial, -, -, hmissing⟩ := hkey _ hprepare
  obtain ⟨hboth, hsame⟩ := halike (.file "calendar=['graph','b']") lookup' alike_table_array hlookup
  refine ⟨⟨_, hprepare, hmissing ?_⟩, alike_table_array, hlookup, hboth.mp ⟨_, hprepare⟩, hsame⟩
  rintro ⟨key, hkey, hne⟩
  have hempty : some "" = some key := hkey
  exact hne (Option.some.inj hempty).symm

end Settings

end Datebook
