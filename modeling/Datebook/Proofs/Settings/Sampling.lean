/-
  Datebook/Proofs/Settings/Sampling.lean
  ======================================
  **The sampling values of prepared settings, and how requests carry them.**

  Both values are rounded when they are read, so they are values of the format that
  they are kept in (`sampling_of_read`), and such a value is written as a number that
  denotes it (`denotes_jsonText`).  The body of a request is read back as a whole,
  and the numbers are found in it (`body_reads`).

  The sampling mass has one gap: what is no number passes its check.  It comes from
  a document that says so (`eq_nan_iff_given`), and requests then carry `null`.
-/
import Datebook.Completion
import Datebook.Proofs.Decimal.Layout
import Datebook.Proofs.Settings.Validation

namespace Datebook

open Toml BinaryFormat

namespace Settings

/-! ### Reading -/

theorem has_asSampling? {v : Toml} {x : Binary} (h : v.asSampling? = some x) :
    binary32.Has x := by
  cases v <;> simp only [asSampling?, Option.some.injEq, reduceCtorEq] at h
  · rw [← h]
    exact has_ofInt (by decide) (by decide) _
  · rw [← h]
    exact has_round (by decide) (by decide) _

theorem has_orElse {initial : Binary} (hinitial : binary32.Has initial) {o : Option Toml}
    {x : Binary} (h : orElse initial asSampling? o = some x) : binary32.Has x := by
  cases o with
  | none =>
    cases h
    exact hinitial
  | some v => exact has_asSampling? h

theorem has_samplingValue (digits : Nat) (exponent : Int) :
    binary32.Has (samplingValue digits exponent) :=
  has_round (by decide) (by decide) _

/-- What a section on the model gives for a setting. -/
def givenForModel (v : Toml) (name : String) : Option Toml :=
  (v.settings? ModelSettings.names).bind fun given =>
    ((ModelSettings.names.zip given).lookup name).join

/-- A section on the model is read setting by setting. -/
theorem sampling_of_toml {v : Toml} {s : ModelSettings} (h : ModelSettings.ofToml? v = some s) :
    orElse ModelSettings.initial.temperature asSampling? (givenForModel v "temperature")
        = some s.temperature ∧
      orElse ModelSettings.initial.topP asSampling? (givenForModel v "top_p") = some s.topP := by
  simp only [ModelSettings.ofToml?, Option.bind_eq_bind, Option.bind_eq_some_iff] at h
  obtain ⟨given, hgiven, h⟩ := h
  split at h
  · simp only [Option.bind_eq_some_iff, Option.some.injEq] at h
    obtain ⟨_, -, _, -, _, -, _, -, temperature, htemperature, topP, htopP, _, -, rfl⟩ := h
    rw [givenForModel, givenForModel, hgiven]
    exact ⟨htemperature, htopP⟩
  · cases h

/-- A text is read section by section. -/
theorem model_of_text {text : String} {s : Settings} (h : ofText text = .ok s) :
    ∃ document, Toml.read? text = some document ∧
      orElse ModelSettings.initial ModelSettings.ofToml? (document.lookup "llm")
        = some s.model := by
  rw [ofText] at h
  split at h
  · rename_i read hread
    cases h
    obtain ⟨document, hdocument, hentries⟩ := Option.bind_eq_some_iff.mp hread
    simp only [ofEntries?, Option.bind_eq_bind, Option.bind_eq_some_iff, Option.some.injEq]
      at hentries
    obtain ⟨model, hmodel, calendar, -, logging, -, rfl⟩ := hentries
    exact ⟨document, hdocument, hmodel⟩
  · cases h

/-- The settings are read from a document that gives what is no number for the sampling
    mass. -/
def Source.GivesNan (source : Source) : Prop :=
  ∃ text document, source = .file text ∧ Toml.read? text = some document ∧
    (document.lookup "llm").bind (givenForModel · "top_p") = some (.float .nan)

theorem nan_of_asSampling? {v : Toml} (h : v.asSampling? = some .nan) : v = .float .nan := by
  cases v <;> simp only [asSampling?, Option.some.injEq, reduceCtorEq] at h
  · exact absurd h (roundRatio_ne_nan _ _ _ _)
  · rw [(round_eq_nan_iff _ _).mp h]

theorem initial_topP_ne_nan : ModelSettings.initial.topP ≠ .nan := by decide +kernel

/-- What is no number has been given as such, since the initial value is one. -/
theorem eq_nan_iff_given {o : Option Toml} {x : Binary}
    (h : orElse ModelSettings.initial.topP asSampling? o = some x) :
    x = .nan ↔ o = some (.float .nan) := by
  cases o with
  | none =>
    have hinitial : ModelSettings.initial.topP = x := Option.some.inj h
    simp [← hinitial, initial_topP_ne_nan]
  | some v =>
    constructor
    · rintro rfl
      rw [nan_of_asSampling? h]
    · intro hv
      rw [Option.some.inj hv] at h
      exact (Option.some.inj h).symm

theorem givesNan_file_iff {text : String} {document : Entries}
    (h : Toml.read? text = some document) :
    (Source.file text).GivesNan ↔
      (document.lookup "llm").bind (givenForModel · "top_p") = some (.float .nan) := by
  constructor
  · rintro ⟨text', document', hsource, hread, hgiven⟩
    cases hsource
    rw [h] at hread
    cases hread
    exact hgiven
  · intro hgiven
    exact ⟨text, document, rfl, h, hgiven⟩

theorem sampling_of_read {source : Source} {s : Settings} (h : source.read = .ok s) :
    binary32.Has s.model.temperature ∧ binary32.Has s.model.topP ∧
      (s.model.topP = .nan ↔ source.GivesNan) := by
  have hinitial : binary32.Has ModelSettings.initial.temperature ∧
      binary32.Has ModelSettings.initial.topP :=
    ⟨has_samplingValue _ _, has_samplingValue _ _⟩
  cases source with
  | none =>
    cases h
    refine ⟨hinitial.1, hinitial.2, fun hnan => absurd hnan initial_topP_ne_nan, ?_⟩
    rintro ⟨text, document, hsource, -⟩
    cases hsource
  | unreadable fault => cases h
  | file text =>
    obtain ⟨document, hdocument, hmodel⟩ := model_of_text h
    rw [givesNan_file_iff hdocument]
    cases hllm : document.lookup "llm" with
    | none =>
      rw [hllm] at hmodel
      have hsame : ModelSettings.initial = s.model := Option.some.inj hmodel
      rw [← hsame]
      exact ⟨hinitial.1, hinitial.2, by simp [initial_topP_ne_nan]⟩
    | some v =>
      rw [hllm] at hmodel
      obtain ⟨htemperature, htopP⟩ := sampling_of_toml hmodel
      exact ⟨has_orElse hinitial.1 htemperature, has_orElse hinitial.2 htopP,
        eq_nan_iff_given htopP⟩

/-- The environment and the switch leave both values as they were read. -/
theorem sampling_overridden (s : Settings) (isOffline : Bool) (lookup : String → Option String) :
    (s.overridden isOffline lookup).model.temperature = s.model.temperature ∧
      (s.overridden isOffline lookup).model.topP = s.model.topP := by
  cases isOffline <;> exact ⟨rfl, rfl⟩

end Settings

/-! ### Writing -/

/-- The member of this name is a number that denotes the value. -/
def Json.Holds (members : List (String × Json)) (name : String) (x : Binary) : Prop :=
  ∃ t, members.lookup name = some (.number t) ∧ Json.Denotes t x

/-- What the members of a body say of the sampling values.  Where the instructions stand
    apart there is no sampling mass; elsewhere it is a number, or `null` for what is
    none. -/
structure Convention.Carries (c : Convention) (members : List (String × Json))
    (temperature topP : Binary) : Prop where
  temperature : Json.Holds members "temperature" temperature
  apart : c = .anthropic → members.lookup "top_p" = none
  mass : c ≠ .anthropic → topP ≠ .nan → Json.Holds members "top_p" topP
  null : c ≠ .anthropic → topP = .nan → members.lookup "top_p" = some .null

theorem denotes_of_value {x : Binary} {q : ℚ} (hx : binary32.Has x) (h : x.value? = some q) :
    Json.Denotes x.jsonText x := by
  cases x with
  | nan => cases h
  | infinite negative => cases h
  | finite negative m e => exact Decimal.denotes_jsonText hx negative

namespace Endpoint

theorem plain_messages (messages : List ChatMessage) :
    (Json.array (messages.map messageJson)).Plain := by
  apply Json.Plain.array
  intro v hv
  obtain ⟨m, -, rfl⟩ := List.mem_map.mp hv
  apply Json.Plain.object
  simp only [List.mem_cons, List.not_mem_nil, or_false, forall_eq_or_imp, forall_eq]
  exact ⟨.string _, .string _⟩

variable {e : Endpoint} (instructions : String) (history : List ChatMessage) (user : String)

theorem separateBody_reads (htemperature : Json.Denotes e.temperature.jsonText e.temperature) :
    ∃ members, Json.read? (e.separateBody instructions history user).text
        = some (.object members) ∧
      Json.Holds members "temperature" e.temperature ∧ members.lookup "top_p" = none := by
  refine ⟨_, Json.read?_text ?_, ⟨_, rfl, htemperature⟩, rfl⟩
  apply Json.Plain.object
  simp only [List.mem_cons, List.not_mem_nil, or_false, forall_eq_or_imp, forall_eq]
  exact ⟨.string _, .int _, htemperature.plain, .string _, plain_messages _⟩

/-- The members of a body with the instructions as the first message, for any value in
    the place of the sampling mass. -/
def chatMembers (e : Endpoint) (topP : Json) : List (String × Json) :=
  [ ("model", .string e.model),
    ("max_tokens", .ofInt e.maxTokens),
    ("temperature", .number e.temperature.jsonText),
    ("top_p", topP),
    ("messages", .array ((⟨.system, instructions⟩ :: conversation history user).map messageJson)) ]

theorem plain_chatMembers (htemperature : Json.Denotes e.temperature.jsonText e.temperature)
    {topP : Json} (htopP : topP.Plain) :
    (Json.object (e.chatMembers instructions history user topP)).Plain := by
  apply Json.Plain.object
  simp only [chatMembers, List.mem_cons, List.not_mem_nil, or_false, forall_eq_or_imp, forall_eq]
  exact ⟨.string _, .int _, htemperature.plain, htopP, plain_messages _⟩

theorem chatBody_reads (htemperature : Json.Denotes e.temperature.jsonText e.temperature)
    (htopP : e.topP ≠ .nan → Json.Denotes e.topP.jsonText e.topP) :
    ∃ members, Json.read? (e.chatBody instructions history user).text = some (.object members) ∧
      Json.Holds members "temperature" e.temperature ∧
      (e.topP ≠ .nan → Json.Holds members "top_p" e.topP) ∧
      (e.topP = .nan → members.lookup "top_p" = some .null) := by
  by_cases hnan : e.topP = .nan
  · -- the text of the number is that of no value
    have htext : (e.chatBody instructions history user).text
        = (Json.object (e.chatMembers instructions history user .null)).text := by
      simp [chatBody, chatMembers, Json.text, Json.chars, Json.charsMembers, hnan, Binary.jsonText]
    rw [htext]
    exact ⟨_, Json.read?_text (plain_chatMembers _ _ _ htemperature .null), ⟨_, rfl, htemperature⟩,
      fun hne => absurd hnan hne, fun _ => rfl⟩
  · exact ⟨_, Json.read?_text (plain_chatMembers _ _ _ htemperature (htopP hnan).plain),
      ⟨_, rfl, htemperature⟩, fun _ => ⟨_, rfl, htopP hnan⟩, fun h => absurd h hnan⟩

theorem body_of_make? {method : Http.Method} {address body : String}
    {query headers : List (String × String)} {r : Http.Request}
    (h : Http.Request.make? method address query headers body = .ok r) : r.body = body := by
  rw [Http.Request.make?] at h
  split at h
  · cases h
  · split at h
    · cases h
      rfl
    · cases h

theorem sampling_ofSettings {s : ModelSettings} {e : Endpoint} (h : ofSettings s = .ok e) :
    e.temperature = s.temperature ∧ e.topP = s.topP := by
  rw [ofSettings] at h
  split at h
  · cases h
  · split at h
    · cases h
    · cases h
      exact ⟨rfl, rfl⟩

theorem exists_request (hconvention : e.convention = .openai)
    (hurl : (Url.read? e.apiUrl).isSome = true)
    (hkey : Http.isHeaderValue ("Bearer " ++ e.apiKey) = true) :
    ∃ r, e.request instructions history user = .ok r := by
  obtain ⟨url, hurl⟩ := Option.isSome_iff_exists.mp hurl
  have hjson : Http.isHeaderValue "application/json" = true := by decide
  simp [request, hconvention, Http.Request.make?, hurl, hkey, hjson]

/-- The body of every request is read back as an object that carries the sampling
    values. -/
theorem body_reads {r : Http.Request}
    (htemperature : Json.Denotes e.temperature.jsonText e.temperature)
    (htopP : e.topP ≠ .nan → Json.Denotes e.topP.jsonText e.topP)
    (h : e.request instructions history user = .ok r) :
    ∃ members, Json.read? r.body = some (.object members) ∧
      e.convention.Carries members e.temperature e.topP := by
  obtain ⟨separate, hseparate, hseparate', hnone⟩ :=
    separateBody_reads instructions history user htemperature
  obtain ⟨chat, hchat, hchat', hnumber, hnull⟩ :=
    chatBody_reads instructions history user htemperature htopP
  rw [request] at h
  split at h
  · rename_i hconvention
    rw [body_of_make? h]
    exact ⟨separate, hseparate, hseparate', fun _ => hnone, fun hne => absurd hconvention hne,
      fun hne => absurd hconvention hne⟩
  all_goals
    rename_i hconvention
    rw [body_of_make? h]
    exact ⟨chat, hchat, hchat', by rw [hconvention]; nofun, fun _ => hnumber, fun _ => hnull⟩

end Endpoint

namespace Settings

/-! ### Prepared settings -/

/-- What a request holds that comes from prepared settings. -/
theorem request_of_prepared {source : Source} {isOffline : Bool}
    {lookup : String → Option String} {s : Settings}
    (h : prepare source isOffline lookup = .ok s) {endpoint : Endpoint}
    (hendpoint : Endpoint.ofSettings s.model = .ok endpoint) {instructions : String}
    {history : List ChatMessage} {user : String} {request : Http.Request}
    (hrequest : endpoint.request instructions history user = .ok request) :
    ∃ members, Json.read? request.body = some (.object members) ∧
      endpoint.convention.Carries members s.model.temperature s.model.topP := by
  obtain ⟨initial, hread, rfl, husable⟩ := prepare_eq_ok_iff.mp h
  obtain ⟨hhas, hhas', -⟩ := sampling_of_read hread
  obtain ⟨hkeep, hkeep'⟩ := sampling_overridden initial isOffline lookup
  obtain ⟨htemperature, htopP⟩ := Endpoint.sampling_ofSettings hendpoint
  obtain ⟨q, hq, -⟩ := husable.temperature
  have hmass := husable.topP.resolve_left
  rw [← hkeep, ← htemperature] at hhas
  rw [← hkeep', ← htopP] at hhas'
  rw [← htemperature] at hq ⊢
  rw [← htopP] at hmass ⊢
  refine Endpoint.body_reads instructions history user (denotes_of_value hhas hq) ?_ hrequest
  intro hne
  obtain ⟨p, hp, -⟩ := hmass hne
  exact denotes_of_value hhas' hp

/-- Prepared settings have their sampling values in range, and every request that they
    lead to carries them as numbers.  What is no number passes for the sampling mass,
    if the document says so, and is carried as `null`. -/
theorem prepared_sampling {source : Source} {isOffline : Bool} {lookup : String → Option String}
    {s : Settings} (h : prepare source isOffline lookup = .ok s) :
    (∃ q, s.model.temperature.value? = some q ∧ 0 ≤ q ∧ q ≤ 2) ∧
    (s.model.topP ≠ .nan → ∃ q, s.model.topP.value? = some q ∧ 0 < q ∧ q ≤ 1) ∧
    (s.model.topP = .nan ↔ source.GivesNan) ∧
    1 ≤ s.model.maxTokens ∧
    (∃ c ∈ s.model.apiUrl.toList, Text.isBlank c = false) ∧
    ∀ endpoint instructions history user request, Endpoint.ofSettings s.model = .ok endpoint →
      endpoint.request instructions history user = .ok request →
      ∃ members, Json.read? request.body = some (.object members) ∧
        endpoint.convention.Carries members s.model.temperature s.model.topP := by
  obtain ⟨initial, hread, hs, husable⟩ := prepare_eq_ok_iff.mp h
  have hkeep : s.model.topP = initial.model.topP := by
    rw [hs, (sampling_overridden initial isOffline lookup).2]
  have hnan : s.model.topP = .nan ↔ source.GivesNan := by
    rw [hkeep, (sampling_of_read hread).2.2]
  exact ⟨husable.temperature, husable.topP.resolve_left, hnan, husable.maxTokens,
    husable.apiUrl, fun _ _ _ _ _ hendpoint hrequest => request_of_prepared h hendpoint hrequest⟩

/-- Settings with a key and this sampling mass, for the calendar in memory. -/
def keyed (topP : Binary) : Settings :=
  { Settings.initial with
    model := { ModelSettings.initial with apiKey := some "k", topP := topP }
    calendar := { CalendarSettings.initial with kind := .memory } }

theorem exists_request_keyed (topP : Binary) : ∃ endpoint request,
    Endpoint.ofSettings (keyed topP).model = .ok endpoint ∧ endpoint.convention ≠ .anthropic ∧
    endpoint.request "" [] "Hi" = .ok request := by
  have hconvention : Convention.ofUrl ModelSettings.initial.apiUrl = .openai := by decide +kernel
  have hurl : (Url.read? ModelSettings.initial.apiUrl).isSome = true := by decide +kernel
  have hkey : Http.isHeaderValue ("Bearer " ++ "k") = true := by decide +kernel
  let endpoint : Endpoint :=
    { Endpoint.simple "k" ModelSettings.initial.apiUrl ModelSettings.initial.model with
      topP := topP }
  have hopenai : endpoint.convention = .openai := hconvention
  obtain ⟨request, hrequest⟩ := Endpoint.exists_request "" [] "Hi" hopenai hurl hkey
  exact ⟨endpoint, request, rfl, by rw [hopenai]; nofun, hrequest⟩

/-- Half of the mass: it is in range, and a number in the body denotes it. -/
theorem prepared_sampling_half : ∃ s endpoint request members,
    prepare (.file "[llm]\napi_key='k'\ntop_p=0.5") true (fun _ => none) = .ok s ∧
    s.model.topP = .finite false 8388608 (-24) ∧
    (∃ q, s.model.topP.value? = some q ∧ 0 < q ∧ q ≤ 1) ∧
    Endpoint.ofSettings s.model = .ok endpoint ∧ endpoint.convention ≠ .anthropic ∧
    endpoint.request "" [] "Hi" = .ok request ∧
    Json.read? request.body = some (.object members) ∧
    Json.Holds members "top_p" s.model.topP := by
  have hprepare : prepare (.file "[llm]\napi_key='k'\ntop_p=0.5") true (fun _ => none)
      = .ok (keyed (.finite false 8388608 (-24))) := by decide +kernel
  have hne : (keyed (.finite false 8388608 (-24))).model.topP ≠ .nan := nofun
  obtain ⟨endpoint, request, hendpoint, hconvention, hrequest⟩ := exists_request_keyed _
  obtain ⟨-, hmass, -, -, -, hbody⟩ := prepared_sampling hprepare
  obtain ⟨members, hread, hcarries⟩ := hbody endpoint "" [] "Hi" request hendpoint hrequest
  exact ⟨_, endpoint, request, members, hprepare, rfl, hmass hne, hendpoint, hconvention, hrequest,
    hread, hcarries.mass hconvention hne⟩

/-- What is no number passes for the sampling mass, and the body has no number for it. -/
theorem prepared_nan_has_no_number : ∃ s endpoint request members,
    prepare (.file "[llm]\napi_key='k'\ntop_p=nan") true (fun _ => none) = .ok s ∧
    (¬ ∃ q, s.model.topP.value? = some q ∧ 0 < q ∧ q ≤ 1) ∧
    Endpoint.ofSettings s.model = .ok endpoint ∧
    endpoint.request "" [] "Hi" = .ok request ∧
    Json.read? request.body = some (.object members) ∧
    ¬ ∃ t, members.lookup "top_p" = some (.number t) := by
  have hprepare : prepare (.file "[llm]\napi_key='k'\ntop_p=nan") true (fun _ => none)
      = .ok (keyed .nan) := by decide +kernel
  obtain ⟨endpoint, request, hendpoint, hconvention, hrequest⟩ := exists_request_keyed .nan
  obtain ⟨members, hread, hcarries⟩ := request_of_prepared hprepare hendpoint hrequest
  refine ⟨_, endpoint, request, members, hprepare, ?_, hendpoint, hrequest, hread, ?_⟩
  · rintro ⟨q, hq, -⟩
    cases hq
  · rintro ⟨t, ht⟩
    rw [hcarries.null hconvention rfl] at ht
    cases ht

end Settings

end Datebook
