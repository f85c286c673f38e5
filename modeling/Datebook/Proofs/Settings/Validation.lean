/-
  Datebook/Proofs/Settings/Validation.lean
  ========================================
  **What settings satisfy once they have been prepared**, and nothing more.

  `Settings.Usable` says it field by field, without the checks: which numbers the
  sampling values are, that an address is there, and that a mailbox has all its
  credentials.  The check and the predicate agree (`validate_eq_ok_iff`), also on
  what is no number: a temperature must be one, a sampling mass need not.

  Preparation is then reading, overriding, choosing and asking `Usable`
  (`prepare_eq_ok_iff`).
-/
import Datebook.Proofs.Decimal.Value
import Datebook.Proofs.Text.Cutting
import Datebook.Settings.Reader
import Mathlib.Data.List.TakeWhile

namespace Datebook.Settings

open Datebook.Text

/-- Settings that can be used. -/
structure Usable (s : Settings) : Prop where
  apiUrl : ∃ c ∈ s.model.apiUrl.toList, isBlank c = false
  temperature : ∃ q, s.model.temperature.value? = some q ∧ 0 ≤ q ∧ q ≤ 2
  /-- The sampling mass is in its range, or is no number at all. -/
  topP : s.model.topP = .nan ∨ ∃ q, s.model.topP.value? = some q ∧ 0 < q ∧ q ≤ 1
  maxTokens : 1 ≤ s.model.maxTokens
  /-- A mailbox has a tenant, a client, a user and a secret. -/
  credentials : s.calendar.kind = .graph → s.calendar.tenant ≠ "" ∧ s.calendar.clientId ≠ "" ∧
    s.calendar.user ≠ "" ∧ ∃ secret, s.calendar.clientSecret = some secret ∧ secret ≠ ""

/-! ### The single checks -/

theorem isEmpty_trimText_iff (s : String) :
    (trimText s).isEmpty = true ↔ ¬ ∃ c ∈ s.toList, isBlank c = false := by
  have hnil : (trimText s).isEmpty = true ↔ trim s.toList = [] := by
    rw [trimText, String.isEmpty_iff, ← String.toList_inj]
    simp
  rw [hnil, trim, trimEnd, List.reverse_eq_nil_iff, List.dropWhile_eq_nil_iff]
  constructor
  · rintro hall ⟨c, hc, hblank⟩
    have hkept : c ∈ trimStart s.toList := (mem_dropWhile hblank).mpr hc
    rw [hall c (List.mem_reverse.mpr hkept)] at hblank
    cases hblank
  · intro hnone c hc
    by_contra hblank
    have hmem : c ∈ s.toList := (List.dropWhile_suffix isBlank).subset (List.mem_reverse.mp hc)
    exact hnone ⟨c, hmem, by simpa using hblank⟩

theorem temperature_check_iff (x : Binary) :
    (Binary.intLe 0 x && x.leInt 2) = true ↔ ∃ q, x.value? = some q ∧ 0 ≤ q ∧ q ≤ 2 := by
  cases hx : x.value? with
  | none =>
    cases x with
    | nan => simp [Binary.intLe]
    | infinite negative => cases negative <;> simp [Binary.intLe, Binary.leInt]
    | finite negative m e => cases hx
  | some q =>
    rw [Bool.and_eq_true, Binary.intLe_iff hx, Binary.leInt_iff hx]
    simp

theorem topP_check_iff (x : Binary) :
    (x.leInt 0 || x.gtInt 1) = false ↔
      x = .nan ∨ ∃ q, x.value? = some q ∧ 0 < q ∧ q ≤ 1 := by
  cases hx : x.value? with
  | none =>
    cases x with
    | nan => simp [Binary.leInt, Binary.gtInt]
    | infinite negative => cases negative <;> simp [Binary.leInt, Binary.gtInt]
    | finite negative m e => cases hx
  | some q =>
    have hne : x ≠ .nan := by
      rintro rfl
      cases hx
    rw [Bool.or_eq_false_iff, ← Bool.not_eq_true, ← Bool.not_eq_true, Binary.leInt_iff hx,
      Binary.gtInt_iff hx]
    simp [hne]

theorem missingForGraph_eq_nil_iff (c : CalendarSettings) :
    missingForGraph c = [] ↔ c.tenant ≠ "" ∧ c.clientId ≠ "" ∧ c.user ≠ "" ∧
      ∃ secret, c.clientSecret = some secret ∧ secret ≠ "" := by
  have hsecret : c.clientSecret.getD "" ≠ "" ↔
      ∃ secret, c.clientSecret = some secret ∧ secret ≠ "" := by
    cases c.clientSecret with
    | none => simp
    | some secret => simp
  rw [← hsecret]
  simp [missingForGraph, List.filterMap_eq_nil_iff]

/-! ### Checking and preparing -/

theorem validate_eq_ok_iff (s : Settings) : s.validate = .ok () ↔ s.Usable := by
  rw [validate]
  split
  · rename_i h
    exact ⟨nofun, fun hs => absurd hs.apiUrl ((isEmpty_trimText_iff _).mp h)⟩
  rename_i hurl
  split
  · rename_i h
    refine ⟨nofun, fun hs => ?_⟩
    rw [(temperature_check_iff _).mpr hs.temperature] at h
    cases h
  rename_i htemperature
  split
  · rename_i h
    refine ⟨nofun, fun hs => ?_⟩
    rw [(topP_check_iff _).mpr hs.topP] at h
    cases h
  rename_i htopP
  split
  · rename_i h
    refine ⟨nofun, fun hs => ?_⟩
    have := hs.maxTokens
    omega
  rename_i htokens
  split
  · rename_i h
    exact ⟨nofun, fun hs => absurd ((missingForGraph_eq_nil_iff _).mpr (hs.credentials h.1)) h.2⟩
  rename_i hgraph
  refine ⟨fun _ => ?_, fun _ => rfl⟩
  exact
    { apiUrl := by
        by_contra hblank
        exact hurl ((isEmpty_trimText_iff _).mpr hblank)
      temperature := (temperature_check_iff _).mp (by simpa using htemperature)
      topP := (topP_check_iff _).mp (by simpa using htopP)
      maxTokens := by omega
      credentials := fun hkind => by
        apply (missingForGraph_eq_nil_iff _).mp
        by_contra hmissing
        exact hgraph ⟨hkind, hmissing⟩ }

/-- What is checked: the settings that were read, under the environment and the switch. -/
def overridden (s : Settings) (isOffline : Bool) (lookup : String → Option String) : Settings :=
  if isOffline then (s.withEnvironment lookup).offline else s.withEnvironment lookup

theorem prepare_eq (source : Source) (isOffline : Bool) (lookup : String → Option String) :
    prepare source isOffline lookup = source.read.bind fun s =>
      (((s.overridden isOffline lookup).validate).mapError Failure.settings).map
        fun _ => s.overridden isOffline lookup := by
  cases hread : source.read with
  | error failure => simp [prepare, hread, bind, Except.bind]
  | ok s =>
    cases hvalid : (s.overridden isOffline lookup).validate with
    | error fault =>
      rw [overridden] at hvalid
      simp [prepare, hread, bind, Except.bind, hvalid, overridden, Except.mapError, Except.map,
        throw, throwThe, MonadExceptOf.throw]
    | ok u =>
      rw [overridden] at hvalid
      simp [prepare, hread, bind, Except.bind, hvalid, overridden, Except.mapError, Except.map,
        pure, Except.pure]

theorem prepare_eq_ok_iff {source : Source} {isOffline : Bool} {lookup : String → Option String}
    {s : Settings} :
    prepare source isOffline lookup = .ok s ↔
      ∃ initial, source.read = .ok initial ∧ s = initial.overridden isOffline lookup ∧
        s.Usable := by
  rw [prepare_eq]
  cases source.read with
  | error failure => simp [Except.bind]
  | ok initial =>
    have husable := validate_eq_ok_iff (initial.overridden isOffline lookup)
    cases hvalid : (initial.overridden isOffline lookup).validate with
    | error fault =>
      rw [hvalid] at husable
      simp only [Except.bind, hvalid, Except.mapError, Except.map]
      constructor
      · nofun
      · rintro ⟨initial', hinitial, rfl, hs⟩
        cases hinitial
        cases husable.mpr hs
    | ok u =>
      simp only [Except.bind, hvalid, Except.mapError, Except.map, Except.ok.injEq]
      constructor
      · rintro rfl
        exact ⟨initial, rfl, rfl, husable.mp hvalid⟩
      · rintro ⟨initial', hinitial, rfl, -⟩
        cases hinitial
        rfl

end Datebook.Settings
