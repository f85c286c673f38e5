/-
  Datebook/Proofs/Calendar/Renaming.lean
  ======================================
  **A calendar works the same under any ids.**

  A `Renaming` gives other names to the ids of a calendar, different ones to
  different ids.  An operation on the calendar and the same operation on the renamed
  one succeed together, and leave a calendar and its renaming: what refers to an event
  by its id has to be renamed too, and what refers to none must be no id in either
  case (`Counterpart`).  Listings show no ids, and ordinals are looked up alike.
-/
import Datebook.Proofs.Calendar.Effect
import Datebook.Proofs.Calendar.Listing
import Datebook.Proofs.Resolution
import Mathlib.Data.Set.Function

namespace Datebook

/-- New names for the ids in a set, different ones for different ids. -/
structure Renaming where
  ids : Set String
  newId : String → String
  injOn : Set.InjOn newId ids

namespace Renaming

variable (ρ : Renaming)

/-- A text that is an id neither before nor after. -/
def Foreign (reference : String) : Prop := reference ∉ ρ.ids ∧ reference ∉ ρ.newId '' ρ.ids

/-- A reference and what it becomes. -/
inductive Counterpart : String → String → Prop where
  | id {id : String} : id ∈ ρ.ids → Counterpart id (ρ.newId id)
  | foreign {reference : String} : ρ.Foreign reference → Counterpart reference reference

/-- The same command, up to its reference. -/
inductive CommandAlike : Command → Command → Prop where
  | add (description startTime endTime : String) :
      CommandAlike (.add description startTime endTime) (.add description startTime endTime)
  | modify {id id' : String} (description startTime endTime : String) : ρ.Counterpart id id' →
      CommandAlike (.modify id description startTime endTime)
        (.modify id' description startTime endTime)
  | remove {id id' : String} : ρ.Counterpart id id' → CommandAlike (.remove id) (.remove id')
  | list : CommandAlike .list .list

variable {ρ}

theorem Counterpart.newId_eq_iff {reference reference' id : String}
    (h : ρ.Counterpart reference reference') (hid : id ∈ ρ.ids) :
    ρ.newId id = reference' ↔ id = reference := by
  cases h with
  | id hreference =>
    constructor
    · exact fun heq => ρ.injOn hid hreference heq
    · rintro rfl
      rfl
  | foreign hforeign =>
    constructor
    · intro heq
      exact absurd ⟨id, hid, heq⟩ hforeign.2
    · rintro rfl
      exact absurd hid hforeign.1

/-! ### Calendars under other ids -/

variable (ρ)

def event (e : Event) : Event := { e with id := ρ.newId e.id }

def entry (e : ListingEntry) : ListingEntry := { e with id := ρ.newId e.id }

def store (s : Store) : Store := ⟨s.events.map ρ.event, s.available⟩

/-- The calendar with its ids renamed, also those of the events to come. -/
def calendar (m : MemoryCalendar) : MemoryCalendar where
  store := ρ.store m.store
  ids := ⟨fun n => ρ.newId (m.ids.item n), m.ids.used⟩

/-- The ids of the events, and of those to come, are all among the ids. -/
structure Covers (m : MemoryCalendar) : Prop where
  events : ∀ e ∈ m.store.events, e.id ∈ ρ.ids
  supply : ∀ n, m.ids.item n ∈ ρ.ids

/-- The same store up to ids, or no store in either case. -/
inductive StoresAlike : Except CalendarFault Store → Except CalendarFault Store → Prop where
  | ok {s : Store} : (∀ e ∈ s.events, e.id ∈ ρ.ids) → StoresAlike (.ok s) (.ok (ρ.store s))
  | error (fault fault' : CalendarFault) : StoresAlike (.error fault) (.error fault')

variable {ρ}

/-! ### Listings -/

theorem listing_event (es : List Event) : listing (es.map ρ.event) = (listing es).map ρ.entry := by
  have general : ∀ n, listingFrom n (es.map ρ.event) = (listingFrom n es).map ρ.entry := by
    induction es with
    | nil => exact fun _ => rfl
    | cons e es ih =>
      intro n
      rw [List.map_cons, listingFrom, ih (n + 1)]
      rfl
  exact general 0

theorem lookupOrdinal?_entry (l : Listing) (no : String) :
    lookupOrdinal? (l.map ρ.entry) no = (lookupOrdinal? l no).map ρ.newId := by
  rw [lookupOrdinal?, lookupOrdinal?, List.find?_map, Option.map_map, Option.map_map]
  rfl

theorem id_mem_of_mem_listing {es : List Event} (hes : ∀ e ∈ es, e.id ∈ ρ.ids) :
    ∀ e ∈ listing es, e.id ∈ ρ.ids := by
  intro e he
  obtain ⟨n, hn⟩ := List.mem_iff_getElem?.mp he
  rw [getElem?_listing, Option.map_eq_some_iff] at hn
  obtain ⟨x, hx, rfl⟩ := hn
  exact hes x (List.mem_of_getElem? hx)

/-- The listing that is shown names no ids. -/
theorem showListing_entry (l : Listing) : showListing (l.map ρ.entry) = showListing l := by
  rw [showListing, showListing, List.foldr_map, List.isEmpty_map]
  rfl

/-! ### Operations -/

theorem updateFirst?_event {es : List Event} (hes : ∀ e ∈ es, e.id ∈ ρ.ids)
    {reference reference' : String} (h : ρ.Counterpart reference reference') (d : EventDetails) :
    Store.updateFirst? reference' d (es.map ρ.event)
      = (Store.updateFirst? reference d es).map (List.map ρ.event) := by
  induction es with
  | nil => rfl
  | cons e es ih =>
    have hsame : (ρ.event e).id = reference' ↔ e.id = reference := h.newId_eq_iff (hes e (by simp))
    have hrest := ih fun x hx => hes x (by simp [hx])
    rw [List.map_cons, Store.updateFirst?, Store.updateFirst?, hrest]
    by_cases he : e.id = reference
    · rw [if_pos he, if_pos (hsame.mpr he)]
      rfl
    · rw [if_neg he, if_neg (mt hsame.mp he), Option.map_map, Option.map_map]
      rfl

theorem filter_event {es : List Event} (hes : ∀ e ∈ es, e.id ∈ ρ.ids)
    {reference reference' : String} (h : ρ.Counterpart reference reference') :
    (es.map ρ.event).filter (·.id != reference') = (es.filter (·.id != reference)).map ρ.event := by
  rw [List.filter_map]
  congr 1
  apply List.filter_congr
  intro e he
  have hsame : (ρ.event e).id = reference' ↔ e.id = reference := h.newId_eq_iff (hes e he)
  rw [Function.comp_apply, Bool.eq_iff_iff, bne_iff_ne, bne_iff_ne, ne_eq, ne_eq, hsame]

theorem contents_store (s : Store) :
    (ρ.store s).contents = s.contents.map (List.map ρ.event) := by
  obtain ⟨events, available⟩ := s
  cases available <;> rfl

section

variable {s : Store} (hs : ∀ e ∈ s.events, e.id ∈ ρ.ids)

include hs

theorem add_alike {id : String} (hid : id ∈ ρ.ids) (d : EventDetails) :
    ρ.StoresAlike (s.add id d) ((ρ.store s).add (ρ.newId id) d) := by
  cases havailable : s.available with
  | false =>
    rw [Store.add, Store.add, contents_store, Store.contents_of_unavailable havailable]
    exact .error _ _
  | true =>
    have havailable' : (ρ.store s).available = true := havailable
    have hadd : s.add id d = .ok { s with events := s.events ++ [d.event id] } :=
      Store.add_eq_ok_iff.mpr ⟨havailable, rfl⟩
    have hadd' : (ρ.store s).add (ρ.newId id) d
        = .ok (ρ.store { s with events := s.events ++ [d.event id] }) := by
      apply Store.add_eq_ok_iff.mpr
      exact ⟨havailable', by simp [store, event, EventDetails.event]⟩
    rw [hadd, hadd']
    apply StoresAlike.ok
    intro e he
    rcases List.mem_append.mp he with he | he
    · exact hs e he
    · rw [List.mem_singleton.mp he]
      exact hid

variable {reference reference' : String} (h : ρ.Counterpart reference reference')

include h

theorem update_alike (d : EventDetails) :
    ρ.StoresAlike (s.update reference d) ((ρ.store s).update reference' d) := by
  have hevents : Store.updateFirst? reference' d (ρ.store s).events = _ := updateFirst?_event hs h d
  cases havailable : s.available with
  | false =>
    rw [Store.update, Store.update, contents_store, Store.contents_of_unavailable havailable]
    exact .error _ _
  | true =>
    have havailable' : (ρ.store s).available = true := havailable
    cases hcase : Store.updateFirst? reference d s.events with
    | none =>
      rw [hcase, Option.map_none] at hevents
      rw [Store.update_of_missing havailable (Store.updateFirst?_eq_none_iff.mp hcase),
        Store.update_of_missing havailable' (Store.updateFirst?_eq_none_iff.mp hevents)]
      exact .error _ _
    | some es =>
      rw [hcase, Option.map_some] at hevents
      have hupdate : s.update reference d = .ok { s with events := es } :=
        Store.update_eq_ok_iff.mpr ⟨havailable, es, hcase, rfl⟩
      have hupdate' : (ρ.store s).update reference' d = .ok (ρ.store { s with events := es }) :=
        Store.update_eq_ok_iff.mpr ⟨havailable', _, hevents, rfl⟩
      rw [hupdate, hupdate']
      obtain ⟨before, e, after, hbefore, _, _, rfl⟩ := Store.exists_of_updateFirst? hcase
      rw [hbefore] at hs
      apply StoresAlike.ok
      -- the event with new details has kept its id
      intro x hx
      simp only [List.mem_append, List.mem_cons] at hx hs
      rcases hx with hx | rfl | hx
      · exact hs x (.inl hx)
      · exact hs e (.inr (.inl rfl))
      · exact hs x (.inr (.inr hx))

theorem delete_alike :
    ρ.StoresAlike (s.delete reference) ((ρ.store s).delete reference') := by
  cases havailable : s.available with
  | false =>
    rw [Store.delete, Store.delete, contents_store, Store.contents_of_unavailable havailable]
    exact .error _ _
  | true =>
    have havailable' : (ρ.store s).available = true := havailable
    by_cases hfound : ∃ e ∈ s.events, e.id = reference
    · have hfound' : ∃ e ∈ (ρ.store s).events, e.id = reference' := by
        obtain ⟨e, he, hid⟩ := hfound
        exact ⟨ρ.event e, List.mem_map_of_mem he, (h.newId_eq_iff (hs e he)).mpr hid⟩
      have hdelete : s.delete reference
          = .ok { s with events := s.events.filter (·.id != reference) } :=
        Store.delete_eq_ok_iff.mpr ⟨havailable, hfound, rfl⟩
      have hdelete' : (ρ.store s).delete reference'
          = .ok (ρ.store { s with events := s.events.filter (·.id != reference) }) := by
        apply Store.delete_eq_ok_iff.mpr
        exact ⟨havailable', hfound', by simp only [store, filter_event hs h]⟩
      rw [hdelete, hdelete']
      exact .ok fun e he => hs e (List.mem_filter.mp he).1
    · have hnone : ∀ e ∈ s.events, e.id ≠ reference := fun e he hid => hfound ⟨e, he, hid⟩
      have hnone' : ∀ e ∈ (ρ.store s).events, e.id ≠ reference' := by
        intro x hx hid
        obtain ⟨e, he, rfl⟩ := List.mem_map.mp hx
        exact hnone e he ((h.newId_eq_iff (hs e he)).mp hid)
      rw [Store.delete_of_missing havailable hnone, Store.delete_of_missing havailable' hnone']
      exact .error _ _

end

/-! ### Commands -/

variable (ρ)

def ListingAlike (l l' : Listing) : Prop := l' = l.map ρ.entry ∧ ∀ e ∈ l, e.id ∈ ρ.ids

variable {ρ}

theorem CommandAlike.of_foreign {c : Command}
    (h : ∀ reference, c.scheduleId? = some reference → ρ.Foreign reference) :
    ρ.CommandAlike c c := by
  cases c with
  | add description startTime endTime => exact .add description startTime endTime
  | modify id description startTime endTime => exact .modify _ _ _ (.foreign (h id rfl))
  | remove id => exact .remove (.foreign (h id rfl))
  | list => exact .list

theorem against_alike {c : Command} (h : ρ.CommandAlike c c) {l l' : Listing}
    (hl : ρ.ListingAlike l l') (no : String) :
    ρ.CommandAlike (Resolution.against l c no).command (Resolution.against l' c no).command := by
  obtain ⟨rfl, hids⟩ := hl
  rw [Resolution.against, Resolution.against, lookupOrdinal?_entry]
  cases hfound : lookupOrdinal? l no with
  | none => exact h
  | some id =>
    obtain ⟨e, he, rfl⟩ := Option.map_eq_some_iff.mp hfound
    have hid : ρ.Counterpart e.id (ρ.newId e.id) := .id (hids e (List.mem_of_find?_eq_some he))
    cases c with
    | add | list => exact h
    | modify => exact .modify _ _ _ hid
    | remove => exact .remove hid

end Renaming

end Datebook
