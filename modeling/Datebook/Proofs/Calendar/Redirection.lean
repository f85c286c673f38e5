/-
  Datebook/Proofs/Calendar/Redirection.lean
  =========================================
  **A command that carries an id is resolved like any other reference.**

  An id is nothing but a text to the resolver, which takes the first run of digits
  in it for an ordinal.  If that run is the numeral of a place at which another
  event stands, the command is led to that event: ids made at random have digits,
  and small numbers are ordinals of most listings.

  In every other case the command stays what it is (`resolve_stored`).  So resolving
  a command twice is not the same as resolving it once; it is the same for an id
  that names no place but its own (`NamesAtMost`).
-/
import Datebook.Proofs.Calendar.Listing
import Datebook.Proofs.Calendar.Reference
import Mathlib.Data.List.TakeWhile

namespace Datebook

open Datebook.Text

/-! ### Ordinals in a text -/

/-- The first run of digits in the text is the numeral of `n`. -/
def NamesOrdinal (text : String) (n : Nat) : Prop :=
  ∃ before after, text.toList = before ++ (numeral n ++ after) ∧
    (∀ c ∈ before, isDigit c = false) ∧ ∀ c ∈ after.head?, isDigit c = false

theorem exists_append_of_firstDigits? {cs run : List Char} (h : firstDigits? cs = some run) :
    ∃ before after, cs = before ++ (run ++ after) ∧ (∀ c ∈ before, isDigit c = false) ∧
      ∀ c ∈ after.head?, isDigit c = false := by
  have hrun : (cs.dropWhile fun c => !isDigit c).takeWhile isDigit = run := by
    simp only [firstDigits?] at h
    split at h
    · cases h
    · exact Option.some.inj h
  refine ⟨cs.takeWhile fun c => !isDigit c, (cs.dropWhile fun c => !isDigit c).dropWhile isDigit,
    ?_, ?_, ?_⟩
  · rw [← hrun, List.takeWhile_append_dropWhile, List.takeWhile_append_dropWhile]
  · intro c hc
    simpa using List.mem_takeWhile_imp hc
  · intro c hc
    have hhead := List.head?_dropWhile_not isDigit (cs.dropWhile fun c => !isDigit c)
    rw [Option.mem_def.mp hc] at hhead
    exact hhead

theorem firstDigits?_eq_none_iff {cs : List Char} :
    firstDigits? cs = none ↔ ∀ c ∈ cs, isDigit c = false := by
  induction cs with
  | nil => simp [firstDigits?]
  | cons c cs ih =>
    cases hc : isDigit c with
    | true => simp [firstDigits?_cons_of_isDigit hc, hc]
    | false => simp [firstDigits?_cons_of_not_isDigit hc, hc, ih]

theorem targetOrdinal?_eq_natText_iff {text : String} {n : Nat} :
    targetOrdinal? text = some (natText n) ↔ NamesOrdinal text n := by
  constructor
  · intro h
    obtain ⟨run, hrun, htext⟩ := Option.map_eq_some_iff.mp h
    obtain rfl : run = numeral n := String.ofList_injective htext
    exact exists_append_of_firstDigits? hrun
  · rintro ⟨before, after, htext, hbefore, hafter⟩
    rw [targetOrdinal?, htext, firstDigits?_append_of_not_isDigit hbefore,
      firstDigits?_numeral n hafter]
    rfl

theorem NamesOrdinal.unique {text : String} {n n' : Nat} (h : NamesOrdinal text n)
    (h' : NamesOrdinal text n') : n = n' := by
  have hordinal := targetOrdinal?_eq_natText_iff.mpr h
  rw [targetOrdinal?_eq_natText_iff.mpr h', Option.some.injEq] at hordinal
  exact natText_injective hordinal.symm

/-! ### Looking an ordinal up -/

theorem exists_place_of_lookupOrdinal? {k : Nat} {es : List Event} {no id : String}
    (h : lookupOrdinal? (listingFrom k es) no = some id) :
    ∃ n e, es[n]? = some e ∧ e.id = id ∧ no = natText (k + n) := by
  -- the first number is general, as it grows by one with each event passed
  induction es generalizing k with
  | nil => cases h
  | cons e es ih =>
    rw [lookupOrdinal?, listingFrom, List.find?_cons] at h
    split at h
    · rename_i hno
      cases h
      exact ⟨0, e, rfl, rfl, (beq_iff_eq.mp hno).symm⟩
    · obtain ⟨n, e', he', hid, hno⟩ := ih h
      exact ⟨n + 1, e', he', hid, by rw [hno, Nat.add_right_comm, Nat.add_assoc]⟩

/-! ### Commands that carry an id -/

theorem Command.scheduleId?_of_withScheduleId? {c d : Command} {id : String}
    (h : c.withScheduleId? id = some d) : d.scheduleId? = some id := by
  cases c with
  | add | list => cases h
  | modify | remove =>
    cases h
    rfl

theorem Command.exists_withScheduleId? {c : Command} {reference : String}
    (h : c.scheduleId? = some reference) (id : String) :
    ∃ d, c.withScheduleId? id = some d ∧ d.scheduleId? = some id := by
  cases c with
  | add | list => cases h
  | modify | remove => exact ⟨_, rfl, rfl⟩

theorem Command.withScheduleId?_self {c : Command} {id : String} (h : c.scheduleId? = some id) :
    c.withScheduleId? id = some c := by
  cases c with
  | add | list => cases h
  | modify | remove =>
    cases h
    rfl

namespace MemoryCalendar

variable {m : MemoryCalendar} {c : Command} {id : String}

theorem ofCommand_service (c : Command) (m : MemoryCalendar) :
    Resolution.ofCommand service c m = (m.resolve c, m) := by
  rw [Resolution.ofCommand_eq, resolve]
  cases c.scheduleId?.bind targetOrdinal? <;> rfl

theorem resolve_of_no_digit (hc : c.scheduleId? = some id)
    (hdigit : ∀ x ∈ id.toList, isDigit x = false) : m.resolve c = .ok ⟨c, none⟩ := by
  rw [resolve, hc, Option.bind_some, targetOrdinal?, firstDigits?_eq_none_iff.mpr hdigit]
  rfl

theorem resolve_of_unavailable (hunavailable : m.store.available = false)
    (hc : c.scheduleId? = some id) (hdigit : ∃ x ∈ id.toList, isDigit x = true) :
    m.resolve c = .error (.calendar .unavailable) := by
  have hlist : m.store.list = .error .unavailable := by
    rw [Store.list, Store.contents, hunavailable]
    rfl
  cases hordinal : targetOrdinal? id with
  | none =>
    rw [targetOrdinal?, Option.map_eq_none_iff, firstDigits?_eq_none_iff] at hordinal
    obtain ⟨x, hx, hdigit⟩ := hdigit
    rw [hordinal x hx] at hdigit
    cases hdigit
  | some no =>
    rw [resolve, hc, Option.bind_some, hordinal, hlist]
    rfl

/-- Where no event has an ordinal that the id names, the id stays. -/
theorem resolve_of_no_ordinal (havailable : m.store.available = true)
    (hc : c.scheduleId? = some id) (hnone : ∀ n < m.events.length, ¬ NamesOrdinal id n) :
    m.resolve c = .ok ⟨c, none⟩ := by
  have hlist : m.store.list = .ok (listing m.events) := Store.list_eq_ok_iff.mpr ⟨havailable, rfl⟩
  cases hordinal : targetOrdinal? id with
  | none => rw [resolve, hc, Option.bind_some, hordinal]
  | some no =>
    have hlookup : lookupOrdinal? (listing m.events) no = none := by
      rw [Option.eq_none_iff_forall_ne_some]
      intro id' hid'
      obtain ⟨n, e, he, _, rfl⟩ := exists_place_of_lookupOrdinal? hid'
      rw [Nat.zero_add, targetOrdinal?_eq_natText_iff] at hordinal
      exact hnone n (List.getElem?_eq_some_iff.mp he).1 hordinal
    rw [resolve, hc, Option.bind_some, hordinal, hlist]
    change Except.ok (Resolution.against (listing m.events) c no) = _
    rw [Resolution.against, hlookup]

/-- Of the places of the calendar, the text names at most this one. -/
def NamesAtMost (m : MemoryCalendar) (text : String) (k : Nat) : Prop :=
  ∀ n < m.events.length, NamesOrdinal text n → n = k

theorem place_unique {k n : Nat} {e e' : Event} (hids : (m.events.map (·.id)).Nodup)
    (he : m.events[k]? = some e) (he' : m.events[n]? = some e') (hid : e'.id = e.id) : n = k := by
  have hplace : n < (m.events.map (·.id)).length := by
    rw [List.length_map]
    exact (List.getElem?_eq_some_iff.mp he').1
  apply (List.getElem?_inj hplace hids).mp
  rw [List.getElem?_map, List.getElem?_map, he, he', Option.map_some, Option.map_some, hid]

/-- What becomes of a command with the id of the event at place `k`: the event at the
    place that the id names, if there is one, takes the place of its event. -/
theorem resolve_stored (hids : (m.events.map (·.id)).Nodup)
    (havailable : m.store.available = true) {k : Nat} {e : Event} (he : m.events[k]? = some e)
    (hc : c.scheduleId? = some e.id) :
    ∃ r, m.resolve c = .ok r ∧
      (r.command.scheduleId? = some e.id ↔ NamesAtMost m e.id k) ∧
      (NamesAtMost m e.id k → r.command = c) ∧
      ∀ n e', m.events[n]? = some e' → NamesOrdinal e.id n →
        r.command.scheduleId? = some e'.id := by
  -- the id may name no place, its own, or another; only the first is a case apart,
  -- since the event that takes over may well be the same
  by_cases hnames : ∃ n < m.events.length, NamesOrdinal e.id n
  · obtain ⟨n, hn, hordinal⟩ := hnames
    have he' : m.events[n]? = some m.events[n] := List.getElem?_eq_getElem hn
    obtain ⟨d, hd, hid⟩ := Command.exists_withScheduleId? hc m.events[n].id
    have hresolve := resolve_of_targetOrdinal? havailable he'
      (targetOrdinal?_eq_natText_iff.mpr hordinal) hc hd
    refine ⟨_, hresolve, ⟨?_, ?_⟩, ?_, ?_⟩
    · intro hkept n' hn' hordinal'
      rw [hid, Option.some.injEq] at hkept
      rw [hordinal'.unique hordinal]
      exact place_unique hids he he' hkept
    · intro hmost
      obtain rfl := hmost n hn hordinal
      rw [he, Option.some.injEq] at he'
      rw [hid, ← he']
    · intro hmost
      obtain rfl := hmost n hn hordinal
      rw [he, Option.some.injEq] at he'
      rw [← he', Command.withScheduleId?_self hc, Option.some.injEq] at hd
      exact hd.symm
    · intro n' e' hn' hordinal'
      rw [hordinal'.unique hordinal, he', Option.some.injEq] at hn'
      rw [hid, hn']
  · have hnone : ∀ n < m.events.length, ¬ NamesOrdinal e.id n := by
      intro n hn hordinal
      exact hnames ⟨n, hn, hordinal⟩
    refine ⟨_, resolve_of_no_ordinal havailable hc hnone, ⟨?_, fun _ => hc⟩, fun _ => rfl, ?_⟩
    · intro _ n hn hordinal
      exact absurd hordinal (hnone n hn)
    · intro n e' he' hordinal
      exact absurd hordinal (hnone n (List.getElem?_eq_some_iff.mp he').1)

/-- An id that was put in is that of the event whose place the reference names, and the
    calendar was available. -/
theorem named_of_resolve {d : Command} (h : m.resolve c = .ok ⟨d, some id⟩) :
    m.store.available = true ∧ c.withScheduleId? id = some d ∧
      ∃ (reference : String) (n : Nat) (e : Event), c.scheduleId? = some reference ∧
        NamesOrdinal reference n ∧ m.events[n]? = some e ∧ e.id = id := by
  rw [resolve] at h
  split at h
  · cases h
  rename_i no hno
  obtain ⟨reference, hreference, hordinal⟩ := Option.bind_eq_some_iff.mp hno
  cases hlist : m.store.list with
  | error fault =>
    rw [hlist] at h
    cases h
  | ok l =>
    rw [hlist] at h
    obtain ⟨havailable, rfl⟩ := Store.list_eq_ok_iff.mp hlist
    have hagainst : Resolution.against (listing m.events) c no = ⟨d, some id⟩ := Except.ok.inj h
    rw [Resolution.against] at hagainst
    split at hagainst
    · cases hagainst
    rename_i id' hlookup
    split at hagainst
    · rename_i d' hd
      cases hagainst
      obtain ⟨n, e, he, hid, rfl⟩ := exists_place_of_lookupOrdinal? hlookup
      rw [Nat.zero_add, targetOrdinal?_eq_natText_iff] at hordinal
      exact ⟨havailable, hd, reference, n, e, hreference, hordinal, he, hid⟩
    · cases hagainst

theorem stored_of_resolve {d : Command} (h : m.resolve c = .ok ⟨d, some id⟩) :
    m.store.available = true ∧ d.scheduleId? = some id ∧
      ∃ (k : Nat) (e : Event), m.events[k]? = some e ∧ e.id = id := by
  obtain ⟨havailable, hd, _, k, e, _, _, he, hid⟩ := named_of_resolve h
  exact ⟨havailable, Command.scheduleId?_of_withScheduleId? hd, k, e, he, hid⟩

/-- **Resolving keeps an id that names no other place.**  A command with the id of a
    stored event is resolved to itself if the first run of digits in the id is no
    ordinal of another event, wherever its own event stands.  If it is one, and only
    then, the command is led to that other event.  The same holds of a command that
    was resolved before.  Without digits in the id the calendar is not needed; with
    digits, it has to be available. -/
theorem resolve_stored_id (m : MemoryCalendar) (hids : (m.events.map (·.id)).Nodup) :
    (m.store.available = true → ∀ (c : Command) (k : Nat) (e : Event), m.events[k]? = some e →
      c.scheduleId? = some e.id →
      ∃ r, Resolution.ofCommand service c m = (.ok r, m) ∧
        (r.command.scheduleId? = some e.id ↔ NamesAtMost m e.id k) ∧
        (NamesAtMost m e.id k → r.command = c) ∧
        ∀ n e', m.events[n]? = some e' → NamesOrdinal e.id n →
          r.command.scheduleId? = some e'.id) ∧
    (∀ c d id, Resolution.ofCommand service c m = (.ok ⟨d, some id⟩, m) →
      ∃ (k : Nat) (e : Event) (r : Resolution), m.events[k]? = some e ∧ e.id = id ∧
        d.scheduleId? = some id ∧ Resolution.ofCommand service d m = (.ok r, m) ∧
        (r.command = d ↔ NamesAtMost m id k)) ∧
    ∀ c id, c.scheduleId? = some id →
      ((∀ x ∈ id.toList, isDigit x = false) →
        Resolution.ofCommand service c m = (.ok ⟨c, none⟩, m)) ∧
      (m.store.available = false → (∃ x ∈ id.toList, isDigit x = true) →
        Resolution.ofCommand service c m = (.error (.calendar .unavailable), m)) := by
  refine ⟨fun havailable c k e he hc => ?_, fun c d id hresolved => ?_, fun c id hc => ⟨?_, ?_⟩⟩
  · obtain ⟨r, hresolve, hkept⟩ := resolve_stored hids havailable he hc
    exact ⟨r, by rw [ofCommand_service, hresolve], hkept⟩
  · rw [ofCommand_service, Prod.mk.injEq] at hresolved
    obtain ⟨havailable, hd, k, e, he, rfl⟩ := stored_of_resolve hresolved.1
    obtain ⟨r, hresolve, hkept, hsame, _⟩ := resolve_stored hids havailable he hd
    refine ⟨k, e, r, he, rfl, hd, by rw [ofCommand_service, hresolve], ?_, hsame⟩
    intro hagain
    rw [hagain] at hkept
    exact hkept.mp hd
  · intro hdigit
    rw [ofCommand_service, resolve_of_no_digit hc hdigit]
  · intro hunavailable hdigit
    rw [ofCommand_service, resolve_of_unavailable hunavailable hc hdigit]

/-- Neither id leads anywhere else: `7` is no ordinal here, and `1` is the event's own. -/
theorem resolve_stored_id_harmless :
    let m : MemoryCalendar :=
      ⟨.ofEvents [⟨"a7", "Lunch", "", ""⟩, ⟨"1b", "Tea", "", ""⟩], .constant "new"⟩
    (∃ r, Resolution.ofCommand service (.remove "a7") m = (.ok r, m) ∧
      r.command = .remove "a7") ∧
    ∃ r, Resolution.ofCommand service (.remove "1b") m = (.ok r, m) ∧
      r.command = .remove "1b" := by
  intro m
  have hids : (m.events.map (·.id)).Nodup := by decide +kernel
  have hseven : NamesOrdinal "a7" 7 := targetOrdinal?_eq_natText_iff.mp (by decide +kernel)
  have hone : NamesOrdinal "1b" 1 := targetOrdinal?_eq_natText_iff.mp (by decide +kernel)
  constructor
  · obtain ⟨r, hr, _, hsame, _⟩ :=
      (resolve_stored_id m hids).1 rfl (.remove "a7") 0 _ rfl rfl
    refine ⟨r, hr, hsame fun n hn hname => ?_⟩
    rw [hname.unique hseven] at hn
    exact absurd hn (by decide)
  · obtain ⟨r, hr, _, hsame, _⟩ :=
      (resolve_stored_id m hids).1 rfl (.remove "1b") 1 _ rfl rfl
    exact ⟨r, hr, hsame fun n _ hname => hname.unique hone⟩

/-- The id of the first event names the place of the second.  So the command that
    `No.0` was resolved to means the second event when it is resolved again; and while
    the calendar is unavailable it means none. -/
theorem resolve_leads_astray :
    let m : MemoryCalendar :=
      ⟨.ofEvents [⟨"1a", "Lunch", "", ""⟩, ⟨"2b", "Tea", "", ""⟩], .constant "new"⟩
    (m.events.map (·.id)).Nodup ∧
    Resolution.ofCommand service (.remove "No.0") m = (.ok ⟨.remove "1a", some "1a"⟩, m) ∧
    Resolution.ofCommand service (.remove "1a") m = (.ok ⟨.remove "2b", some "2b"⟩, m) ∧
    Resolution.ofCommand service (.remove "1a") (m.setAvailable false) =
      (.error (.calendar .unavailable), m.setAvailable false) := by
  intro m
  refine ⟨by decide +kernel, ?_, ?_, ?_⟩ <;> rw [ofCommand_service, Prod.mk.injEq]
  · exact ⟨by decide +kernel, rfl⟩
  · exact ⟨by decide +kernel, rfl⟩
  · exact ⟨by decide +kernel, rfl⟩

end MemoryCalendar

end Datebook
