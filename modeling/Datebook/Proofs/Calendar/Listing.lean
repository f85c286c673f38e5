/-
  Datebook/Proofs/Calendar/Listing.lean
  =====================================
  **A listing has the events in their order, numbered from zero.**
-/
import Datebook.Calendar.Event

namespace Datebook

theorem length_listingFrom (k : Nat) (es : List Event) : (listingFrom k es).length = es.length := by
  induction es generalizing k with
  | nil => rfl
  | cons e es ih => rw [listingFrom, List.length_cons, List.length_cons, ih]

theorem getElem?_listingFrom (k : Nat) (es : List Event) (n : Nat) :
    (listingFrom k es)[n]? = es[n]?.map (·.entry (k + n)) := by
  induction es generalizing k n with
  | nil => rfl
  | cons e es ih =>
    cases n with
    | zero => rfl
    | succ n =>
      rw [listingFrom, List.getElem?_cons_succ, List.getElem?_cons_succ, ih,
        show k + 1 + n = k + (n + 1) by omega]

theorem length_listing (es : List Event) : (listing es).length = es.length :=
  length_listingFrom 0 es

theorem getElem?_listing (es : List Event) (n : Nat) :
    (listing es)[n]? = es[n]?.map (·.entry n) := by
  rw [listing, getElem?_listingFrom, Nat.zero_add]

end Datebook
