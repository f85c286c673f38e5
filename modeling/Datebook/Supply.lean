/-
  Datebook/Supply.lean
  ====================
  **Supplies of things that have to be new**: ids, and readings of the clock.

  A supply is an unending sequence and the number of things taken from it so far.
  Nothing is assumed of the sequence.  What needs ids to be distinct says so
  about the sequence, and what needs nothing holds for any sequence whatever.
-/
namespace Datebook

structure Supply (α : Type) where
  item : Nat → α
  used : Nat

namespace Supply

variable {α : Type}

/-- The next thing, and the supply without it. -/
def take (s : Supply α) : α × Supply α := (s.item s.used, { s with used := s.used + 1 })

/-- A supply that gives the same thing for ever. -/
def constant (a : α) : Supply α := ⟨fun _ => a, 0⟩

@[simp] theorem take_fst (s : Supply α) : s.take.1 = s.item s.used := rfl

@[simp] theorem used_take (s : Supply α) : s.take.2.used = s.used + 1 := rfl

@[simp] theorem item_take (s : Supply α) : s.take.2.item = s.item := rfl

end Supply

end Datebook
