/-
  Datebook/Proofs/Transcript.lean
  ===============================
  **What a transcript keeps as it grows.**

  An entry is added with its time moved up to that of the last one, so the times
  of a transcript are in order whatever the clock shows (`InOrder.append`).
  Replacing the words of the last entry changes nothing but words: ids, times and
  speakers are the same in the same places (`map_replaceLast`).
-/
import Datebook.Transcript.Basic

namespace Datebook.Transcript

/-- No entry is earlier than one before it. -/
def InOrder (t : Transcript) : Prop :=
  t.entries.Pairwise fun a b => a.time.rank ≤ b.time.rank

theorem inOrder_empty : empty.InOrder := .nil

theorem id_clamp (t : Transcript) (e : Entry) : (t.clamp e).id = e.id := by
  rw [clamp]
  split <;> rfl

theorem last?_eq_some_iff {t : Transcript} {e : Entry} :
    t.last? = some e ↔ ∃ before, t.entries = before ++ [e] :=
  List.getLast?_eq_some_iff

/-- Where the entries are in order, none of them is later than the last. -/
theorem InOrder.rank_le_clamp {t : Transcript} (h : t.InOrder) {a : Entry} (ha : a ∈ t.entries)
    (e : Entry) : a.time.rank ≤ (t.clamp e).time.rank := by
  cases hlast : t.last? with
  | none =>
    rw [List.getLast?_eq_none_iff.mp hlast] at ha
    cases ha
  | some previous =>
    refine Int.le_trans ?_ (lastTime_push hlast)
    obtain ⟨before, hentries⟩ := last?_eq_some_iff.mp hlast
    rw [InOrder, hentries, List.pairwise_append] at h
    rw [hentries, List.mem_append, List.mem_singleton] at ha
    rcases ha with ha | rfl
    · exact h.2.2 a ha previous (List.mem_singleton_self previous)
    · exact Int.le_refl _

theorem InOrder.append {t : Transcript} (h : t.InOrder) (stamp : Stamp) (intent : IntentCode)
    (speaker : Speaker) (message : String) : (t.append stamp intent speaker message).InOrder := by
  rw [InOrder, Transcript.append, entries_push, List.pairwise_append]
  refine ⟨h, List.pairwise_singleton _ _, ?_⟩
  intro a ha b hb
  rw [List.mem_singleton.mp hb]
  exact h.rank_le_clamp ha _

/-- What does not look at the words of entries does not see a replacement. -/
theorem map_replaceLast {α : Type} {f : Entry → α} (hf : ∀ e message, f { e with message } = f e)
    (t : Transcript) (id : Uuid) (message : String) :
    (t.replaceLast id message).entries.map f = t.entries.map f := by
  rw [replaceLast]
  cases hlast : t.last? with
  | none => rfl
  | some e =>
    dsimp only
    split
    · obtain ⟨before, hentries⟩ := last?_eq_some_iff.mp hlast
      simp [hentries, hf]
    · rfl

theorem InOrder.replaceLast {t : Transcript} (h : t.InOrder) (id : Uuid) (message : String) :
    (t.replaceLast id message).InOrder := by
  -- the order is one of the times alone
  have htimes := map_replaceLast (f := Entry.time) (fun _ _ => rfl) t id message
  rw [InOrder, ← List.pairwise_map (f := Entry.time) (R := fun a b => a.rank ≤ b.rank)] at h ⊢
  rw [htimes]
  exact h

end Datebook.Transcript
