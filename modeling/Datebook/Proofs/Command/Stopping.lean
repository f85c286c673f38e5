/-
  Datebook/Proofs/Command/Stopping.lean
  =====================================
  **A fault points at the first place where something is wrong**: what stands
  before it can be completed to a call, and it never points at a separator.

  The reader gives up in five ways: there is no word, the word is no verb, the list
  of arguments does not come to its parenthesis, something follows the call, or the
  number of arguments is not the verb's.  Each way has its own notion of the text
  that remains.  `StopsAt` is what they have in common, and it is shown once for
  each of them (`stopsAt_of_readChars`).

  A place is kept as the text that remains from it on.  Counted in bytes, the text
  before it is the fault's offset, so an offset always lies between two characters.
-/
import Datebook.Proofs.Command.Acceptance

namespace Datebook.Command

open Datebook.Text

/-! ### Bytes -/

theorem byteLength_append (cs ds : List Char) :
    byteLength (cs ++ ds) = byteLength cs + byteLength ds := by
  induction cs with
  | nil => simp [byteLength]
  | cons c cs ih => simp [byteLength, ih, Nat.add_assoc]

theorem byteLength_eq (cs : List Char) : byteLength cs = (String.ofList cs).utf8ByteSize := by
  induction cs with
  | nil => rfl
  | cons c cs ih =>
    have hcons : String.ofList (c :: cs) = String.singleton c ++ String.ofList cs := by
      rw [String.singleton_eq_ofList, ← String.ofList_append]
      rfl
    rw [byteLength, ih, hcons, String.utf8ByteSize_append, String.utf8ByteSize_singleton]

theorem offsetOf_append (before rest : List Char) :
    offsetOf (before ++ rest) rest = byteLength before := by
  rw [offsetOf, byteLength_append, Nat.add_sub_cancel]

/-! ### Beginnings of calls -/

/-- Something can be put behind the text that makes it a call, of any verb and with
    any number of arguments. -/
def Completable (before : List Char) : Prop :=
  ∃ more v ls, Written (before ++ more) v ls

theorem completable_gaps {w : List Char} (hw : Gaps w) : Completable w := by
  refine ⟨Verb.list.word.toList ++ ['(', ')'], .list, [], ?_⟩
  simpa using Written.call .list hw gaps_nil gaps_nil gaps_nil .nil

theorem completable_list {w₀ w₁ w₂ inside : List Char} {ls : List Literal} (v : Verb)
    (h₀ : Gaps w₀) (h₁ : Gaps w₁) (h₂ : Gaps w₂) (hlist : ListWritten inside ls) :
    Completable (w₀ ++ v.word.toList ++ w₁ ++ '(' :: w₂ ++ inside) := by
  refine ⟨[')'], v, ls, ?_⟩
  exact .call v h₀ h₁ h₂ gaps_nil hlist

/-- Whatever begins like a text that can be completed can be completed itself. -/
theorem Completable.of_append {before more : List Char} (h : Completable (before ++ more)) :
    Completable before := by
  obtain ⟨behind, v, ls, hwritten⟩ := h
  refine ⟨more ++ behind, v, ls, ?_⟩
  rw [← List.append_assoc]
  exact hwritten

theorem completable_verb {w₀ w₁ : List Char} (v : Verb) (h₀ : Gaps w₀) (h₁ : Gaps w₁) :
    Completable (w₀ ++ v.word.toList ++ w₁) := by
  have hopen := completable_list v h₀ h₁ gaps_nil .nil
  have happend : Completable ((w₀ ++ v.word.toList ++ w₁) ++ ['(']) := by
    simpa using hopen
  exact happend.of_append

/-! ### The places where the reader stops -/

/-- Before `rest` the text is the beginning of a call, and `rest` starts with no
    separator. -/
structure StopsAt (text rest : List Char) : Prop where
  completable : ∃ before, text = before ++ rest ∧ Completable before
  atToken : ∀ c ∈ rest.head?, isGap c = false

theorem isGap_of_mem_head?_skipGaps (cs : List Char) :
    ∀ c ∈ (skipGaps cs).head?, isGap c = false := by
  intro c hc
  have hhead := List.head?_dropWhile_not isGap cs
  rw [Option.mem_def, skipGaps] at hc
  rwa [hc] at hhead

/-- The list of arguments ends at the first thing that does not fit in it. -/
theorem exists_list_of_arguments_error {cs rest : List Char} (h : arguments cs = .error rest) :
    (∀ c ∈ rest.head?, isGap c = false) ∧
      ((∃ w, Gaps w ∧ cs = w ++ rest) ∨
        ∃ w₁ w₂ inside ls, Gaps w₁ ∧ Gaps w₂ ∧ ListWritten inside ls ∧
          cs = w₁ ++ '(' :: w₂ ++ inside ++ rest) := by
  by_cases hopen : ∃ behind, skipGaps cs = '(' :: behind
  · obtain ⟨behind, hopen⟩ := hopen
    obtain ⟨w₁, w₂, inside, ls, left, h₁, h₂, hlist, hcs, harguments⟩ := arguments_of_open hopen
    rw [harguments] at h
    split at h
    · cases h
    · cases h
      exact ⟨isGap_of_mem_head?_skipGaps left, .inr ⟨w₁, w₂, inside, ls, h₁, h₂, hlist, hcs⟩⟩
  · rw [arguments_of_not_open (not_exists.mp hopen)] at h
    cases h
    exact ⟨isGap_of_mem_head?_skipGaps cs, .inl (exists_gaps_append_skipGaps cs)⟩

/-- What follows a call starts with no separator. -/
theorem isGap_of_mem_head?_of_arguments {cs rest : List Char} {args : List String}
    (h : arguments cs = .ok (args, rest)) : ∀ c ∈ rest.head?, isGap c = false := by
  by_cases hopen : ∃ behind, skipGaps cs = '(' :: behind
  · obtain ⟨behind, hopen⟩ := hopen
    obtain ⟨_, _, _, _, _, _, _, _, _, harguments⟩ := arguments_of_open hopen
    rw [harguments] at h
    split at h
    · cases h
      exact isGap_of_mem_head?_skipGaps _
    · cases h
  · rw [arguments_of_not_open (not_exists.mp hopen)] at h
    cases h

section

variable {w₀ w₁ call rest : List Char} (v : Verb)

/-- Inside the list of arguments. -/
theorem stopsAt_of_arguments_error (h₀ : Gaps w₀) (h₁ : Gaps w₁)
    (h : arguments call = .error rest) : StopsAt (w₀ ++ v.word.toList ++ w₁ ++ call) rest := by
  obtain ⟨hrest, ⟨w, hw, rfl⟩ | ⟨w₁', w₂, inside, ls, h₁', h₂, hlist, rfl⟩⟩ :=
    exists_list_of_arguments_error h
  · refine ⟨⟨w₀ ++ v.word.toList ++ (w₁ ++ w), by simp, ?_⟩, hrest⟩
    exact completable_verb v h₀ (h₁.append hw)
  · refine ⟨⟨w₀ ++ v.word.toList ++ (w₁ ++ w₁') ++ '(' :: w₂ ++ inside, by simp, ?_⟩, hrest⟩
    exact completable_list v h₀ (h₁.append h₁') h₂ hlist

/-- Behind the call. -/
theorem stopsAt_of_arguments_ok {args : List String} (h₀ : Gaps w₀) (h₁ : Gaps w₁)
    (h : arguments call = .ok (args, rest)) :
    StopsAt (w₀ ++ v.word.toList ++ w₁ ++ call) rest := by
  have hrest := isGap_of_mem_head?_of_arguments h
  obtain ⟨w₁', w₂, w₃, inside, ls, h₁', h₂, h₃, hlist, _, rfl⟩ := exists_listWritten_of_arguments h
  refine ⟨⟨w₀ ++ v.word.toList ++ (w₁ ++ w₁') ++ '(' :: w₂ ++ inside ++ ')' :: w₃,
    by simp, ?_⟩, hrest⟩
  refine ⟨[], v, ls, ?_⟩
  rw [List.append_nil]
  exact .call v h₀ (h₁.append h₁') h₂ h₃ hlist

end

theorem stopsAt_of_readChars {text : List Char} {fault : CommandFault}
    (h : readChars text = .error fault) :
    ∃ rest, StopsAt text rest ∧ fault.offset = offsetOf text rest := by
  obtain ⟨w₀, h₀, htext⟩ := exists_gaps_append_skipGaps text
  obtain ⟨w₁, h₁, hcall⟩ :=
    exists_gaps_append_skipGaps ((skipGaps text).dropWhile isWordChar)
  have hstart : StopsAt text (skipGaps text) :=
    ⟨⟨w₀, htext, completable_gaps h₀⟩, isGap_of_mem_head?_skipGaps text⟩
  simp only [readChars] at h
  split at h
  · cases h
    exact ⟨_, hstart, rfl⟩
  split at h
  · cases h
    exact ⟨_, hstart, rfl⟩
  rename_i v hverb
  -- from here on the text starts with a verb
  have hword : v.word.toList = (skipGaps text).takeWhile isWordChar := by
    rw [Verb.word_of_ofWord? hverb, String.toList_ofList]
  have hparts : text = w₀ ++ v.word.toList ++ w₁ ++
      skipGaps ((skipGaps text).dropWhile isWordChar) := by
    rw [List.append_assoc, ← hcall, hword, List.append_assoc, List.takeWhile_append_dropWhile,
      ← htext]
  split at h
  · rename_i rest harguments
    cases h
    refine ⟨rest, ?_, rfl⟩
    rw [hparts]
    exact stopsAt_of_arguments_error v h₀ h₁ harguments
  rename_i args rest harguments
  split at h
  · split at h
    · cases h
    · cases h
      exact ⟨_, ⟨⟨_, hparts, completable_verb v h₀ h₁⟩, isGap_of_mem_head?_skipGaps _⟩, rfl⟩
  · cases h
    refine ⟨rest, ?_, rfl⟩
    rw [hparts]
    exact stopsAt_of_arguments_ok v h₀ h₁ harguments

/-- **A fault points at the right place.**  Its offset lies inside the text or at its
    end, and between two characters.  What stands before it can be completed to a call,
    and the character behind it, if there is one, is none of the four separators. -/
theorem completable_before_fault {text : String} {fault : CommandFault}
    (h : read text = .error fault) :
    fault.offset ≤ text.utf8ByteSize ∧
      ∃ before behind : String, text = before ++ behind ∧ before.utf8ByteSize = fault.offset ∧
        (∀ c ∈ behind.toList.head?, c ≠ ' ' ∧ c ≠ '\t' ∧ c ≠ '\r' ∧ c ≠ '\n') ∧
        Completable before.toList := by
  obtain ⟨rest, ⟨⟨before, htext, hcompletable⟩, hhead⟩, hoffset⟩ := stopsAt_of_readChars h
  have hbefore : (String.ofList before).utf8ByteSize = fault.offset := by
    rw [hoffset, htext, offsetOf_append, byteLength_eq]
  have hsplit : text = String.ofList before ++ String.ofList rest := by
    rw [← String.ofList_append, ← htext, String.ofList_toList]
  refine ⟨?_, String.ofList before, String.ofList rest, hsplit, hbefore, ?_, ?_⟩
  · rw [hsplit, String.utf8ByteSize_append, hbefore]
    exact Nat.le_add_right _ _
  · intro c hc
    rw [String.toList_ofList] at hc
    simpa [isGap, and_assoc] using hhead c hc
  · rw [String.toList_ofList]
    exact hcompletable

/-- An argument without quotes: the fault is at the comma in front of it, behind 33 bytes
    and 32 characters. -/
theorem completable_before_fault_comma :
    let text := "\tremove_outlook_schedule( 'Bär' , 5)"
    read text = .error ⟨.noArguments, 33⟩ ∧ 33 ≤ text.utf8ByteSize ∧
      ∃ before behind : String, text = before ++ behind ∧ before.utf8ByteSize = 33 ∧
        (∀ c ∈ behind.toList.head?, c ≠ ' ' ∧ c ≠ '\t' ∧ c ≠ '\r' ∧ c ≠ '\n') ∧
        Completable before.toList := by
  intro text
  have hread : read text = .error ⟨.noArguments, 33⟩ := by decide +kernel
  exact ⟨hread, completable_before_fault hread⟩

end Datebook.Command
