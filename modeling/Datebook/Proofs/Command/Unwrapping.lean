/-
  Datebook/Proofs/Command/Unwrapping.lean
  =======================================
  **Markup around a command never changes how it is read.**

  A reply may put white space, inline backticks or a fence with an info text around
  a command.  The steps that take these off overlap: white space is trimmed three
  times and backticks twice, a closing fence may be longer than three or missing,
  and whether a first line is an info text is a guess.  What makes them safe is
  that each step only shortens what stands in front of the call (`Lead`) or behind
  it (`Trail`) and leaves the call alone.

  The guess is the one exception.  A first line without a parenthesis is dropped, and
  behind a bare fence such a line can be the beginning of the call itself, if the
  call has a line feed before its parenthesis.
-/
import Datebook.Proofs.Command.Wrapping

namespace Datebook.Command

open Datebook.Text

/-! ### Calls and what stands around them -/

def ticks (k : Nat) : List Char := List.replicate k tick

/-- Backticks and then white space: what may stand in front of a call. -/
def Lead (f : List Char) : Prop :=
  ∃ k p, (∀ c ∈ p, isBlank c = true) ∧ f = ticks k ++ p

/-- White space and then backticks: what may stand behind a call. -/
def Trail (b : List Char) : Prop := Lead b.reverse

/-- A text without white space and backticks at its ends. -/
structure Unadorned (call : List Char) : Prop where
  ne_nil : call ≠ []
  blank : Bare isBlank call
  tick : Bare (· == tick) call

/-- The verb of a call and what stands between it and the parenthesis. -/
def callHead (text : List Char) : List Char := (skipGaps text).takeWhile (· != '(')

theorem lead_blanks {p : List Char} (hp : ∀ c ∈ p, isBlank c = true) : Lead p :=
  ⟨0, p, hp, rfl⟩

theorem trail_ticks {q : List Char} (hq : ∀ c ∈ q, isBlank c = true) (m : Nat) :
    Trail (q ++ ticks m) := by
  refine ⟨m, q.reverse, ?_, ?_⟩
  · intro c hc
    exact hq c (List.mem_reverse.mp hc)
  · rw [List.reverse_append, ticks, List.reverse_replicate]

theorem Unadorned.reverse {call : List Char} (h : Unadorned call) : Unadorned call.reverse :=
  ⟨List.reverse_ne_nil_iff.mpr h.ne_nil, h.blank.reverse, h.tick.reverse⟩

theorem dropWhile_append_of_head {p : Char → Bool} {call : List Char} (hne : call ≠ [])
    (h : ∀ c ∈ call.head?, p c = false) (rest : List Char) :
    (call ++ rest).dropWhile p = call ++ rest := by
  obtain ⟨first, behind, rfl⟩ := List.exists_cons_of_ne_nil hne
  simp [h first rfl]

theorem tick_ne_of_isBlank {c : Char} (h : isBlank c = true) : (c == tick) = false := by
  rw [beq_eq_false_iff_ne]
  rintro rfl
  exact absurd h (by decide)

section

variable {call f b : List Char}

/-! ### Trimming -/

/-- White space in front goes, and what stands before the call goes with it unless it
    starts with a backtick. -/
theorem exists_lead_of_dropWhile (hcall : Unadorned call) (hf : Lead f) {a : List Char}
    (ha : ∀ c ∈ a, isBlank c = true) (rest : List Char) :
    ∃ f', Lead f' ∧ (f' = f ∨ f' = []) ∧
      (a ++ (f ++ (call ++ rest))).dropWhile isBlank = f' ++ (call ++ rest) := by
  obtain ⟨k, p, hp, rfl⟩ := hf
  rw [List.dropWhile_append_of_pos ha]
  cases k with
  | zero =>
    refine ⟨[], lead_blanks (by simp), .inr rfl, ?_⟩
    rw [ticks, List.replicate_zero, List.nil_append, List.dropWhile_append_of_pos hp,
      dropWhile_append_of_head hcall.ne_nil hcall.blank.1, List.nil_append]
  | succ k =>
    refine ⟨_, ⟨k + 1, p, hp, rfl⟩, .inl rfl, ?_⟩
    have htick : isBlank tick = false := by decide
    simp [ticks, List.replicate_succ, htick]

/-- The same behind the call. -/
theorem exists_trail_of_trimEnd (hcall : Unadorned call) (hb : Trail b) {w : List Char}
    (hw : ∀ c ∈ w, isBlank c = true) (front : List Char) :
    ∃ b', Trail b' ∧ trimEnd (front ++ (call ++ (b ++ w))) = front ++ (call ++ b') := by
  have hw' : ∀ c ∈ w.reverse, isBlank c = true := fun c hc => hw c (List.mem_reverse.mp hc)
  obtain ⟨b', hb', _, hdrop⟩ :=
    exists_lead_of_dropWhile hcall.reverse hb hw' front.reverse
  refine ⟨b'.reverse, ?_, ?_⟩
  · rw [Trail, List.reverse_reverse]
    exact hb'
  · have hreverse : (front ++ (call ++ (b ++ w))).reverse =
        w.reverse ++ (b.reverse ++ (call.reverse ++ front.reverse)) := by simp
    rw [trimEnd, hreverse, hdrop]
    simp

theorem exists_trim (hcall : Unadorned call) (hf : Lead f) (hb : Trail b) {a w : List Char}
    (ha : ∀ c ∈ a, isBlank c = true) (hw : ∀ c ∈ w, isBlank c = true) :
    ∃ f' b', Lead f' ∧ (f' = f ∨ f' = []) ∧ Trail b' ∧
      trim (a ++ (f ++ (call ++ (b ++ w)))) = f' ++ (call ++ b') := by
  obtain ⟨f', hf', hfrom, hstart⟩ := exists_lead_of_dropWhile hcall hf ha (b ++ w)
  obtain ⟨b', hb', hend⟩ := exists_trail_of_trimEnd hcall hb hw f'
  refine ⟨f', b', hf', hfrom, hb', ?_⟩
  rw [trim, trimStart, hstart, hend]

/-- The last two steps, off with the backticks and off with the white space, leave the
    call alone. -/
theorem trim_trimChar (hcall : Unadorned call) (hf : Lead f) (hb : Trail b) :
    trim (trimChar tick (f ++ (call ++ b))) = call := by
  obtain ⟨k, p, hp, rfl⟩ := hf
  obtain ⟨m, q, hq, hb⟩ := hb
  have hticks : ∀ j, ∀ c ∈ ticks j, (c == tick) = true := by
    intro j c hc
    rw [List.eq_of_mem_replicate hc, beq_self_eq_true]
  -- behind the backticks stands white space, or the call at once
  have hstop : ∀ {x call : List Char}, (∀ c ∈ x, isBlank c = true) → Unadorned call →
      ∀ j rest, (ticks j ++ (x ++ (call ++ rest))).dropWhile (· == tick) =
        x ++ (call ++ rest) := by
    intro x call hx hcall j rest
    rw [List.dropWhile_append_of_pos (hticks j)]
    cases x with
    | nil => exact dropWhile_append_of_head hcall.ne_nil hcall.tick.1 rest
    | cons c x => simp [tick_ne_of_isBlank (hx c (by simp))]
  have hreverse : (p ++ (call ++ b)).reverse =
      ticks m ++ (q ++ (call.reverse ++ p.reverse)) := by
    rw [List.reverse_append, List.reverse_append, hb]
    simp
  have htrimChar : trimChar tick (ticks k ++ p ++ (call ++ b)) = p ++ call ++ q.reverse := by
    rw [trimChar, List.append_assoc, hstop hp hcall, hreverse, hstop hq hcall.reverse]
    simp
  have hq' : ∀ c ∈ q.reverse, isBlank c = true := fun c hc => hq c (List.mem_reverse.mp hc)
  rw [htrimChar]
  exact trim_append hp hq' hcall.blank

/-! ### Fences -/

theorem ticks_add (j k : Nat) : ticks (j + k) = ticks j ++ ticks k :=
  List.replicate_append_replicate.symm

/-- A lead of fewer than three backticks is no fence. -/
theorem dropLead?_fence_eq_none (hcall : Unadorned call) {k : Nat} (hk : k < 3) {p : List Char}
    (hp : ∀ c ∈ p, isBlank c = true) (rest : List Char) :
    dropLead? fence (ticks k ++ p ++ (call ++ rest)) = none := by
  -- the character behind the backticks is none
  obtain ⟨c, cs, hcs, hc⟩ : ∃ c cs, p ++ (call ++ rest) = c :: cs ∧ tick ≠ c := by
    cases p with
    | nil =>
      obtain ⟨c, cs, rfl⟩ := List.exists_cons_of_ne_nil hcall.ne_nil
      refine ⟨c, cs ++ rest, rfl, ?_⟩
      exact fun h => absurd (hcall.tick.1 c rfl) (by simp [h])
    | cons c p =>
      refine ⟨c, p ++ (call ++ rest), rfl, ?_⟩
      exact fun h => absurd (tick_ne_of_isBlank (hp c (by simp))) (by simp [h])
  rw [List.append_assoc, hcs]
  match k, hk with
  | 0, _ => simp [ticks, fence, dropLead?, hc]
  | 1, _ => simp [ticks, fence, dropLead?, hc]
  | 2, _ => simp [ticks, fence, dropLead?, hc]

theorem exists_dropClosingFence (hcall : Unadorned call) (hb : Trail b) (front : List Char) :
    ∃ b', Trail b' ∧ dropClosingFence (front ++ (call ++ b)) = front ++ (call ++ b') := by
  obtain ⟨m, q, hq, hreverse⟩ := hb
  have hwhole : (front ++ (call ++ b)).reverse =
      ticks m ++ q ++ (call.reverse ++ front.reverse) := by
    rw [← hreverse]
    simp
  by_cases hm : m < 3
  · refine ⟨b, ⟨m, q, hq, hreverse⟩, ?_⟩
    rw [dropClosingFence, hwhole, dropLead?_fence_eq_none hcall.reverse hm hq]
  · obtain ⟨j, rfl⟩ : ∃ j, m = 3 + j := ⟨m - 3, by omega⟩
    refine ⟨(ticks j ++ q).reverse, ⟨j, q, hq, List.reverse_reverse _⟩, ?_⟩
    have hfence : ticks 3 = fence := rfl
    rw [dropClosingFence, hwhole, ticks_add, hfence]
    simp only [List.append_assoc, dropLead?_append]
    simp

/-- What is done inside a fence leaves the call alone. -/
theorem trim_of_fenced (hcall : Unadorned call) (hf : Lead f) (hb : Trail b) :
    trim (trimChar tick (trim (dropClosingFence (f ++ (call ++ b))))) = call := by
  obtain ⟨b', hb', hclosing⟩ := exists_dropClosingFence hcall hb f
  obtain ⟨f'', b'', hf'', _, hb'', htrim⟩ :=
    exists_trim hcall hf hb' (a := []) (w := []) (by simp) (by simp)
  rw [List.nil_append, List.append_nil] at htrim
  rw [hclosing, htrim]
  exact trim_trimChar hcall hf'' hb''

/-! ### Info texts -/

theorem dropInfo_of_line {line : List Char} (hfeed : '\n' ∉ line) (hopen : '(' ∉ line)
    (rest : List Char) : dropInfo (line ++ '\n' :: rest) = rest := by
  rw [dropInfo, splitFirst?_append hfeed]
  simp [hopen]

theorem dropInfo_of_open {front : List Char} (hfeed : '\n' ∉ front) (rest : List Char) :
    dropInfo (front ++ '(' :: rest) = front ++ '(' :: rest := by
  rw [dropInfo, splitFirst?_append_of_not_mem hfeed]
  cases h : splitFirst? '\n' ('(' :: rest) with
  | none => rfl
  | some lines =>
    obtain ⟨line, rest'⟩ := lines
    have hline : '(' ∈ line := by
      simp only [splitFirst?, Char.reduceEq, if_false, Option.map_eq_some_iff, Prod.mk.injEq,
        Prod.exists] at h
      obtain ⟨a, b, _, rfl, _⟩ := h
      exact List.mem_cons_self
    simp [hline]

/-- A first line that ends in front of the call is dropped; the call itself is not taken
    for one, since its parenthesis comes before its first line feed. -/
theorem exists_lead_of_dropInfo (hf : Lead f) {head behind : List Char}
    (hcall : call = head ++ '(' :: behind) (hhead : '\n' ∉ head) (rest : List Char) :
    ∃ f', Lead f' ∧ dropInfo (f ++ (call ++ rest)) = f' ++ (call ++ rest) := by
  obtain ⟨k, p, hp, rfl⟩ := hf
  have hfeed : '\n' ∉ ticks k := fun h => absurd (List.eq_of_mem_replicate h) (by decide)
  have hopen : '(' ∉ ticks k := fun h => absurd (List.eq_of_mem_replicate h) (by decide)
  by_cases hmem : '\n' ∈ p
  · obtain ⟨p₁, p₂, rfl, hp₁⟩ := List.eq_append_cons_of_mem hmem
    have hopen₁ : '(' ∉ p₁ := fun h => absurd (hp '(' (by simp [h])) (by decide)
    refine ⟨p₂, lead_blanks fun c hc => hp c (by simp [hc]), ?_⟩
    have hfeedline : '\n' ∉ ticks k ++ p₁ := by simp [hfeed, hp₁]
    have hopenline : '(' ∉ ticks k ++ p₁ := by simp [hopen, hopen₁]
    have hline := dropInfo_of_line hfeedline hopenline (p₂ ++ (call ++ rest))
    simpa using hline
  · refine ⟨_, ⟨k, p, hp, rfl⟩, ?_⟩
    have hfeedfront : '\n' ∉ ticks k ++ p ++ head := by simp [hfeed, hmem, hhead]
    have hkept := dropInfo_of_open hfeedfront (behind ++ rest)
    rw [hcall]
    simpa using hkept

/-! ### Whole replies -/

variable {a w : List Char}

/-- Without a fence, or behind a bare one. -/
theorem stripMarkupChars_of_lead (hcall : Unadorned call) (hb : Trail b) {k : Nat} {p : List Char}
    (hp : ∀ c ∈ p, isBlank c = true) (ha : ∀ c ∈ a, isBlank c = true)
    (hw : ∀ c ∈ w, isBlank c = true)
    (hhead : 3 ≤ k → ∃ head behind, call = head ++ '(' :: behind ∧ '\n' ∉ head) :
    stripMarkupChars (a ++ (ticks k ++ p ++ (call ++ (b ++ w)))) = call := by
  obtain ⟨f, b', hf, hfrom, hb', htrim⟩ := exists_trim hcall ⟨k, p, hp, rfl⟩ hb ha hw
  rw [stripMarkupChars, htrim]
  by_cases hfence : 3 ≤ k ∧ f ≠ []
  · obtain ⟨hk, hne⟩ := hfence
    obtain ⟨j, rfl⟩ : ∃ j, k = 3 + j := ⟨k - 3, by omega⟩
    obtain ⟨head, behind, hopen, hfeed⟩ := hhead hk
    obtain rfl := hfrom.resolve_right hne
    obtain ⟨f', hf', hinfo⟩ :=
      exists_lead_of_dropInfo (f := ticks j ++ p) ⟨j, p, hp, rfl⟩ hopen hfeed b'
    have hlead : dropLead? fence (ticks (3 + j) ++ p ++ (call ++ b')) =
        some (ticks j ++ p ++ (call ++ b')) := by
      have hthree : ticks 3 = fence := rfl
      rw [ticks_add, hthree]
      simp only [List.append_assoc, dropLead?_append]
    simp only [hlead, hinfo]
    exact trim_of_fenced hcall hf' hb'
  · have hnone : dropLead? fence (f ++ (call ++ b')) = none := by
      rcases hfrom with rfl | rfl
      · refine dropLead?_fence_eq_none hcall (Nat.lt_of_not_le fun hk => hfence ⟨hk, ?_⟩) hp b'
        simp [ticks]
        omega
      · exact dropLead?_fence_eq_none hcall (k := 0) (p := []) (by decide) (by simp) b'
    simp only [hnone]
    exact trim_trimChar hcall hf hb'

/-- Behind a fence with an info text. -/
theorem stripMarkupChars_of_info (hcall : Unadorned call) (hf : Lead f) (hb : Trail b) (j : Nat)
    {info : List Char} (hfeed : '\n' ∉ info) (hopen : '(' ∉ info)
    (ha : ∀ c ∈ a, isBlank c = true) (hw : ∀ c ∈ w, isBlank c = true) :
    stripMarkupChars (a ++ (ticks (3 + j) ++ info ++ '\n' :: (f ++ (call ++ (b ++ w))))) =
      call := by
  have hthree : ticks (3 + j) = fence ++ ticks j := ticks_add 3 j
  have htick : isBlank tick = false := by decide
  obtain ⟨b', hb', hend⟩ :=
    exists_trail_of_trimEnd hcall hb hw (fence ++ (ticks j ++ (info ++ '\n' :: f)))
  have htrim : trim (a ++ (ticks (3 + j) ++ info ++ '\n' :: (f ++ (call ++ (b ++ w))))) =
      fence ++ (ticks j ++ info ++ '\n' :: (f ++ (call ++ b'))) := by
    have hstart : trimStart (a ++ (ticks (3 + j) ++ info ++ '\n' :: (f ++ (call ++ (b ++ w))))) =
        fence ++ (ticks j ++ (info ++ '\n' :: f)) ++ (call ++ (b ++ w)) := by
      rw [trimStart, List.dropWhile_append_of_pos ha, hthree]
      simp [fence, htick]
    rw [trim, hstart, hend]
    simp
  have hfeeds : '\n' ∉ ticks j := fun h => absurd (List.eq_of_mem_replicate h) (by decide)
  have hopens : '(' ∉ ticks j := fun h => absurd (List.eq_of_mem_replicate h) (by decide)
  have hfeedline : '\n' ∉ ticks j ++ info := by simp [hfeeds, hfeed]
  have hopenline : '(' ∉ ticks j ++ info := by simp [hopens, hopen]
  have hinfo := dropInfo_of_line hfeedline hopenline (f ++ (call ++ b'))
  rw [stripMarkupChars, htrim]
  simp only [dropLead?_append, hinfo]
  exact trim_of_fenced hcall hf hb'

end

/-- A call with nothing around it holds no markup. -/
theorem stripMarkupChars_of_unadorned {call : List Char} (hcall : Unadorned call) :
    stripMarkupChars call = call := by
  have hnone : ∀ c ∈ ([] : List Char), isBlank c = true := by simp
  simpa [ticks] using stripMarkupChars_of_lead hcall (trail_ticks hnone 0) (k := 0) hnone hnone
    hnone (by simp)

/-! ### Calls that are read -/

theorem bare_call {p : Char → Bool} (hword : ∀ v : Verb, v.word.toList.head?.any p = false)
    (hclose : p ')' = false) (v : Verb) (middle : List Char) :
    Bare p (v.word.toList ++ middle ++ [')']) := by
  constructor
  · obtain ⟨first, word, hfirst⟩ := List.exists_cons_of_ne_nil (word_ne_nil v)
    have hp : p first = false := by simpa [hfirst] using hword v
    simp [hfirst, hp]
  · rw [List.getLast?_concat]
    simp [hclose]

/-- A call starts with its verb and ends with a parenthesis. -/
theorem unadorned_call (v : Verb) (middle : List Char) :
    Unadorned (v.word.toList ++ middle ++ [')']) where
  ne_nil := by simp
  blank := bare_call (fun v => by cases v <;> decide) (by decide) v middle
  tick := bare_call (fun v => by cases v <;> decide) (by decide) v middle

/-- A text that is read is a call between separators. -/
theorem exists_call_of_readChars {t : List Char} {c : Command} (h : readChars t = .ok c) :
    ∃ w₀ w₃ call head behind, Gaps w₀ ∧ Gaps w₃ ∧ t = w₀ ++ (call ++ w₃) ∧
      readChars call = .ok c ∧ Unadorned call ∧ call = head ++ '(' :: behind ∧
      callHead t = head := by
  obtain ⟨ls, hwritten, hparameters⟩ := written_of_readChars h
  obtain @⟨w₀, w₁, w₂, w₃, inside, _, _, h₀, h₁, h₂, h₃, hlist⟩ := hwritten
  have hcall := unadorned_call c.verb (w₁ ++ '(' :: w₂ ++ inside)
  have hread := readChars_of_written (.call c.verb gaps_nil h₁ h₂ gaps_nil hlist) hparameters
  refine ⟨w₀, w₃, _, c.verb.word.toList ++ w₁, w₂ ++ inside ++ [')'], h₀, h₃, ?_, ?_, hcall, ?_, ?_⟩
  · simp
  · simpa using hread
  · simp
  · have hopen : ∀ x ∈ c.verb.word.toList ++ w₁, (x != '(') = true := by
      intro x hx
      rw [bne_iff_ne]
      rintro rfl
      rcases List.mem_append.mp hx with hx | hx
      · exact absurd (isWordChar_of_mem_word c.verb _ hx) (by decide)
      · exact absurd (h₁ _ hx) (by decide)
    have hstart := skipGaps_word h₀ c.verb (w₁ ++ '(' :: (w₂ ++ (inside ++ ')' :: w₃)))
    rw [callHead]
    simp only [List.append_assoc, List.cons_append] at hstart ⊢
    rw [hstart, ← List.append_assoc, List.takeWhile_append_of_pos hopen]
    simp

/-- **Markup never changes the reading of a command.**  White space and backticks may
    stand around a text that is read, any number of either; three backticks or more in
    front are a fence.  Behind a fence may come an info text and a line feed, or the text
    at once if it has no line feed between its verb and its parenthesis. -/
theorem read_stripMarkup_wrapped {t : String} {c : Command} (ht : read t = .ok c)
    {a b p q : String} (ha : ∀ x ∈ a.toList, isBlank x = true)
    (hb : ∀ x ∈ b.toList, isBlank x = true) (hp : ∀ x ∈ p.toList, isBlank x = true)
    (hq : ∀ x ∈ q.toList, isBlank x = true) (k m : Nat) :
    (k ≤ 2 → read (stripMarkup
      (a ++ String.ofList (ticks k) ++ p ++ t ++ q ++ String.ofList (ticks m) ++ b)) = .ok c) ∧
    (3 ≤ k → '\n' ∉ callHead t.toList → read (stripMarkup
      (a ++ String.ofList (ticks k) ++ p ++ t ++ q ++ String.ofList (ticks m) ++ b)) = .ok c) ∧
    (3 ≤ k → ∀ info : String, '\n' ∉ info.toList → '(' ∉ info.toList → read (stripMarkup
      (a ++ String.ofList (ticks k) ++ info ++ "\n" ++ p ++ t ++ q ++ String.ofList (ticks m) ++ b))
        = .ok c) := by
  obtain ⟨w₀, w₃, call, head, behind, h₀, h₃, hsplit, hread, hcall, hopen, hhead⟩ :=
    exists_call_of_readChars ht
  have hlead : ∀ x ∈ p.toList ++ w₀, isBlank x = true := List.forall_mem_append.mpr ⟨hp, h₀.isBlank⟩
  have htrail : ∀ x ∈ w₃ ++ q.toList, isBlank x = true := List.forall_mem_append.mpr ⟨h₃.isBlank, hq⟩
  have hwrapped : (3 ≤ k → '\n' ∉ callHead t.toList) → read (stripMarkup
      (a ++ String.ofList (ticks k) ++ p ++ t ++ q ++ String.ofList (ticks m) ++ b)) = .ok c := by
    intro hfeed
    have hstrip := stripMarkupChars_of_lead hcall (trail_ticks htrail m) (k := k) hlead ha hb
      fun hk => ⟨head, behind, hopen, hhead ▸ hfeed hk⟩
    rw [read, stripMarkup, String.toList_ofList]
    simp only [String.toList_append, String.toList_ofList, hsplit]
    simp only [List.append_assoc] at hstrip ⊢
    rw [hstrip, hread]
  refine ⟨fun hk => hwrapped fun hk' => absurd hk' (by omega), fun _ hfeed => hwrapped fun _ => hfeed,
    ?_⟩
  intro hk info hfeed hopening
  obtain ⟨j, rfl⟩ : ∃ j, k = 3 + j := ⟨k - 3, by omega⟩
  have hstrip := stripMarkupChars_of_info hcall (lead_blanks hlead) (trail_ticks htrail m) j hfeed
    hopening ha hb
  have hline : "\n".toList = ['\n'] := rfl
  rw [read, stripMarkup, String.toList_ofList]
  simp only [String.toList_append, String.toList_ofList, hsplit, hline]
  simp only [List.append_assoc, List.cons_append, List.nil_append] at hstrip ⊢
  rw [hstrip, hread]

/-- Backticks, parentheses and a line feed inside an argument, with a fence of four and an
    info text, and a closing fence of five. -/
theorem read_stripMarkup_wrapped_fence :
    let t := "\tremove_outlook_schedule\n('\x60\x60\x60(\n)\x60')\r\n"
    read t = .ok (.remove "\x60\x60\x60(\n)\x60") ∧
    read (stripMarkup ("\u00a0" ++ String.ofList (ticks 4) ++ "odsl \x60" ++ "\n" ++ "\u2003" ++ t ++
      "\u2028" ++ String.ofList (ticks 5) ++ "\n")) =
        .ok (.remove "\x60\x60\x60(\n)\x60") := by
  intro t
  have hread : read t = .ok (.remove "\x60\x60\x60(\n)\x60") := by decide +kernel
  have hall : ∀ s ∈ ["\u00a0", "\u2003", "\u2028", "\n"], s.toList.all isBlank = true := by
    decide
  refine ⟨hread, ?_⟩
  refine (read_stripMarkup_wrapped hread ?_ ?_ ?_ ?_ 4 5).2.2 (by decide) _ (by decide) (by decide)
  all_goals exact List.all_eq_true.mp (hall _ (by simp))

/-- The line feed matters: behind a bare fence the verb alone passes for an info text. -/
example : read "list_outlook_schedule\n()" = .ok .list ∧
    stripMarkup "\x60\x60\x60list_outlook_schedule\n()\x60\x60\x60" = "()" := by
  decide +kernel

end Datebook.Command
