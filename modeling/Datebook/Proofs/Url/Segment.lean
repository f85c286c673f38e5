/-
  Datebook/Proofs/Url/Segment.lean
  ================================
  **When a text behind an address is one segment of its path.**

  A text that is put behind an address with a slash should make one more segment, and
  be what is read from that segment.  It does so if and only if it is an `IsSegment`
  and the address has no query and no fragment (`extends_iff`): a slash or a backslash
  would make more segments, a question mark or a hash sign would end the path, dots
  would take segments away, tabs, line ends and blanks at the end would be lost, and an
  escape would be undone.  Two such texts never have the same target
  (`Extends.target_injective`).
-/
import Datebook.Proofs.Url.Escape
import Datebook.Proofs.Url.Extension

namespace Datebook.Url

open Datebook.Text

/-! ### Segments -/

/-- A text that stays as it is, and stays in one piece, at the end of a path. -/
structure IsSegment (cs : List Char) : Prop where
  plain : ∀ c ∈ cs, c ∉ ['/', '\\', '?', '#', '\t', '\n', '\r']
  not_outer : ∀ c ∈ cs.getLast?, isOuter c = false
  ne_dot : cs ≠ ['.']
  ne_dots : cs ≠ ['.', '.']
  noEscape : NoEscape cs

theorem toLower_eq_or (c : Char) :
    c.toLower = c ∨ ∃ n : Fin 26, c = Char.ofNat (65 + n) := by
  unfold Char.toLower
  split
  · rename_i hc
    have hlow : 65 ≤ c.toNat := hc.1
    have hhigh : c.toNat ≤ 90 := hc.2
    refine .inr ⟨⟨c.toNat - 65, by omega⟩, ?_⟩
    rw [Nat.add_sub_cancel' hlow, Char.ofNat_toNat]
  · exact .inl rfl

theorem eq_of_toLower {c d : Char} (h : c.toLower = d) (hd : d < 'a') : c = d := by
  rcases toLower_eq_or c with hc | ⟨n, rfl⟩
  · rw [← h, hc]
  · have hall : ∀ n : Fin 26, ¬ (Char.ofNat (65 + n)).toLower < 'a' := by decide
    rw [← h] at hd
    exact absurd hd (hall n)

theorem hexValue?_of_toLower {c : Char} (h : c.toLower = 'e') : (hexValue? c).isSome := by
  rcases toLower_eq_or c with hc | ⟨n, rfl⟩
  · rw [← hc, h]
    decide
  · have hall : ∀ n : Fin 26, (Char.ofNat (65 + n)).toLower = 'e' →
        (hexValue? (Char.ofNat (65 + n))).isSome := by decide
    exact hall n h

/-- Where nothing is escaped, no dot is. -/
theorem NoEscape.not_escaped_dot {cs small : List Char} (h : NoEscape cs)
    (hsmall : cs.map Char.toLower = small) : ¬ ['%', '2', 'e'] <:+: small := by
  rintro ⟨s, t, rfl⟩
  obtain ⟨before, after, rfl, hbefore, _⟩ := List.map_eq_append_iff.mp hsmall
  obtain ⟨before, middle, rfl, _, hmiddle⟩ := List.map_eq_append_iff.mp hbefore
  simp only [List.map_eq_cons_iff, List.map_eq_nil_iff] at hmiddle
  obtain ⟨p, _, rfl, hp, a, _, rfl, ha, b, _, rfl, hb, rfl⟩ := hmiddle
  obtain rfl := eq_of_toLower hp (by decide)
  obtain rfl := eq_of_toLower ha (by decide)
  exact h '2' b (by decide) (hexValue?_of_toLower hb) ⟨before, after, rfl⟩

namespace IsSegment

variable {cs : List Char}

instance : DecidablePred IsSegment := fun cs =>
  decidable_of_iff
    ((cs.all fun c => decide (c ∉ ['/', '\\', '?', '#', '\t', '\n', '\r'])) = true ∧
      (cs.getLast?.all fun c => !isOuter c) = true ∧ cs ≠ ['.'] ∧ cs ≠ ['.', '.'] ∧ NoEscape cs)
    (by
      simp only [List.all_eq_true, Option.all_eq_true, decide_eq_true_eq, Bool.not_eq_true']
      exact ⟨fun h => ⟨h.1, h.2.1, h.2.2.1, h.2.2.2.1, h.2.2.2.2⟩,
        fun h => ⟨h.plain, h.not_outer, h.ne_dot, h.ne_dots, h.noEscape⟩⟩)

theorem not_isSingleDot (h : IsSegment cs) : isSingleDot cs = false := by
  rw [isSingleDot, Bool.or_eq_false_iff, decide_eq_false_iff_not, decide_eq_false_iff_not]
  exact ⟨h.ne_dot, fun hdot => h.noEscape.not_escaped_dot hdot (List.infix_refl _)⟩

theorem not_isDoubleDot (h : IsSegment cs) : isDoubleDot cs = false := by
  have hdots : cs.map Char.toLower ≠ ['.', '.'] := by
    intro hdots
    simp only [List.map_eq_cons_iff, List.map_eq_nil_iff] at hdots
    obtain ⟨a, _, rfl, ha, b, _, rfl, hb, rfl⟩ := hdots
    obtain rfl := eq_of_toLower ha (by decide)
    obtain rfl := eq_of_toLower hb (by decide)
    exact h.ne_dots rfl
  simp only [isDoubleDot, Bool.or_eq_false_iff, decide_eq_false_iff_not]
  refine ⟨⟨⟨hdots, ?_⟩, ?_⟩, ?_⟩ <;>
    exact fun hdots => h.noEscape.not_escaped_dot hdots (by decide)

theorem cleanEnd_eq (h : IsSegment cs) : cleanEnd cs = cs := by
  refine cleanEnd_eq_self_iff.mpr ⟨fun c hc => ?_, h.not_outer⟩
  have hplain := h.plain c hc
  simp only [List.mem_cons, not_or] at hplain
  simp [isKept, hplain]

theorem slashed_eq (h : IsSegment cs) : slashed cs = cs :=
  slashed_eq_self_iff.mpr fun hback => h.plain _ hback (by decide)

end IsSegment

/-- The two are asked of the same server, under the same name and password. -/
structure SameServer (u v : Url) : Prop where
  secure : v.secure = u.secure
  userInfo : v.userInfo = u.userInfo
  host : v.host = u.host
  port : v.port = u.port

theorem sameServer_ask (s : Url) (rest rest' : List Char) :
    SameServer (s.ask rest) (s.ask rest') := ⟨rfl, rfl, rfl, rfl⟩

theorem IsSegment.addSegment_eq {cs : List Char} (h : IsSegment cs) (sofar : List (List Char))
    (isLast : Bool) : addSegment sofar cs isLast = percentEncode keepInPath cs :: sofar := by
  rw [addSegment, h.not_isDoubleDot, h.not_isSingleDot]
  rfl

theorem IsSegment.splitAt_eq {cs : List Char} (h : IsSegment cs) :
    splitAt '/' (slashed cs) = [cs] := by
  rw [h.slashed_eq]
  refine splitAt_of_not_mem fun hslash => ?_
  exact h.plain _ hslash (by decide)

section

variable {a name : List Char} {c d : Char} (hc : Solid c) (hd : Solid d)
  (hname : IsSegment (name ++ [d]))

include hc hd hname

/-- A text behind an address leaves the server as it is, and comes behind all
    else that the server is asked for. -/
theorem exists_ask {u : Url} (hu : readChars? (a ++ c :: '/' :: (name ++ [d])) = some u) :
    ∃ s rest, u = ask s (rest ++ '/' :: (name ++ [d])) ∧
      (∀ x, readChars? ((a ++ c :: '/' :: name) ++ d :: '/' :: x) =
        some (s.ask (rest ++ '/' :: ((name ++ [d]) ++ '/' :: cleanEnd x)))) ∧
      ∀ m, m = '?' ∨ m = '#' →
        (m ∈ rest ++ '/' :: (name ++ [d]) ↔ m ∈ a ++ c :: '/' :: (name ++ [d])) := by
  have hparts := parts?_append hc a (name ++ [d])
  rw [hname.cleanEnd_eq] at hparts
  rw [readChars?_eq, Option.bind_eq_some_iff] at hu
  obtain ⟨p, hp, hserver⟩ := hu
  obtain ⟨s, hs, rfl⟩ := Option.map_eq_some_iff.mp hserver
  have hmarks := fun m hm => mem_rest_iff hp (c := m) hm
  rw [hparts] at hp
  obtain ⟨q, hq, rfl⟩ := Option.map_eq_some_iff.mp hp
  refine ⟨s, q.rest, rfl, ?_, hmarks⟩
  intro x
  have hcollection : (a ++ c :: '/' :: name) ++ [d] = a ++ c :: '/' :: (name ++ [d]) := by simp
  rw [readChars?_append hd, hcollection, hparts, hq]
  simp [hs]

end

/-- The path of an address goes on with the segments of what is behind it. -/
theorem exists_path (s : Url) (rest : List Char) {name : List Char} (hname : IsSegment name)
    (hquery : '?' ∉ rest ++ '/' :: name) (hhash : '#' ∉ rest ++ '/' :: name) :
    ∃ path : List (List Char),
      s.ask (rest ++ '/' :: name) = { s with path := path.reverse.map String.ofList, query := none } ∧
      ∀ y, '?' ∉ y → '#' ∉ y →
        s.ask (rest ++ '/' :: (name ++ '/' :: y)) =
          { s with
            path := (addSegments path (splitAt '/' (slashed y))).reverse.map String.ofList
            query := none } := by
  obtain ⟨before, hbefore⟩ := exists_splitAt_dropSlash rest
  refine ⟨percentEncode keepInPath name ::
    before.foldl (fun path s => addSegment path s false) [], ?_, ?_⟩
  · rw [ask_of_plain hquery hhash, readPath_eq, hbefore, hname.splitAt_eq,
      addSegments_append _ _ (by simp), addSegments, hname.addSegment_eq]
  · intro y hqueryy hhashy
    have hslashed : splitAt '/' (slashed (name ++ '/' :: y)) =
        [name] ++ splitAt '/' (slashed y) := by
      rw [← hname.splitAt_eq, ← splitAt_append]
      simp [slashed]
    have hmark {m : Char} (hm : m ≠ '/') (h : m ∉ rest ++ '/' :: name) (hy : m ∉ y) :
        m ∉ rest ++ '/' :: (name ++ '/' :: y) := by
      simp_all
    rw [ask_of_plain (hmark (by decide) hquery hqueryy) (hmark (by decide) hhash hhashy),
      readPath_eq, hbefore, hslashed, ← List.append_assoc,
      addSegments_append _ _ (splitAt_ne_nil _ _), List.foldl_append, List.foldl_cons,
      List.foldl_nil, hname.addSegment_eq]

/-! ### What becomes of the text -/

theorem length_utf8_le_of_sublist {a b : List Char} (h : a.Sublist b) :
    (a.flatMap utf8).length ≤ (b.flatMap utf8).length := by
  induction h with
  | slnil => exact Nat.le_refl _
  | cons c h ih =>
    rw [List.flatMap_cons, List.length_append]
    exact Nat.le_trans ih (Nat.le_add_left _ _)
  | cons_cons c h ih =>
    rw [List.flatMap_cons, List.flatMap_cons, List.length_append, List.length_append]
    exact Nat.add_le_add_left ih _

/-- Characters that are left out take bytes with them. -/
theorem eq_of_sublist_of_bytes {a b : List Char} (h : a.Sublist b)
    (hbytes : (b.flatMap utf8).length ≤ (a.flatMap utf8).length) : a = b := by
  induction h with
  | slnil => rfl
  | cons c h ih =>
    have hpos := List.length_pos_iff.mpr (utf8_ne_nil c)
    have hle := length_utf8_le_of_sublist h
    rw [List.flatMap_cons, List.length_append] at hbytes
    omega
  | cons_cons c h ih =>
    rw [List.flatMap_cons, List.flatMap_cons, List.length_append, List.length_append] at hbytes
    rw [ih (Nat.le_of_add_le_add_left hbytes)]

/-- The last segment of a path is empty, or it is the last piece of what was written. -/
theorem exists_last_segment (path : List (List Char)) (y : List Char) :
    ∃ segment front piece, addSegments path (splitAt '/' (slashed y)) = segment :: front ∧
      piece <:+ slashed y ∧ '/' ∉ piece ∧
      (segment = [] ∨ segment = percentEncode keepInPath piece ∧
        isSingleDot piece = false ∧ isDoubleDot piece = false) := by
  obtain ⟨before, piece, hsplit, hslash, hsuffix⟩ := exists_splitAt_eq_append '/' (slashed y)
  rw [hsplit, addSegments_append _ _ (by simp), addSegments, addSegment]
  split
  · exact ⟨[], _, piece, rfl, hsuffix, hslash, .inl rfl⟩
  · rename_i hdouble
    split
    · exact ⟨[], _, piece, rfl, hsuffix, hslash, .inl rfl⟩
    · rename_i hsingle
      rw [Bool.not_eq_true] at hdouble hsingle
      exact ⟨_, _, piece, rfl, hsuffix, hslash, .inr ⟨rfl, hsingle, hdouble⟩⟩

/-- A text of which nothing was lost on the way to its last segment. -/
theorem isSegment_of_suffix {cs : List Char} (hsuffix : cs <:+ slashed (cleanEnd cs))
    (hslash : '/' ∉ cs) (hquery : '?' ∉ cs) (hhash : '#' ∉ cs) (hsingle : isSingleDot cs = false)
    (hdouble : isDoubleDot cs = false) (hescape : NoEscape cs) : IsSegment cs := by
  have hcleaned : cleanEnd cs = cs :=
    (cleanEnd_sublist cs).eq_of_length_le (suffix_of_suffix_slashed hsuffix hslash).length_le
  obtain ⟨hkept, hlast⟩ := cleanEnd_eq_self_iff.mp hcleaned
  have hback : '\\' ∉ cs := by
    rw [hcleaned] at hsuffix
    exact slashed_eq_self_iff.mp (hsuffix.eq_of_length (by rw [slashed, List.length_map])).symm
  refine ⟨?_, hlast, ?_, ?_, hescape⟩
  · intro c hc hmem
    have hkeptc := hkept c hc
    simp only [List.mem_cons, List.not_mem_nil, or_false] at hmem
    rcases hmem with rfl | rfl | rfl | rfl | rfl | rfl | rfl
    · exact hslash hc
    · exact hback hc
    · exact hquery hc
    · exact hhash hc
    all_goals exact absurd hkeptc (by decide)
  · rintro rfl
    exact absurd hsingle (by decide)
  · rintro rfl
    exact absurd hdouble (by decide)

/-- `v` is `u` with one more segment, which is read as `id`, and without a query. -/
def Extends (u : Url) (id : String) (v : Url) : Prop :=
  ∃ segment, v = { u with path := u.path ++ [segment], query := none } ∧
    textOfBytes? (percentDecode segment.toList) = some id

theorem isSegment_of_decode {path : List (List Char)} {front : List String} {segment id : String}
    (hpath : (addSegments path (splitAt '/' (slashed (cleanEnd id.toList)))).reverse.map
      String.ofList = front ++ [segment])
    (hid : textOfBytes? (percentDecode segment.toList) = some id) (hquery : '?' ∉ id.toList)
    (hhash : '#' ∉ id.toList) : IsSegment id.toList := by
  obtain ⟨last, front', piece, hadd, hsuffix, hslash, hlast⟩ :=
    exists_last_segment path (cleanEnd id.toList)
  rw [hadd, List.reverse_cons, List.map_append] at hpath
  have hsegment : String.ofList last = segment := by
    simpa using (List.append_inj' hpath rfl).2
  rw [← hsegment, String.toList_ofList] at hid
  have hbytes := length_of_textOfBytes? hid
  rcases hlast with rfl | ⟨rfl, hsingle, hdouble⟩
  · have hempty : [] = id.toList :=
      eq_of_sublist_of_bytes (List.nil_sublist _) (Nat.le_of_eq hbytes)
    rw [← hempty]
    decide
  · rw [percentDecode_percentEncode] at hbytes
    -- The piece is a part of the id, and the id has no more bytes than it.
    have hpart : piece.Sublist id.toList :=
      (suffix_of_suffix_slashed hsuffix hslash).sublist.trans (cleanEnd_sublist _)
    obtain rfl : piece = id.toList := by
      refine eq_of_sublist_of_bytes hpart ?_
      rw [hbytes]
      exact length_percentDecode_le piece
    exact isSegment_of_suffix hsuffix hslash hquery hhash hsingle hdouble
      (noEscape_of_length_le (Nat.le_of_eq hbytes))

/-- **A text behind an address is one segment of its path** if and only if it is in one
    piece and nothing of it is lost, and the address has neither query nor fragment.  The
    server is the same in every case. -/
theorem extends_iff {a name : List Char} {c d : Char} (hc : Solid c) (hd : Solid d)
    (hname : IsSegment (name ++ [d])) {u : Url}
    (hu : readChars? (a ++ c :: '/' :: (name ++ [d])) = some u) (id : String) :
    ∃ v, readChars? ((a ++ c :: '/' :: name) ++ d :: '/' :: id.toList) = some v ∧
      SameServer u v ∧
      ((u.Extends id v ∧ '#' ∉ (a ++ c :: '/' :: name) ++ d :: '/' :: id.toList) ↔
        ('?' ∉ a ++ c :: '/' :: (name ++ [d]) ∧ '#' ∉ a ++ c :: '/' :: (name ++ [d])) ∧
          IsSegment id.toList) := by
  obtain ⟨s, rest, rfl, hread, hmarks⟩ := exists_ask hc hd hname hu
  have hhash : '#' ∉ (a ++ c :: '/' :: name) ++ d :: '/' :: id.toList ↔
      '#' ∉ a ++ c :: '/' :: (name ++ [d]) ∧ '#' ∉ id.toList := by
    simp [and_assoc]
  refine ⟨_, hread id.toList, sameServer_ask s _ _, ?_⟩
  rw [hhash, ← hmarks '?' (.inl rfl), ← hmarks '#' (.inr rfl)]
  constructor
  · rintro ⟨⟨segment, hv, hid⟩, hcollection, hhashid⟩
    have hhashend : '#' ∉ cleanEnd id.toList := by
      rwa [mem_cleanEnd (by decide)]
    have hquery : '?' ∉ rest ++ '/' :: ((name ++ [d]) ++ '/' :: cleanEnd id.toList) := by
      intro hmem
      refine query_ask_ne_none hmem ?_ (congrArg Url.query hv)
      simp_all
    have hqueryend : '?' ∉ cleanEnd id.toList := by simp_all
    have hquerycollection : '?' ∉ rest ++ '/' :: (name ++ [d]) := by simp_all
    obtain ⟨path, hu, hbehind⟩ := exists_path s rest hname hquerycollection hcollection
    rw [hbehind _ hqueryend hhashend, hu] at hv
    rw [mem_cleanEnd (by decide)] at hqueryend
    exact ⟨⟨hquerycollection, hcollection⟩,
      isSegment_of_decode (congrArg Url.path hv) hid hqueryend hhashid⟩
  · rintro ⟨⟨hquery, hcollection⟩, hid⟩
    have hhashid : '#' ∉ id.toList := fun hmem => hid.plain _ hmem (by decide)
    have hqueryid : '?' ∉ id.toList := fun hmem => hid.plain _ hmem (by decide)
    obtain ⟨path, hu, hbehind⟩ := exists_path s rest hname hquery hcollection
    refine ⟨⟨String.ofList (percentEncode keepInPath id.toList), ?_, ?_⟩, hcollection, hhashid⟩
    · rw [hid.cleanEnd_eq, hbehind _ hqueryid hhashid, hu, hid.splitAt_eq, addSegments,
        hid.addSegment_eq]
      simp
    · rw [String.toList_ofList]
      exact decode_percentEncode hid.noEscape

/-- What was put behind an address can be told from the target. -/
theorem Extends.target_injective {u v v' : Url} {id id' : String} (h : u.Extends id v)
    (h' : u.Extends id' v') (htarget : v.target = v'.target) : id = id' := by
  obtain ⟨segment, rfl, hid⟩ := h
  obtain ⟨segment', rfl, hid'⟩ := h'
  simp only [target, List.foldl_append, List.foldl_cons, List.foldl_nil] at htarget
  have hsegment : segment = segment' := String.append_right_inj _ |>.mp htarget
  rw [hsegment, hid'] at hid
  exact (Option.some.inj hid).symm

end Datebook.Url
