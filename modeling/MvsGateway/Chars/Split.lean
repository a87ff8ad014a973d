import MvsGateway.Chars.Blank

/-!
# Pieces of a text

Cutting a text at separators, joining pieces again, and the two cuts with
rules of their own: words between white space, and lines.
-/

namespace MvsGateway.Chars

/-- The pieces between the characters that satisfy `sep`. There is always at
least one piece, and two separators in a row leave an empty one. -/
def splitBy (sep : Char → Bool) : List Char → List (List Char)
  | [] => [[]]
  | c :: r =>
    if sep c then [] :: splitBy sep r
    else match splitBy sep r with
      | [] => [[c]]
      | piece :: pieces => (c :: piece) :: pieces

def splitAt (sep : Char) (s : List Char) : List (List Char) := splitBy (· == sep) s

/-- The pieces one after the other with `sep` between two of them. -/
def joinWith (sep : Char) : List (List Char) → List Char
  | [] => []
  | [piece] => piece
  | piece :: next :: rest => piece ++ sep :: joinWith sep (next :: rest)

/-- The maximal runs of characters that are not white space. -/
def words (s : List Char) : List (List Char) :=
  (splitBy isBlank s).filter (!·.isEmpty)

/-- The lines of a text. A line feed ends a line, together with a carriage
return right before it; a last line may lack its end. -/
def lines : List Char → List (List Char)
  | [] => []
  | '\n' :: r => [] :: lines r
  | '\r' :: '\n' :: r => [] :: lines r
  | c :: r =>
    match lines r with
    | [] => [[c]]
    | line :: rest => (c :: line) :: rest

/-- The text before and after the first place where `p` holds of the rest. -/
def cutWhere (p : List Char → Bool) : List Char → Option (List Char × List Char)
  | [] => none
  | c :: r =>
    if p (c :: r) then some ([], c :: r)
    else (cutWhere p r).map fun (before, after) => (c :: before, after)

/-- The text before and after the first occurrence of `sep`. -/
def cutAt (sep : List Char) (s : List Char) : Option (List Char × List Char) :=
  (cutWhere (sep.isPrefixOf ·) s).map fun (before, after) => (before, after.drop sep.length)

/-- The text without its last character, when that is `c`. -/
def dropLast? (c : Char) (s : List Char) : Option (List Char) :=
  if s.getLast? = some c then some s.dropLast else none

theorem splitBy_ne_nil (sep : Char → Bool) (s : List Char) : splitBy sep s ≠ [] := by
  cases s with
  | nil => simp [splitBy]
  | cons c r =>
    simp only [splitBy]
    split
    · simp
    · split <;> simp

/-! ## Cutting at a text -/

theorem cutWhere_eq_some {p : List Char → Bool} {s before after : List Char}
    (h : cutWhere p s = some (before, after)) : s = before ++ after ∧ p after = true := by
  induction s generalizing before with
  | nil => simp [cutWhere] at h
  | cons c r ih =>
    unfold cutWhere at h
    split at h
    · rename_i hp
      cases h
      exact ⟨rfl, hp⟩
    · obtain ⟨⟨b, a⟩, hcut, heq⟩ := Option.map_eq_some_iff.1 h
      cases heq
      obtain ⟨rfl, hp⟩ := ih hcut
      exact ⟨rfl, hp⟩

/-- The two sides of the cut make up the text around it. -/
theorem eq_append_of_cutAt {sep s before after : List Char}
    (h : cutAt sep s = some (before, after)) : s = before ++ (sep ++ after) := by
  obtain ⟨⟨b, a⟩, hcut, heq⟩ := Option.map_eq_some_iff.1 h
  cases heq
  obtain ⟨rfl, hp⟩ := cutWhere_eq_some hcut
  obtain ⟨rest, rfl⟩ := List.isPrefixOf_iff_prefix.1 hp
  rw [List.drop_left]

/-- What stands behind the cut is the end of the text. -/
theorem suffix_of_cutAt {sep s before after : List Char}
    (h : cutAt sep s = some (before, after)) : after <:+ s := by
  rw [eq_append_of_cutAt h, ← List.append_assoc]
  exact List.suffix_append _ after

/-- The cut is at the first occurrence. -/
theorem not_infix_of_cutWhere {sep s before after : List Char} (hsep : sep ≠ [])
    (h : cutWhere (sep.isPrefixOf ·) s = some (before, after)) : ¬sep <:+: before := by
  induction s generalizing before with
  | nil => cases h
  | cons d r ih =>
    unfold cutWhere at h
    split at h
    · cases h
      exact fun hinfix => hsep (List.infix_nil.1 hinfix)
    · rename_i hd
      obtain ⟨⟨front, rest⟩, hcut, heq⟩ := Option.map_eq_some_iff.1 h
      cases heq
      obtain ⟨rfl, _⟩ := cutWhere_eq_some hcut
      intro hinfix
      rcases List.infix_cons_iff.1 hinfix with hprefix | hinfix
      · apply hd
        rw [List.isPrefixOf_iff_prefix, ← List.cons_append]
        exact hprefix.trans (List.prefix_append _ _)
      · exact ih hcut hinfix

theorem not_infix_of_cutAt {sep s before after : List Char} (hsep : sep ≠ [])
    (h : cutAt sep s = some (before, after)) : ¬sep <:+: before := by
  obtain ⟨⟨b, a⟩, hcut, heq⟩ := Option.map_eq_some_iff.1 h
  cases heq
  exact not_infix_of_cutWhere hsep hcut

/-- Two places with the same two different characters do not overlap, so that
the cut is at any place with no other before it. -/
theorem cutAt_pair_iff {c d : Char} (hne : c ≠ d) {s before after : List Char} :
    cutAt [c, d] s = some (before, after) ↔
      s = before ++ c :: d :: after ∧ ¬[c, d] <:+: before := by
  constructor
  · exact fun h => ⟨eq_append_of_cutAt h, not_infix_of_cutAt (List.cons_ne_nil c [d]) h⟩
  · rintro ⟨rfl, hbefore⟩
    have hcut : cutWhere ([c, d].isPrefixOf ·) (before ++ c :: d :: after) =
        some (before, c :: d :: after) := by
      induction before with
      | nil => simp [cutWhere, List.isPrefixOf]
      | cons e r ih =>
        rw [List.infix_cons_iff, not_or] at hbefore
        have hfront : ¬[c, d].isPrefixOf (e :: (r ++ c :: d :: after)) = true := by
          intro hprefix
          rw [List.isPrefixOf_iff_prefix, List.cons_prefix_cons] at hprefix
          obtain ⟨rfl, hprefix⟩ := hprefix
          cases r with
          | nil => exact hne (List.cons_prefix_cons.1 hprefix).1.symm
          | cons f r =>
            obtain ⟨rfl, _⟩ := List.cons_prefix_cons.1 hprefix
            exact hbefore.1 ⟨r, rfl⟩
        rw [List.cons_append, cutWhere, if_neg hfront, ih hbefore.2]
        rfl
    rw [cutAt, hcut]
    rfl

/-! ## Cutting at a character -/

/-- The two sides of a character make up the text around it. -/
theorem cutAt_eq_some {c : Char} {s before after : List Char}
    (h : cutAt [c] s = some (before, after)) : s = before ++ c :: after :=
  eq_append_of_cutAt h

theorem cutWhere_append {c : Char} {before : List Char} (h : c ∉ before) (after : List Char) :
    cutWhere ([c].isPrefixOf ·) (before ++ c :: after) = some (before, c :: after) := by
  induction before with
  | nil => simp [cutWhere, List.isPrefixOf]
  | cons d r ih =>
    obtain ⟨hne, hr⟩ := List.ne_and_not_mem_of_not_mem_cons h
    simp [cutWhere, List.isPrefixOf, hne, ih hr]

theorem cutAt_append {c : Char} {before : List Char} (h : c ∉ before) (after : List Char) :
    cutAt [c] (before ++ c :: after) = some (before, after) := by
  rw [cutAt, cutWhere_append h]
  rfl

/-- The cut is at the first such character. -/
theorem not_mem_of_cutAt {c : Char} {s before after : List Char}
    (h : cutAt [c] s = some (before, after)) : c ∉ before := by
  intro hc
  obtain ⟨front, back, rfl⟩ := List.append_of_mem hc
  exact not_infix_of_cutAt (List.cons_ne_nil c []) h ⟨front, back, by simp⟩

/-- A text is cut in one way at its last such character. -/
theorem append_cons_inj {c : Char} {front last front' last' : List Char} (h : c ∉ last)
    (h' : c ∉ last') (heq : front ++ c :: last = front' ++ c :: last') :
    front = front' ∧ last = last' := by
  have hreverse : last.reverse ++ c :: front.reverse = last'.reverse ++ c :: front'.reverse := by
    simpa using congrArg List.reverse heq
  have hcut := cutAt_append (mt List.mem_reverse.1 h) front.reverse
  have hcut' := cutAt_append (mt List.mem_reverse.1 h') front'.reverse
  rw [hreverse, hcut', Option.some.injEq, Prod.mk.injEq, List.reverse_inj, List.reverse_inj] at hcut
  exact ⟨hcut.2.symm, hcut.1.symm⟩

theorem cutAt_of_not_mem {c : Char} {s : List Char} (h : c ∉ s) : cutAt [c] s = none := by
  have hnowhere : cutWhere ([c].isPrefixOf ·) s = none := by
    induction s with
    | nil => rfl
    | cons d r ih =>
      obtain ⟨hne, hr⟩ := List.ne_and_not_mem_of_not_mem_cons h
      simp [cutWhere, List.isPrefixOf, hne, ih hr]
  rw [cutAt, hnowhere]
  rfl

theorem not_mem_of_cutAt_eq_none {c : Char} {s : List Char} (h : cutAt [c] s = none) : c ∉ s := by
  intro hc
  obtain ⟨before, after, rfl, hbefore⟩ := List.eq_append_cons_of_mem hc
  rw [cutAt_append hbefore] at h
  cases h

theorem dropLast?_eq_some_iff {c : Char} {s r : List Char} :
    dropLast? c s = some r ↔ s = r ++ [c] := by
  unfold dropLast?
  constructor
  · intro h
    split at h
    · rename_i hlast
      obtain ⟨front, rfl⟩ := List.getLast?_eq_some_iff.1 hlast
      cases h
      rw [List.dropLast_concat]
    · cases h
  · rintro rfl
    simp

/-! ## Characters of the pieces -/

/-- The characters of the pieces are those of the text that do not separate. -/
theorem of_mem_splitBy {sep : Char → Bool} {s piece : List Char} (h : piece ∈ splitBy sep s)
    {c : Char} (hc : c ∈ piece) : c ∈ s ∧ sep c = false := by
  induction s generalizing piece with
  | nil =>
    rw [List.mem_singleton.1 h] at hc
    cases hc
  | cons d r ih =>
    -- A later piece lies in the rest of the text.
    have hlater : ∀ other ∈ splitBy sep r, c ∈ other → c ∈ d :: r ∧ sep c = false := by
      intro other hother hmem
      obtain ⟨hr, hkept⟩ := ih hother hmem
      exact ⟨List.mem_cons_of_mem d hr, hkept⟩
    simp only [splitBy] at h
    split at h
    · rcases List.mem_cons.1 h with rfl | h
      · cases hc
      · exact hlater piece h hc
    · rename_i hd
      have hfirst : d ∈ d :: r ∧ sep d = false := ⟨List.mem_cons_self, by simpa using hd⟩
      split at h
      · rw [List.mem_singleton.1 h] at hc
        rw [List.mem_singleton.1 hc]
        exact hfirst
      · rename_i first rest hrest
        rw [hrest] at hlater
        rcases List.mem_cons.1 h with rfl | h
        · rcases List.mem_cons.1 hc with rfl | hc
          · exact hfirst
          · exact hlater first List.mem_cons_self hc
        · exact hlater piece (List.mem_cons_of_mem first h) hc

theorem not_mem_of_mem_splitAt {sep : Char} {s piece : List Char} (h : piece ∈ splitAt sep s) :
    sep ∉ piece := by
  intro hsep
  have hnot := (of_mem_splitBy h hsep).2
  simp at hnot

theorem mem_splitAt {sep : Char} {s : List Char} {c : Char} (hc : c ∈ s) (hne : c ≠ sep) :
    ∃ piece ∈ splitAt sep s, c ∈ piece := by
  unfold splitAt
  induction s with
  | nil => cases hc
  | cons d r ih =>
    simp only [splitBy]
    rcases List.mem_cons.1 hc with rfl | hr
    · rw [if_neg (by simpa using hne)]
      cases splitBy (· == sep) r with
      | nil => exact ⟨[c], by simp, by simp⟩
      | cons piece pieces => exact ⟨c :: piece, by simp, by simp⟩
    · obtain ⟨piece, hpiece, hmem⟩ := ih hr
      split
      · exact ⟨piece, List.mem_cons_of_mem _ hpiece, hmem⟩
      · cases hrest : splitBy (· == sep) r with
        | nil => exact absurd hrest (splitBy_ne_nil _ r)
        | cons first rest =>
          rw [hrest] at hpiece
          rcases List.mem_cons.1 hpiece with rfl | hpiece
          · exact ⟨d :: piece, List.mem_cons_self, List.mem_cons_of_mem _ hmem⟩
          · exact ⟨piece, List.mem_cons_of_mem _ hpiece, hmem⟩

/-! ## Splitting and joining -/

theorem splitAt_of_not_mem {sep : Char} {s : List Char} (h : sep ∉ s) : splitAt sep s = [s] := by
  unfold splitAt
  induction s with
  | nil => rfl
  | cons c r ih =>
    obtain ⟨hne, hr⟩ := List.ne_and_not_mem_of_not_mem_cons h
    simp [splitBy, Ne.symm hne, ih hr]

/-- A separator in the middle splits either side on its own. -/
theorem splitAt_append (sep : Char) (s t : List Char) :
    splitAt sep (s ++ sep :: t) = splitAt sep s ++ splitAt sep t := by
  unfold splitAt
  induction s with
  | nil => simp [splitBy]
  | cons c r ih =>
    rw [List.cons_append, splitBy, splitBy, ih]
    split
    · rfl
    · cases hr : splitBy (· == sep) r with
      | nil => exact absurd hr (splitBy_ne_nil _ r)
      | cons piece pieces => rfl

theorem joinWith_cons (sep : Char) (piece : List Char) {pieces : List (List Char)}
    (h : pieces ≠ []) : joinWith sep (piece :: pieces) = piece ++ sep :: joinWith sep pieces := by
  cases pieces with
  | nil => exact absurd rfl h
  | cons next rest => rfl

theorem joinWith_append (sep : Char) {front back : List (List Char)} (hfront : front ≠ [])
    (hback : back ≠ []) :
    joinWith sep (front ++ back) = joinWith sep front ++ sep :: joinWith sep back := by
  induction front with
  | nil => exact absurd rfl hfront
  | cons piece pieces ih =>
    cases pieces with
    | nil => exact joinWith_cons sep piece hback
    | cons next rest =>
      have hrest : next :: rest ++ back ≠ [] := by simp
      rw [List.cons_append, joinWith_cons sep piece hrest, ih (by simp),
        joinWith_cons sep piece (by simp)]
      simp

/-- Pieces without a separator in them are found again. -/
theorem splitAt_joinWith {sep : Char} {pieces : List (List Char)} (hne : pieces ≠ [])
    (h : ∀ piece ∈ pieces, sep ∉ piece) : splitAt sep (joinWith sep pieces) = pieces := by
  induction pieces with
  | nil => exact absurd rfl hne
  | cons piece rest ih =>
    have hpiece := h piece List.mem_cons_self
    cases rest with
    | nil => exact splitAt_of_not_mem hpiece
    | cons next others =>
      have hrest := ih (by simp) fun p hp => h p (List.mem_cons_of_mem piece hp)
      rw [joinWith_cons sep piece (by simp), splitAt_append, hrest, splitAt_of_not_mem hpiece]
      rfl

theorem joinWith_splitAt (sep : Char) (s : List Char) : joinWith sep (splitAt sep s) = s := by
  unfold splitAt
  induction s with
  | nil => rfl
  | cons c r ih =>
    simp only [splitBy]
    cases hp : splitBy (· == sep) r with
    | nil => exact absurd hp (splitBy_ne_nil _ r)
    | cons piece pieces =>
      rw [hp] at ih
      by_cases hc : (c == sep) = true
      · have : c = sep := by simpa using hc
        subst this
        simp [joinWith, ih]
      · simp only [hc]
        cases pieces with
        | nil => simp_all [joinWith]
        | cons next rest => simp_all [joinWith]

/-- The pieces of a text come first in another if the text does, as a whole or
up to a separator. -/
theorem splitAt_prefix_iff {sep : Char} {s t : List Char} :
    splitAt sep s <+: splitAt sep t ↔ t = s ∨ ∃ rest, t = s ++ sep :: rest := by
  constructor
  · rintro ⟨back, hback⟩
    have ht := congrArg (joinWith sep) hback
    rw [joinWith_splitAt] at ht
    cases back with
    | nil =>
      rw [List.append_nil, joinWith_splitAt] at ht
      exact .inl ht.symm
    | cons piece pieces =>
      have hfront : splitAt sep s ≠ [] := splitBy_ne_nil _ s
      rw [joinWith_append sep hfront (List.cons_ne_nil piece pieces), joinWith_splitAt] at ht
      exact .inr ⟨_, ht.symm⟩
  · rintro (rfl | ⟨rest, rfl⟩)
    · exact List.prefix_rfl
    · rw [splitAt_append]
      exact List.prefix_append _ _

/-! ## Lines -/

/-- A character that ends no line joins the line behind it. -/
theorem lines_cons {c : Char} {r : List Char} (hfeed : c ≠ '\n')
    (hreturn : c = '\r' → r.head? ≠ some '\n') :
    lines (c :: r) =
      match lines r with
      | [] => [[c]]
      | line :: rest => (c :: line) :: rest := by
  apply lines.eq_4 c r hfeed
  rintro s hc rfl
  exact hreturn hc rfl

theorem lines_ne_nil {s : List Char} (h : s ≠ []) : lines s ≠ [] := by
  unfold lines
  split
  · exact absurd rfl h
  · exact List.cons_ne_nil _ _
  · exact List.cons_ne_nil _ _
  · split
    · exact List.cons_ne_nil _ _
    · exact List.cons_ne_nil _ _

/-- A line feed ends the lines before it. -/
theorem lines_append (s t : List Char) :
    lines (s ++ '\n' :: t) = lines (s ++ ['\n']) ++ lines t := by
  fun_induction lines s with
  | case1 => rfl
  | case2 r ih => exact congrArg ([] :: ·) ih
  | case3 r ih => exact congrArg ([] :: ·) ih
  | case4 c r hfeed hreturn hnone ih =>
    -- The character stands alone before the line feed.
    have hr : r = [] := Classical.byContradiction fun hne => lines_ne_nil hne hnone
    subst hr
    by_cases hc : c = '\r'
    · subst hc
      rfl
    · rw [List.cons_append, List.cons_append, lines_cons hfeed (absurd · hc),
        lines_cons hfeed (absurd · hc)]
      rfl
  | case5 c r hfeed hreturn line rest hsome ih =>
    have hr : r ≠ [] := by
      rintro rfl
      cases hsome
    have hfront : ∀ u, c = '\r' → (r ++ u).head? ≠ some '\n' := by
      intro u hc hhead
      cases r with
      | nil => exact hr rfl
      | cons d r =>
        cases hhead
        exact hreturn r hc rfl
    rw [List.cons_append, List.cons_append, lines_cons hfeed (hfront _),
      lines_cons hfeed (hfront _), ih]
    have hne : lines (r ++ ['\n']) ≠ [] := lines_ne_nil (by simp)
    cases hlines : lines (r ++ ['\n']) with
    | nil => exact absurd hlines hne
    | cons first others => rfl

theorem feed_not_mem_of_mem_lines {s line : List Char} (h : line ∈ lines s) : '\n' ∉ line := by
  fun_induction lines s generalizing line with
  | case1 => cases h
  | case2 r ih =>
    rcases List.mem_cons.1 h with rfl | h
    · exact List.not_mem_nil
    · exact ih h
  | case3 r ih =>
    rcases List.mem_cons.1 h with rfl | h
    · exact List.not_mem_nil
    · exact ih h
  | case4 c r hfeed hreturn hnone ih =>
    rw [List.mem_singleton.1 h, List.mem_singleton]
    exact Ne.symm hfeed
  | case5 c r hfeed hreturn first rest hsome ih =>
    rw [hsome] at ih
    rcases List.mem_cons.1 h with rfl | h
    · rw [List.mem_cons, not_or]
      exact ⟨Ne.symm hfeed, ih List.mem_cons_self⟩
    · exact ih (List.mem_cons_of_mem _ h)

/-- A text without a line feed is one line, if no carriage return would go with
the end of it. -/
theorem lines_of_not_mem {s : List Char} (hfeed : '\n' ∉ s) (hreturn : s.getLast? ≠ some '\r') :
    lines (s ++ ['\n']) = [s] := by
  induction s with
  | nil => rfl
  | cons c r ih =>
    obtain ⟨hc, hr⟩ := List.ne_and_not_mem_of_not_mem_cons hfeed
    have hfront : c = '\r' → (r ++ ['\n']).head? ≠ some '\n' := by
      rintro rfl hhead
      cases r with
      | nil => exact hreturn rfl
      | cons d r =>
        cases hhead
        exact hr List.mem_cons_self
    have hrest : lines (r ++ ['\n']) = [r] := by
      apply ih hr
      intro hlast
      apply hreturn
      rw [List.getLast?_cons, hlast]
      rfl
    rw [List.cons_append, lines_cons (Ne.symm hc) hfront, hrest]

/-- What stands in front of a line feed ends a line. -/
theorem exists_line_ending {s : List Char} {c : Char} (hfeed : '\n' ∉ s)
    (hlast : s.getLast? = some c) (hreturn : c ≠ '\r') (front rest : List Char) :
    ∃ line ∈ lines (front ++ s ++ '\n' :: rest), s <:+ line := by
  by_cases hfront : '\n' ∈ front
  · obtain ⟨before, after, rfl⟩ := List.append_of_mem hfront
    obtain ⟨line, hline, hends⟩ := exists_line_ending hfeed hlast hreturn after rest
    refine ⟨line, ?_, hends⟩
    rw [List.append_assoc, List.append_assoc, List.cons_append, lines_append, ← List.append_assoc]
    exact List.mem_append_right _ hline
  · have hwhole : '\n' ∉ front ++ s := by
      rw [List.mem_append, not_or]
      exact ⟨hfront, hfeed⟩
    have hend : (front ++ s).getLast? ≠ some '\r' := by
      rw [List.getLast?_append, hlast]
      exact fun h => hreturn (Option.some.inj h)
    refine ⟨front ++ s, ?_, List.suffix_append front s⟩
    rw [lines_append, lines_of_not_mem hwhole hend]
    exact List.mem_append_left _ (List.mem_singleton_self _)
termination_by front.length
decreasing_by grind

end MvsGateway.Chars
