import MvsGateway.Host.Path

/-!
# Paths and their texts

A path in normal form is written in one way and read back from that. The tests
on texts that a table of written paths needs are those on segments: a path
lies below another exactly if its text continues the other's behind a slash,
and the parent is what stands before the last slash.
-/

namespace MvsGateway.Host.Path

/-- A text that stands for itself between two slashes. -/
structure IsSegment (s : String) : Prop where
  counts : isSegment s.toList = true
  whole : '/' ∉ s.toList

/-- A path that is its own normal form. -/
def IsNormal (p : Path) : Prop := ∀ s ∈ p, IsSegment s

/-! ## Segments -/

/-- A change of letters leaves a segment one: it makes neither a slash nor a
dot. -/
theorem IsSegment.map {f : Char → Char} (hf : ∀ c, f c = c ∨ 65 ≤ (f c).toNat) {s : String}
    (h : IsSegment s) : IsSegment (String.ofList (s.toList.map f)) := by
  obtain ⟨hcounts, hwhole⟩ := h
  -- Slash and dot come before the letters, and so are made of themselves alone.
  have hkeeps : ∀ c d : Char, f c = d → d.toNat < 65 → c = d := by
    intro c d hcd hd
    rcases hf c with h | h
    · exact h.symm.trans hcd
    · rw [hcd] at h
      omega
  constructor
  · rw [String.toList_ofList]
    simp only [isSegment, Bool.and_eq_true, Bool.not_eq_true', List.isEmpty_eq_false_iff,
      bne_iff_ne] at hcounts ⊢
    obtain ⟨hne, hdot⟩ := hcounts
    refine ⟨by simpa using hne, ?_⟩
    intro h
    obtain ⟨c, hc, hcd⟩ := List.map_eq_singleton_iff.1 h
    rw [hkeeps c '.' hcd (by decide)] at hc
    exact hdot hc
  · rw [String.toList_ofList]
    intro h
    obtain ⟨c, hc, hcd⟩ := List.mem_map.1 h
    rw [hkeeps c '/' hcd (by decide)] at hc
    exact hwhole hc

theorem isSegment_upper {s : String} (h : IsSegment s) : IsSegment (Text.upper s) := by
  apply h.map
  intro c
  rcases Chars.toUpper_cases c with h | ⟨_, _, _⟩
  · exact .inl h
  · exact .inr (by omega)

theorem isSegment_lower {s : String} (h : IsSegment s) : IsSegment (Text.lower s) := by
  apply h.map
  intro c
  rcases Chars.toLower_cases c with h | ⟨_, _, _⟩
  · exact .inl h
  · exact .inr (by omega)

/-! ## Reading a text -/

theorem isNormal_ofText (text : String) : (ofText text).IsNormal := by
  intro s hs
  obtain ⟨piece, hpiece, rfl⟩ := List.mem_map.1 hs
  obtain ⟨hsplit, hcounts⟩ := List.mem_filter.1 hpiece
  constructor
  · rw [String.toList_ofList]
    exact hcounts
  · rw [String.toList_ofList]
    exact Chars.not_mem_of_mem_splitAt hsplit

theorem ofText_append (s t : String) : ofText (s ++ "/" ++ t) = ofText s ++ ofText t := by
  have hchars : (s ++ "/" ++ t).toList = s.toList ++ '/' :: t.toList := by simp
  rw [ofText, hchars, Chars.splitAt_append, List.filter_append, List.map_append]
  rfl

/-- A path in normal form is read back from its text. -/
theorem ofText_text {p : Path} (h : p.IsNormal) : ofText p.text = p := by
  by_cases hp : p = []
  · rw [hp]
    rfl
  · have hpieces : ∀ piece ∈ p.map String.toList, '/' ∉ piece := by
      intro piece hpiece
      obtain ⟨s, hs, rfl⟩ := List.mem_map.1 hpiece
      exact (h s hs).whole
    have hcount : (p.map String.toList).filter isSegment = p.map String.toList := by
      rw [List.filter_eq_self]
      intro piece hpiece
      obtain ⟨s, hs, rfl⟩ := List.mem_map.1 hpiece
      exact (h s hs).counts
    -- The text begins with a slash, before which there is no segment.
    have htext : p.text = "" ++ "/" ++ Text.joinWith '/' p := rfl
    rw [htext, ofText_append]
    show [] ++ ofText (Text.joinWith '/' p) = p
    rw [List.nil_append, ofText, Text.joinWith, String.toList_ofList,
      Chars.splitAt_joinWith (by simpa using hp) hpieces, hcount, List.map_map]
    simp [Function.comp_def]

theorem text_injective {p q : Path} (hp : p.IsNormal) (hq : q.IsNormal) (h : p.text = q.text) :
    p = q := by
  rw [← ofText_text hp, h, ofText_text hq]

/-! ## Paths below a path -/

/-- What the texts of the paths below `p` start with. -/
def childPrefix (p : Path) : String := if p.isEmpty then "/" else p.text ++ "/"

theorem childPrefix_of_ne {p : Path} (hp : p ≠ []) : p.childPrefix = p.text ++ "/" := by
  rw [childPrefix, if_neg (by simpa using hp)]

theorem isBelow_iff {p q : Path} : p.isBelow q = true ↔ ∃ r, r ≠ [] ∧ q = p ++ r := by
  simp only [isBelow, Bool.and_eq_true, List.isPrefixOf_iff_prefix, decide_eq_true_eq]
  constructor
  · rintro ⟨⟨r, rfl⟩, hlength⟩
    refine ⟨r, ?_, rfl⟩
    rintro rfl
    simp at hlength
  · rintro ⟨r, hr, rfl⟩
    have hlength := List.length_pos_iff.2 hr
    exact ⟨List.prefix_append p r, by simp; omega⟩

theorem isBelow_trans {p q r : Path} (hpq : p.isBelow q = true) (hqr : q.isBelow r = true) :
    p.isBelow r = true := by
  obtain ⟨s, hs, rfl⟩ := isBelow_iff.1 hpq
  obtain ⟨t, _, rfl⟩ := isBelow_iff.1 hqr
  exact isBelow_iff.2 ⟨s ++ t, by simp [hs], by simp⟩

theorem parent?_eq_some_iff {p q : Path} : q.parent? = some p ↔ ∃ s, q = p ++ [s] := by
  unfold parent?
  constructor
  · intro h
    split at h
    · cases h
    · rename_i hq
      cases h
      have hne : q ≠ [] := by simpa using hq
      exact ⟨q.getLast hne, (List.dropLast_concat_getLast hne).symm⟩
  · rintro ⟨s, rfl⟩
    simp

theorem isBelow_of_parent? {p q : Path} (h : q.parent? = some p) : p.isBelow q = true := by
  obtain ⟨s, rfl⟩ := parent?_eq_some_iff.1 h
  exact isBelow_iff.2 ⟨[s], by simp, rfl⟩

theorem text_append (p : Path) {r : Path} (hr : r ≠ []) :
    (p ++ r).text = p.childPrefix ++ Text.joinWith '/' r := by
  by_cases hp : p = []
  · rw [hp]
    rfl
  · have hfront : p.map String.toList ≠ [] := by simpa using hp
    have hback : r.map String.toList ≠ [] := by simpa using hr
    have hjoin := Chars.joinWith_append '/' hfront hback
    rw [childPrefix_of_ne hp, ← String.toList_inj]
    simp [text, Text.joinWith, hjoin]

/-- The parent's text ends before the last slash. -/
theorem text_of_parent? {p q : Path} (h : q.parent? = some p) :
    q.text = p.childPrefix ++ q.name := by
  obtain ⟨s, rfl⟩ := parent?_eq_some_iff.1 h
  rw [text_append p (by simp)]
  simp [name, Text.joinWith, Chars.joinWith]

theorem slash_not_mem_name {p : Path} (h : p.IsNormal) : '/' ∉ p.name.toList := by
  unfold name
  cases hlast : p.getLast? with
  | none => simp
  | some s => exact (h s (List.mem_of_getLast? hlast)).whole

/-- Lying below is a matter of texts. -/
theorem isBelow_iff_startsWith {p q : Path} (hp : p.IsNormal) (hq : q.IsNormal) :
    p.isBelow q = true ↔ Text.startsWith p.childPrefix q.text = true ∧ q.text ≠ p.text := by
  constructor
  · intro h
    obtain ⟨r, hr, rfl⟩ := isBelow_iff.1 h
    refine ⟨Text.startsWith_iff.2 ⟨_, text_append p hr⟩, ?_⟩
    intro hsame
    have hself := text_injective hq hp hsame
    simp [hr] at hself
  · rintro ⟨hstarts, hne⟩
    obtain ⟨rest, hrest⟩ := Text.startsWith_iff.1 hstarts
    -- What follows the slash is read as the rest of the path.
    have hread : q = p ++ ofText rest := by
      rw [← ofText_text hq, hrest]
      by_cases hroot : p = []
      · rw [hroot]
        exact ofText_append "" rest
      · rw [childPrefix_of_ne hroot, ofText_append, ofText_text hp]
    refine isBelow_iff.2 ⟨ofText rest, ?_, hread⟩
    intro hnone
    rw [hnone, List.append_nil] at hread
    exact hne (congrArg text hread)

end MvsGateway.Host.Path
