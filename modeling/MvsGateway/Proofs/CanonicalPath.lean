import MvsGateway.Proofs.Path
import MvsGateway.Target.Reader

/-!
# The written form of a path

Many texts name one path: slashes may be doubled, a slash may stand at the end
and none at the front, and single dots may stand between them. What counts of a
text are its other segments in their order. From them the one written form is
made, which is the only one among the texts of the path that has nothing to
leave out.
-/

namespace MvsGateway

/-- A slash in front does not count. -/
theorem Target.ofText_absolutePath (text : String) :
    Host.Path.ofText (absolutePath text) = Host.Path.ofText text := by
  unfold absolutePath
  split
  · rfl
  · exact Host.Path.ofText_append "" text

theorem Target.absolutePath_absolutePath (text : String) :
    absolutePath (absolutePath text) = absolutePath text := by
  have hslash : ((absolutePath text).toList.head? == some '/') = true := by
    unfold absolutePath
    split
    · assumption
    · simp
  rw [absolutePath, if_pos hslash]

namespace Host.Path

/-- The written form of the path that a text names. -/
def normalForm (text : String) : String := (ofText text).text

/-- The segments of a text that count, in their order. -/
def countedSegments (text : String) : List String :=
  (Text.splitAt '/' text).filter fun s => s ≠ "" ∧ s ≠ "."

/-- A slash in front, none at the end, and every segment counts; or the root. -/
structure IsCanonical (t : String) : Prop where
  front : Text.startsWith "/" t = true
  back : t = "/" ∨ t.toList.getLast? ≠ some '/'
  counts : t = "/" ∨ ∀ s ∈ (Text.splitAt '/' t).tail, s ≠ "" ∧ s ≠ "."

/-- The path `p` is what stands before the last slash of a text, or the root if
nothing does, and the text is that of a child of `p`. -/
structure IsParentOf (p : Path) (t : String) : Prop where
  canonical : IsCanonical p.text
  child : ∃ last, t = p.childPrefix ++ last ∧ last ≠ "" ∧ '/' ∉ last.toList
  before : ∀ front last, t = front ++ "/" ++ last → '/' ∉ last.toList →
    p.text = if front = "" then "/" else front

/-! ## Segments that count -/

theorem isSegment_iff {s : String} : isSegment s.toList = true ↔ s ≠ "" ∧ s ≠ "." := by
  have hempty : s.toList = [] ↔ s = "" := @String.toList_inj s ""
  have hdot : s.toList = ['.'] ↔ s = "." := @String.toList_inj s "."
  simp [isSegment, hempty, hdot]

theorem ofText_eq_countedSegments (text : String) : ofText text = countedSegments text := by
  rw [ofText, countedSegments, Text.splitAt, List.filter_map]
  congr 1
  apply List.filter_congr
  intro piece _
  have hsegment := isSegment_iff (s := String.ofList piece)
  rw [String.toList_ofList] at hsegment
  rw [Bool.eq_iff_iff, hsegment]
  simp

/-- The written form has the segments that count and no other. -/
theorem splitAt_text {p : Path} (h : p.IsNormal) :
    Text.splitAt '/' p.text = "" :: if p = [] then [""] else p := by
  have hsplit : Text.splitAt '/' p.text = "" :: Text.splitAt '/' (Text.joinWith '/' p) := by
    have htext : p.text.toList = [] ++ '/' :: (Text.joinWith '/' p).toList := by simp [text]
    rw [Text.splitAt, htext, Chars.splitAt_append]
    rfl
  rw [hsplit]
  by_cases hp : p = []
  · rw [if_pos hp, hp]
    rfl
  · rw [if_neg hp, Text.splitAt_joinWith hp fun s hs => (h s hs).whole]

theorem ofText_normalForm (text : String) : ofText (normalForm text) = ofText text :=
  ofText_text (isNormal_ofText text)

theorem text_eq_root_iff {p : Path} (h : p.IsNormal) : p.text = "/" ↔ p = [] := by
  constructor
  · exact fun hroot => text_injective h nofun hroot
  · rintro rfl
    rfl

/-! ## The written form -/

theorem name_ne_empty {p : Path} (h : p.IsNormal) (hp : p ≠ []) : p.name ≠ "" := by
  have hlast := List.getLast?_eq_some_getLast hp
  rw [name, hlast, Option.getD_some]
  exact (isSegment_iff.1 (h _ (List.getLast_mem hp)).counts).1

theorem IsNormal.dropLast {p : Path} (h : p.IsNormal) : IsNormal p.dropLast :=
  fun s hs => h s ((List.dropLast_sublist p).subset hs)

theorem parent?_of_ne {p : Path} (hp : p ≠ []) : p.parent? = some p.dropLast := by
  rw [parent?, if_neg (by simpa using hp)]

theorem isCanonical_text {p : Path} (h : p.IsNormal) : IsCanonical p.text := by
  by_cases hp : p = []
  · subst hp
    exact ⟨by decide, .inl rfl, .inl rfl⟩
  · refine ⟨Text.startsWith_iff.2 ⟨_, rfl⟩, .inr ?_, .inr ?_⟩
    · -- The last character is that of the last segment.
      intro hlast
      have hne : p.name.toList ≠ [] := by
        rw [ne_eq, String.toList_eq_nil_iff]
        exact name_ne_empty h hp
      rw [text_of_parent? (parent?_of_ne hp), String.toList_append, List.getLast?_append,
        List.getLast?_eq_some_getLast hne, Option.some_or, Option.some.injEq] at hlast
      exact slash_not_mem_name h (hlast ▸ List.getLast_mem hne)
    · rw [splitAt_text h, if_neg hp]
      exact fun s hs => isSegment_iff.1 (h s hs).counts

/-- A text with nothing to leave out is its own written form. -/
theorem normalForm_of_isCanonical {t : String} (h : IsCanonical t) : normalForm t = t := by
  obtain ⟨hfront, _, hcounts⟩ := h
  rcases hcounts with rfl | hcounts
  · rfl
  · obtain ⟨rest, rfl⟩ := Text.startsWith_iff.1 hfront
    have hsplit : Text.splitAt '/' ("/" ++ rest) = "" :: Text.splitAt '/' rest := by
      have hchars : ("/" ++ rest).toList = [] ++ '/' :: rest.toList := by simp
      rw [Text.splitAt, hchars, Chars.splitAt_append]
      rfl
    rw [hsplit] at hcounts
    have hall : countedSegments ("/" ++ rest) = Text.splitAt '/' rest := by
      rw [countedSegments, hsplit]
      simpa using hcounts
    rw [normalForm, ofText_eq_countedSegments, hall, text, Text.joinWith_splitAt]

theorem isCanonical_iff {t : String} : IsCanonical t ↔ normalForm t = t := by
  constructor
  · exact normalForm_of_isCanonical
  · intro h
    rw [← h]
    exact isCanonical_text (isNormal_ofText t)

theorem normalForm_eq_iff {s t : String} :
    normalForm s = normalForm t ↔ countedSegments s = countedSegments t := by
  rw [← ofText_eq_countedSegments, ← ofText_eq_countedSegments]
  constructor
  · exact text_injective (isNormal_ofText s) (isNormal_ofText t)
  · exact congrArg text

/-! ## The path above -/

theorem isParentOf_text {p q : Path} (hq : q.IsNormal) (h : q.parent? = some p) :
    p.IsParentOf q.text := by
  have hne : q ≠ [] := by
    rintro rfl
    cases h
  have hp : p.IsNormal := by
    rw [parent?_of_ne hne] at h
    cases h
    exact hq.dropLast
  have htext := text_of_parent? h
  have hname := slash_not_mem_name hq
  refine ⟨isCanonical_text hp, ⟨q.name, htext, name_ne_empty hq hne, hname⟩, ?_⟩
  intro front last heq hlast
  have hlead : p.childPrefix = (if p = [] then "" else p.text) ++ "/" := by
    by_cases hroot : p = []
    · rw [hroot]
      rfl
    · rw [if_neg hroot, childPrefix_of_ne hroot]
  have hchars : (if p = [] then "" else p.text).toList ++ '/' :: q.name.toList =
      front.toList ++ '/' :: last.toList := by
    simpa [hlead, ← String.toList_inj] using htext.symm.trans heq
  have hfront := String.toList_inj.1 (Chars.append_cons_inj hname hlast hchars).1
  rw [← hfront]
  by_cases hroot : p = []
  · rw [hroot]
    rfl
  · have hslash : p.text ≠ "" := by simp [text]
    rw [if_neg hroot, if_neg hslash]

/-- A text has one written form, which tells texts of different paths apart and
is made from the segments that count. Above each written form but the root's
is that of the parent. -/
theorem paths_have_one_form (t : String) :
    IsCanonical (normalForm t) ∧
    (IsCanonical t ↔ normalForm t = t) ∧
    Text.splitAt '/' (normalForm t) =
      "" :: (if countedSegments t = [] then [""] else countedSegments t) ∧
    normalForm (normalForm t) = normalForm t ∧
    normalForm (Target.absolutePath t) = normalForm t ∧
    Target.absolutePath (Target.absolutePath t) = Target.absolutePath t ∧
    (∀ other, normalForm t = normalForm other ↔ countedSegments t = countedSegments other) ∧
    (normalForm t = "/" ∧ (ofText t).parent? = none ∨
      normalForm t ≠ "/" ∧
        ∃ p, (ofText t).parent? = some p ∧ p.IsParentOf (normalForm t)) := by
  have hnormal := isNormal_ofText t
  refine ⟨isCanonical_text hnormal, isCanonical_iff, ?_, ?_, ?_,
    Target.absolutePath_absolutePath t, fun _ => normalForm_eq_iff, ?_⟩
  · rw [← ofText_eq_countedSegments]
    exact splitAt_text hnormal
  · exact congrArg text (ofText_normalForm t)
  · exact congrArg text (Target.ofText_absolutePath t)
  · by_cases hroot : ofText t = []
    · left
      rw [normalForm, hroot]
      exact ⟨rfl, rfl⟩
    · have hparent := parent?_of_ne hroot
      refine .inr ⟨mt (text_eq_root_iff hnormal).1 hroot, _, hparent, ?_⟩
      exact isParentOf_text hnormal hparent

end Host.Path

end MvsGateway
