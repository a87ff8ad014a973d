import MvsGateway.Proofs.Request.Accepted

/-!
# Paths of data sets

The path of a data set is read from its outside in: the white space around it,
a volume in front, and then a name with or without a member. What is read was
written in one of three forms, with nothing empty in it.
-/

namespace MvsGateway.Target

/-- A part of a path is not empty and has no characters that separate parts. -/
structure IsPart (s : List Char) : Prop where
  nonEmpty : s ≠ []
  plain : ∀ c ∈ s, isReserved c = false

theorem IsPart.not_mem {s : List Char} (h : IsPart s) {c : Char} (hc : isReserved c = true) :
    c ∉ s := by
  intro hmem
  rw [h.plain c hmem] at hc
  cases hc

/-- The texts of a data set and of a member. -/
inductive IsWritten : List Char → Target → Prop
  | dataSet {name : List Char} (hname : IsPart name) :
      IsWritten name (.dataSet (String.ofList name))
  | slash {name inner : List Char} (hname : IsPart name) (hinner : IsPart inner) :
      IsWritten (name ++ '/' :: inner) (.member (String.ofList name) (String.ofList inner))
  | parentheses {name inner : List Char} (hname : IsPart name) (hinner : IsPart inner) :
      IsWritten (name ++ '(' :: (inner ++ [')']))
        (.member (String.ofList name) (String.ofList inner))

/-! ## Reading a path -/

theorem isPart_of_checkName {name whole : List Char} (h : checkName name whole = .ok ()) :
    IsPart name := by
  unfold checkName at h
  split at h
  · cases h
  · rename_i hempty
    split at h
    · cases h
    · split at h
      · cases h
      · rename_i hplain
        exact ⟨by simpa using hempty, by simpa using hplain⟩

theorem memberOf_eq_ok {name inner whole : List Char} {t : Target}
    (h : memberOf name inner whole = .ok t) :
    IsPart name ∧ inner ≠ [] ∧ t = .member (String.ofList name) (String.ofList inner) := by
  obtain ⟨⟨⟩, hname, h⟩ := eq_ok_of_bind h
  split at h
  · cases h
  · rename_i hinner
    cases h
    exact ⟨isPart_of_checkName hname, by simpa using hinner, rfl⟩

theorem isWritten_of_chars {s : List Char} {t : Target} (h : ofDataSetChars s = .ok t) :
    IsWritten s t := by
  unfold ofDataSetChars at h
  split at h
  · cases h
  split at h
  · -- A member behind a slash.
    rename_i name inner hcut
    split at h
    · cases h
    · rename_i hinner
      obtain ⟨hname, _, rfl⟩ := memberOf_eq_ok h
      simp only [Bool.or_eq_true, List.isEmpty_iff, List.any_eq_true, not_or, not_exists,
        not_and, Bool.not_eq_true] at hinner
      rw [Chars.cutAt_eq_some hcut]
      exact .slash hname ⟨hinner.1, hinner.2⟩
  · rename_i hslash
    split at h
    · obtain ⟨⟨⟩, hname, ⟨⟩⟩ := eq_ok_of_bind h
      exact .dataSet (isPart_of_checkName hname)
    · -- A member in parentheses, and no slash anywhere.
      rename_i name rest hcut
      split at h
      · cases h
      · rename_i inner hlast
        split at h
        · cases h
        · rename_i hinner
          obtain ⟨hname, hne, rfl⟩ := memberOf_eq_ok h
          have hs := Chars.cutAt_eq_some hcut
          rw [Chars.dropLast?_eq_some_iff.1 hlast] at hs
          have hwhole := Chars.not_mem_of_cutAt_eq_none hslash
          rw [hs] at hwhole ⊢
          refine .parentheses hname ⟨hne, fun c hc => ?_⟩
          have hparentheses : c ≠ '(' ∧ c ≠ ')' := by
            constructor
            · rintro rfl
              exact hinner (List.any_eq_true.2 ⟨'(', hc, rfl⟩)
            · rintro rfl
              exact hinner (List.any_eq_true.2 ⟨')', hc, rfl⟩)
          have hnoslash : c ≠ '/' := by
            rintro rfl
            simp [hc] at hwhole
          simp [isReserved, hparentheses, hnoslash]

/-- A text that starts like a volume has one, and a data set behind it. -/
theorem path_of_volume {raw : String} {s : List Char} {t : Target}
    (htrim : Chars.trim raw.toList = '-' :: '(' :: s) :
    ofDataSetPath raw = .ok t ↔ ∃ volume portion inner, volume ≠ [] ∧
      Chars.cutAt [')', '/'] s = some (volume, portion) ∧ ofDataSetChars portion = .ok inner ∧
      t = .onVolume (String.ofList volume) inner := by
  rw [ofDataSetPath, htrim]
  constructor
  · intro h
    simp only at h
    split at h
    · cases h
    · rename_i volume portion hcut
      split at h
      · cases h
      · rename_i hvolume
        cases hportion : ofDataSetChars portion with
        | error e =>
          rw [hportion] at h
          cases h
        | ok inner =>
          rw [hportion] at h
          cases h
          exact ⟨volume, portion, inner, by simpa using hvolume, hcut, hportion, rfl⟩
  · rintro ⟨volume, portion, inner, hvolume, hcut, hportion, rfl⟩
    simp only [hcut, hportion]
    rw [if_neg (by simpa using hvolume)]
    rfl

theorem path_of_plain {raw : String} (hmark : ¬volumeMark <+: Chars.trim raw.toList) :
    ofDataSetPath raw = ofDataSetChars (Chars.trim raw.toList) := by
  unfold ofDataSetPath
  split
  · rename_i rest htrim
    rw [htrim] at hmark
    exact absurd ⟨rest, rfl⟩ hmark
  · rfl

/-- The part of a path that names the data set, behind the volume if there is
one. -/
def dataSetPart (raw : String) : List Char :=
  match Chars.trim raw.toList with
  | '-' :: '(' :: rest =>
    match Chars.cutAt [')', '/'] rest with
    | some (_, portion) => portion
    | none => rest
  | s => s

theorem dataSetPart_of_volume {raw : String} {rest volume portion : List Char}
    (hrest : Chars.trim raw.toList = '-' :: '(' :: rest)
    (hcut : Chars.cutAt [')', '/'] rest = some (volume, portion)) :
    dataSetPart raw = portion := by
  unfold dataSetPart
  rw [hrest]
  simp only [hcut]

theorem dataSetPart_of_plain {raw : String} (hmark : ¬volumeMark <+: Chars.trim raw.toList) :
    dataSetPart raw = Chars.trim raw.toList := by
  unfold dataSetPart
  split
  · rename_i rest htrim
    rw [htrim] at hmark
    exact absurd ⟨rest, rfl⟩ hmark
  · rfl

theorem dataSetPart_suffix (raw : String) : dataSetPart raw <:+ Chars.trim raw.toList := by
  unfold dataSetPart
  split
  · rename_i rest hrest
    have hsuffix : rest <:+ Chars.trim raw.toList := by
      rw [hrest]
      exact ⟨['-', '('], rfl⟩
    split
    · rename_i hcut
      exact (Chars.suffix_of_cutAt hcut).trans hsuffix
    · exact hsuffix
  · exact List.suffix_rfl

/-- What a path names is written in its data set part, which is the whole path
if there is no volume. -/
theorem isWritten_of_path {raw : String} {t : Target} (h : ofDataSetPath raw = .ok t) :
    (IsWritten (dataSetPart raw) t ∧ dataSetPart raw = Chars.trim raw.toList) ∨
      ∃ volume inner, t = .onVolume volume inner ∧ IsWritten (dataSetPart raw) inner := by
  by_cases hmark : volumeMark <+: Chars.trim raw.toList
  · obtain ⟨rest, hrest⟩ := hmark
    obtain ⟨volume, portion, inner, _, hcut, hportion, rfl⟩ := (path_of_volume hrest.symm).1 h
    rw [dataSetPart_of_volume hrest.symm hcut]
    exact .inr ⟨_, inner, rfl, isWritten_of_chars hportion⟩
  · rw [path_of_plain hmark] at h
    rw [dataSetPart_of_plain hmark]
    exact .inl ⟨isWritten_of_chars h, rfl⟩

/-! ## Refused paths -/

/-- Nothing stands where a name belongs: at the front, behind a slash, or in
the parentheses at the end. -/
def LacksPart (s : List Char) : Prop :=
  s = [] ∨ s.head? = some '(' ∨ s.head? = some '/' ∨ s.getLast? = some '/' ∨ ['(', ')'] <:+ s

theorem IsPart.head {s : List Char} (h : IsPart s) (rest : List Char) :
    ∃ c ∈ s, (s ++ rest).head? = some c := by
  obtain ⟨c, r, rfl⟩ := List.exists_cons_of_ne_nil h.nonEmpty
  exact ⟨c, List.mem_cons_self, rfl⟩

theorem IsPart.last {s : List Char} (h : IsPart s) (front : List Char) :
    ∃ before c, front ++ s = before ++ [c] ∧ isReserved c = false := by
  refine ⟨front ++ s.dropLast, s.getLast h.nonEmpty, ?_, h.plain _ (List.getLast_mem h.nonEmpty)⟩
  rw [List.append_assoc, List.dropLast_concat_getLast]

/-- A written path ends with a character of a part, or with one and a closing
parenthesis. -/
theorem IsWritten.last {s : List Char} {t : Target} (h : IsWritten s t) :
    ∃ before c, isReserved c = false ∧ (s = before ++ [c] ∨ s = before ++ [c, ')']) := by
  cases h with
  | dataSet hname =>
    obtain ⟨before, c, hs, hc⟩ := hname.last []
    exact ⟨before, c, hc, .inl hs⟩
  | slash hname hinner =>
    rename_i name inner
    obtain ⟨before, c, hs, hc⟩ := hinner.last (name ++ ['/'])
    refine ⟨before, c, hc, .inl ?_⟩
    rw [← hs]
    simp
  | parentheses hname hinner =>
    rename_i name inner
    obtain ⟨before, c, hs, hc⟩ := hinner.last (name ++ ['('])
    refine ⟨before, c, hc, .inr ?_⟩
    have hclosed := congrArg (· ++ [')']) hs
    simpa using hclosed

/-- A written path starts with the name of the data set. -/
theorem IsWritten.first {s : List Char} {t : Target} (h : IsWritten s t) :
    ∃ name c, t.dataSetName? = some (String.ofList name) ∧ s.head? = some c ∧ c ∈ name ∧
      isReserved c = false := by
  have hfirst {name : List Char} (hname : IsPart name) (rest : List Char) :
      ∃ c, (name ++ rest).head? = some c ∧ c ∈ name ∧ isReserved c = false := by
    obtain ⟨c, hmem, hhead⟩ := hname.head rest
    exact ⟨c, hhead, hmem, hname.plain c hmem⟩
  cases h with
  | dataSet hname =>
    obtain ⟨c, hhead, hc⟩ := hfirst hname []
    rw [List.append_nil] at hhead
    exact ⟨_, c, rfl, hhead, hc⟩
  | slash hname _ =>
    obtain ⟨c, hc⟩ := hfirst hname _
    exact ⟨_, c, rfl, hc⟩
  | parentheses hname _ =>
    obtain ⟨c, hc⟩ := hfirst hname _
    exact ⟨_, c, rfl, hc⟩

theorem IsWritten.not_lacksPart {s : List Char} {t : Target} (h : IsWritten s t) :
    ¬LacksPart s := by
  obtain ⟨_, first, _, hfirst, _, hplain⟩ := h.first
  obtain ⟨before, last, hlast, hs⟩ := h.last
  rintro (rfl | hhead | hhead | hslash | ⟨front, hempty⟩)
  · cases hfirst
  · cases hfirst.symm.trans hhead
    cases hplain
  · cases hfirst.symm.trans hhead
    cases hplain
  · -- A slash at the end would be reserved, or a closing parenthesis.
    rcases hs with rfl | rfl
    · have hsame : last = '/' := by simpa using hslash
      rw [hsame] at hlast
      cases hlast
    · simp at hslash
  · -- Before a closing parenthesis stands a character that is not reserved.
    rcases hs with rfl | rfl
    · have hsame : ')' = last := by simpa using congrArg List.getLast? hempty
      rw [← hsame] at hlast
      cases hlast
    · have hsame : '(' = last := by
        simpa using congrArg (List.getLast? ∘ List.dropLast) hempty
      rw [← hsame] at hlast
      cases hlast

/-- A path that lacks a part is refused. -/
theorem not_lacksPart_of_path {raw : String} {t : Target} (h : ofDataSetPath raw = .ok t) :
    ¬LacksPart (dataSetPart raw) := by
  rcases isWritten_of_path h with ⟨hwritten, _⟩ | ⟨_, _, _, hwritten⟩
  · exact hwritten.not_lacksPart
  · exact hwritten.not_lacksPart

end MvsGateway.Target
