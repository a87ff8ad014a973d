import MvsGateway.Proofs.Request.DataSetPath

/-!
# Addresses of data sets

What a path names is written in one of six forms: a data set, a member behind a
slash or in parentheses, and each of them behind a volume. The reader tests for
the parts one after the other, and the text between two of them may look like
the start of a third. A path is accepted if and only if it has one of the
forms, and its address can be printed and read again.
-/

namespace MvsGateway.Target

variable {s text name inner : List Char} {t : Target} {raw : String}

/-- The texts of addresses. A volume ends where `)/` first stands, and the one
name that a member in parentheses cannot have is that of a lone dash, since the
text then starts like a volume. -/
inductive IsAddress : List Char → Target → Prop
  | dataSet {name : List Char} (hname : IsPart name) :
      IsAddress name (.dataSet (String.ofList name))
  | slash {name inner : List Char} (hname : IsPart name) (hinner : IsPart inner) :
      IsAddress (name ++ '/' :: inner) (.member (String.ofList name) (String.ofList inner))
  | parentheses {name inner : List Char} (hname : IsPart name) (hinner : IsPart inner)
      (hdash : name ≠ ['-']) :
      IsAddress (name ++ '(' :: (inner ++ [')']))
        (.member (String.ofList name) (String.ofList inner))
  | onVolume {volume portion : List Char} {t : Target} (hvolume : volume ≠ [])
      (hend : ¬[')', '/'] <:+: volume) (hportion : IsWritten portion t) :
      IsAddress ('-' :: '(' :: (volume ++ ')' :: '/' :: portion))
        (.onVolume (String.ofList volume) t)

/-- The address of a data set or a member, as a path has it. -/
def address? (t : Target) : Option String :=
  t.dsn?.map fun dsn =>
    match t.volume? with
    | some volume => "-(" ++ volume ++ ")/" ++ dsn
    | none => dsn

/-! ## Texts that start like a volume -/

theorem not_mark_of_not_mem (h : '(' ∉ s) : ¬volumeMark <+: s :=
  fun hmark => h (hmark.subset (by decide))

/-- In front of parentheses, nothing but a lone dash looks like a volume. -/
theorem IsPart.mark_iff (h : IsPart name) (rest : List Char) :
    volumeMark <+: name ++ '(' :: rest ↔ name = ['-'] := by
  constructor
  · rintro ⟨back, hback⟩
    obtain ⟨c, r, rfl⟩ := List.exists_cons_of_ne_nil h.nonEmpty
    injection hback with hc hback
    cases r with
    | nil => rw [hc]
    | cons d r =>
      injection hback with hd _
      subst hd
      exact absurd (List.mem_cons_of_mem c List.mem_cons_self) (h.not_mem rfl)
  · rintro rfl
    exact ⟨rest, rfl⟩

/-- The forms without a volume are those of what is written and does not start
like one. -/
theorem isAddress_iff :
    IsAddress s t ↔ (IsWritten s t ∧ ¬volumeMark <+: s) ∨
      ∃ volume portion inner, volume ≠ [] ∧ ¬[')', '/'] <:+: volume ∧ IsWritten portion inner ∧
        s = '-' :: '(' :: (volume ++ ')' :: '/' :: portion) ∧
        t = .onVolume (String.ofList volume) inner := by
  constructor
  · intro h
    cases h with
    | dataSet hname => exact .inl ⟨.dataSet hname, not_mark_of_not_mem (hname.not_mem rfl)⟩
    | slash hname hinner =>
      refine .inl ⟨.slash hname hinner, not_mark_of_not_mem ?_⟩
      simp [hname.not_mem (c := '(') rfl, hinner.not_mem (c := '(') rfl]
    | parentheses hname hinner hdash =>
      exact .inl ⟨.parentheses hname hinner, fun hmark => hdash ((hname.mark_iff _).1 hmark)⟩
    | onVolume hvolume hend hportion =>
      exact .inr ⟨_, _, _, hvolume, hend, hportion, rfl, rfl⟩
  · rintro (⟨hwritten, hmark⟩ | ⟨volume, portion, inner, hvolume, hend, hportion, rfl, rfl⟩)
    · cases hwritten with
      | dataSet hname => exact .dataSet hname
      | slash hname hinner => exact .slash hname hinner
      | parentheses hname hinner =>
        exact .parentheses hname hinner fun hdash => hmark ((hname.mark_iff _).2 hdash)
    · exact .onVolume hvolume hend hportion

/-! ## Reading an address -/

theorem checkName_of_isPart (h : IsPart name) (whole : List Char) :
    checkName name whole = .ok () := by
  have hmark : volumeMark.isPrefixOf name = false := by
    rw [Bool.eq_false_iff, ne_eq, List.isPrefixOf_iff_prefix]
    exact not_mark_of_not_mem (h.not_mem rfl)
  have hplain : name.any isReserved = false := by simpa using h.plain
  simp [checkName, h.nonEmpty, hmark, hplain]

theorem memberOf_of_isPart (hname : IsPart name) (hinner : IsPart inner) (whole : List Char) :
    memberOf name inner whole = .ok (.member (String.ofList name) (String.ofList inner)) := by
  rw [memberOf, checkName_of_isPart hname]
  simp [bind, Except.bind, hinner.nonEmpty]

theorem chars_of_isWritten (h : IsWritten s t) : ofDataSetChars s = .ok t := by
  cases h with
  | dataSet hname =>
    have hslash := Chars.cutAt_of_not_mem (hname.not_mem (c := '/') rfl)
    have hopen := Chars.cutAt_of_not_mem (hname.not_mem (c := '(') rfl)
    simp only [ofDataSetChars, hslash, hopen, checkName_of_isPart hname]
    rw [if_neg (by simpa using hname.nonEmpty)]
    rfl
  | slash hname hinner =>
    rename_i name inner
    have hcut := Chars.cutAt_append (hname.not_mem (c := '/') rfl) inner
    have hplain : (inner.isEmpty || inner.any isReserved) = false := by
      simpa [hinner.nonEmpty] using hinner.plain
    simp only [ofDataSetChars, hcut, hplain, memberOf_of_isPart hname hinner]
    rw [if_neg (by simp), if_neg Bool.false_ne_true]
  | parentheses hname hinner =>
    rename_i name inner
    have hslash : Chars.cutAt ['/'] (name ++ '(' :: (inner ++ [')'])) = none := by
      apply Chars.cutAt_of_not_mem
      simp [hname.not_mem (c := '/') rfl, hinner.not_mem (c := '/') rfl]
    have hcut := Chars.cutAt_append (hname.not_mem (c := '(') rfl) (inner ++ [')'])
    have hlast : Chars.dropLast? ')' (inner ++ [')']) = some inner :=
      Chars.dropLast?_eq_some_iff.2 rfl
    have hplain : (inner.any fun c => c == '(' || c == ')') = false := by
      rw [List.any_eq_false]
      intro c hc
      have hreserved := hinner.plain c hc
      simp only [isReserved, Bool.or_eq_false_iff] at hreserved
      simp [hreserved]
    simp only [ofDataSetChars, hslash, hcut, hlast, hplain, memberOf_of_isPart hname hinner]
    rw [if_neg (by simp), if_neg Bool.false_ne_true]

theorem chars_eq_ok_iff : ofDataSetChars s = .ok t ↔ IsWritten s t :=
  ⟨isWritten_of_chars, chars_of_isWritten⟩

theorem path_eq_ok_iff : ofDataSetPath raw = .ok t ↔ IsAddress (Chars.trim raw.toList) t := by
  rw [isAddress_iff]
  by_cases hmark : volumeMark <+: Chars.trim raw.toList
  · obtain ⟨rest, hrest⟩ := hmark
    rw [path_of_volume hrest.symm, ← hrest]
    constructor
    · rintro ⟨volume, portion, inner, hvolume, hcut, hportion, rfl⟩
      obtain ⟨rfl, hend⟩ := (Chars.cutAt_pair_iff (by decide)).1 hcut
      exact .inr ⟨volume, portion, inner, hvolume, hend, chars_eq_ok_iff.1 hportion, rfl, rfl⟩
    · rintro (⟨_, hplain⟩ | ⟨volume, portion, inner, hvolume, hend, hportion, hs, rfl⟩)
      · exact absurd (List.prefix_append volumeMark rest) hplain
      · have hs : rest = volume ++ ')' :: '/' :: portion := List.append_cancel_left hs
        have hcut := (Chars.cutAt_pair_iff (by decide)).2 ⟨hs, hend⟩
        exact ⟨volume, portion, inner, hvolume, hcut, chars_eq_ok_iff.2 hportion, rfl⟩
  · rw [path_of_plain hmark, chars_eq_ok_iff]
    constructor
    · exact fun h => .inl ⟨h, hmark⟩
    · rintro (⟨hwritten, _⟩ | ⟨_, _, _, _, _, _, hs, _⟩)
      · exact hwritten
      · rw [hs] at hmark
        exact absurd ⟨_, rfl⟩ hmark

/-! ## Printing an address -/

/-- The text starts like the other, and ends like it or with a parenthesis. -/
structure HasEndsOf (text s : List Char) : Prop where
  first : text.head? = s.head?
  last : text.getLast? = s.getLast? ∨ text.getLast? = some ')'

theorem HasEndsOf.refl (s : List Char) : HasEndsOf s s := ⟨rfl, .inl rfl⟩

theorem HasEndsOf.append (h : HasEndsOf text s) {front : List Char} (hfront : front ≠ []) :
    HasEndsOf (front ++ text) (front ++ s) := by
  constructor
  · obtain ⟨c, r, rfl⟩ := List.exists_cons_of_ne_nil hfront
    rfl
  · rcases h.last with hlast | hlast
    · left
      rw [List.getLast?_append, List.getLast?_append, hlast]
    · right
      rw [List.getLast?_append, hlast]
      rfl

/-- There is no white space around a printed address. -/
theorem HasEndsOf.trim_eq_self (h : HasEndsOf text (Chars.trim s)) : Chars.trim text = text := by
  obtain ⟨hfirst, hlast⟩ := Chars.isBlank_ends_trim s
  apply Chars.trim_eq_self
  · rw [h.first]
    exact hfirst
  · rcases h.last with heq | heq
    · rw [heq]
      exact hlast
    · rw [heq]
      rintro c ⟨⟩
      rfl

/-- The name that is handed over is a text of the same target, and looks like a
volume for a member of the data set `-` alone. -/
theorem IsWritten.printed (h : IsWritten s t) :
    ∃ text, t.dsn? = some (String.ofList text) ∧ IsWritten text t ∧ HasEndsOf text s ∧
      (volumeMark <+: text ↔ ∃ member, t = .member "-" member) := by
  have hmember {name inner : List Char} (hname : IsPart name) :
      volumeMark <+: name ++ '(' :: (inner ++ [')']) ↔
        ∃ member, Target.member (String.ofList name) (String.ofList inner) = .member "-" member := by
    rw [hname.mark_iff]
    constructor
    · rintro rfl
      exact ⟨_, rfl⟩
    · rintro ⟨_, h⟩
      injection h with hdash _
      simpa using congrArg String.toList hdash
  cases h with
  | dataSet hname =>
    refine ⟨_, rfl, .dataSet hname, .refl _, iff_of_false ?_ nofun⟩
    exact not_mark_of_not_mem (hname.not_mem rfl)
  | slash hname hinner =>
    refine ⟨_, ?_, .parentheses hname hinner, ⟨?_, ?_⟩, hmember hname⟩
    · simp [dsn?, dataSetName?, memberName?, ← String.toList_inj]
    · obtain ⟨c, r, rfl⟩ := List.exists_cons_of_ne_nil hname.nonEmpty
      rfl
    · right
      rw [← List.cons_append, ← List.append_assoc, List.getLast?_concat]
  | parentheses hname hinner =>
    refine ⟨_, ?_, .parentheses hname hinner, .refl _, hmember hname⟩
    simp [dsn?, dataSetName?, memberName?, ← String.toList_inj]

theorem IsWritten.volume?_eq_none (h : IsWritten s t) : t.volume? = none := by
  cases h <;> rfl

/-- The text of an address is one again, with the one exception. -/
theorem IsAddress.printed (h : IsAddress s t) :
    ∃ text, t.address? = some (String.ofList text) ∧ HasEndsOf text s ∧
      (IsAddress text t ↔ ∀ member, t ≠ .member "-" member) := by
  rcases isAddress_iff.1 h with ⟨hwritten, _⟩ |
    ⟨volume, portion, inner, hvolume, hend, hportion, rfl, rfl⟩
  · obtain ⟨text, hdsn, htext, hends, hmark⟩ := hwritten.printed
    refine ⟨text, by simp [address?, hdsn, hwritten.volume?_eq_none], hends, ?_⟩
    rw [isAddress_iff, ← not_exists, ← hmark]
    constructor
    · rintro (⟨_, hplain⟩ | ⟨_, _, _, _, _, _, _, rfl⟩)
      · exact hplain
      · cases hwritten
    · exact fun hplain => .inl ⟨htext, hplain⟩
  · obtain ⟨text, hdsn, htext, hends, _⟩ := hportion.printed
    have hdsn : (Target.onVolume (String.ofList volume) inner).dsn? = some (String.ofList text) :=
      hdsn
    refine ⟨'-' :: '(' :: (volume ++ ')' :: '/' :: text), ?_, ?_, ?_⟩
    · simp [address?, hdsn, volume?, ← String.toList_inj]
    · have happend := hends.append (List.cons_ne_nil '-' ('(' :: (volume ++ [')', '/'])))
      simpa using happend
    · exact iff_of_true (.onVolume hvolume hend htext) nofun

/-- A path names what it is the address of, up to white space around it. What
it names is printed as an address of the same target, except for a member of
the data set `-` that is on no volume: in parentheses it looks like one. -/
theorem data_set_paths_are_addresses (raw : String) :
    (∀ t, ofDataSetPath raw = .ok t ↔ IsAddress (Chars.trim raw.toList) t) ∧
    ∀ t, ofDataSetPath raw = .ok t →
      ∃ text, t.address? = some text ∧
        (ofDataSetPath text = .ok t ↔ ∀ member, t ≠ .member "-" member) := by
  refine ⟨fun t => path_eq_ok_iff, fun t h => ?_⟩
  obtain ⟨text, haddress, hends, hagain⟩ := (path_eq_ok_iff.1 h).printed
  refine ⟨String.ofList text, haddress, ?_⟩
  rw [path_eq_ok_iff, String.toList_ofList, hends.trim_eq_self]
  exact hagain

/-- A member behind a slash is printed in parentheses. On a volume the text is
read again, and behind a lone dash it is refused. -/
theorem printed_addresses_are_read :
    (ofDataSetPath " -(V))/A.B/M" = .ok (.onVolume "V)" (.member "A.B" "M")) ∧
      ofDataSetPath "-(V))/A.B(M)" = .ok (.onVolume "V)" (.member "A.B" "M"))) ∧
    ofDataSetPath "-/M" = .ok (.member "-" "M") ∧
      ¬ofDataSetPath "-(M)" = .ok (.member "-" "M") := by
  have hvolume : ofDataSetPath " -(V))/A.B/M" = .ok (.onVolume "V)" (.member "A.B" "M")) := rfl
  have hdash : ofDataSetPath "-/M" = .ok (.member "-" "M") := rfl
  obtain ⟨_, hprinted⟩ := data_set_paths_are_addresses " -(V))/A.B/M"
  obtain ⟨_, ⟨⟩, hread⟩ := hprinted _ hvolume
  obtain ⟨_, hprinted⟩ := data_set_paths_are_addresses "-/M"
  obtain ⟨_, ⟨⟩, hrefused⟩ := hprinted _ hdash
  refine ⟨⟨hvolume, hread.2 nofun⟩, hdash, fun h => ?_⟩
  exact hrefused.1 h "M" rfl

end MvsGateway.Target
