import MvsGateway.Host.DataSetName

/-!
# Addresses of data sets

The host puts a name into upper case before it looks for a member. So names
that differ in the case of letters alone are one address, and an address has
no lower-case letters. The name of a data set that the host allocates and a
member behind it read back as the two.
-/

namespace MvsGateway.Host

theorem mem_name_or_member {s before after member : List Char}
    (hcut : Chars.cutAt ['('] s = some (before, after))
    (hlast : Chars.dropLast? ')' after = some member) :
    s = before ++ '(' :: (member ++ [')']) := by
  rw [Chars.cutAt_eq_some hcut, Chars.dropLast?_eq_some_iff.1 hlast]

namespace Dsn

theorem ofText_eq_of_upper_eq {s t : String} (h : Text.upper s = Text.upper t) :
    ofText s = ofText t := by
  unfold ofText
  rw [Text.upper_trim, Text.upper_trim, h]

/-- Both parts of an address are in upper case. -/
theorem upper_ofText (s : String) :
    Text.upper (ofText s).name = (ofText s).name ∧
      ∀ member, (ofText s).member = some member → Text.upper member = member := by
  unfold ofText
  simp only
  generalize htext : Text.upper (Text.trim s) = text
  have hupper : Text.upper text = text := by rw [← htext, Text.upper_upper]
  have hchars := Text.upper_eq_self_iff.1 hupper
  cases hcut : Chars.cutAt ['('] text.toList with
  | none => exact ⟨hupper, nofun⟩
  | some parts =>
    obtain ⟨before, after⟩ := parts
    simp only
    cases hlast : Chars.dropLast? ')' after with
    | none => exact ⟨hupper, nofun⟩
    | some inner =>
      rw [mem_name_or_member hcut hlast] at hchars
      refine ⟨?_, ?_⟩
      · rw [Text.upper_eq_self_iff, String.toList_ofList]
        intro c hc
        exact hchars c (List.mem_append_left _ hc)
      · intro member hmember
        cases hmember
        rw [Text.upper_eq_self_iff, String.toList_ofList]
        intro c hc
        refine hchars c (List.mem_append_right _ (List.mem_cons_of_mem _ ?_))
        exact List.mem_append_left _ hc

end Dsn

namespace Dsn

/-- The texts that name a member: those with it in parentheses at their end. -/
theorem ofText_eq_member_iff {s name member : String} :
    ofText s = ⟨name, some member⟩ ↔
      Text.upper (Text.trim s) = name ++ "(" ++ member ++ ")" ∧ '(' ∉ name.toList := by
  unfold ofText
  simp only
  generalize Text.upper (Text.trim s) = text
  constructor
  · intro h
    cases hcut : Chars.cutAt ['('] text.toList with
    | none =>
      rw [hcut] at h
      cases h
    | some parts =>
      obtain ⟨before, after⟩ := parts
      cases hlast : Chars.dropLast? ')' after with
      | none =>
        simp only [hcut, hlast] at h
        cases h
      | some inner =>
        simp only [hcut, hlast] at h
        cases h
        refine ⟨?_, ?_⟩
        · rw [← String.toList_inj, mem_name_or_member hcut hlast]
          simp
        · rw [String.toList_ofList]
          exact Chars.not_mem_of_cutAt hcut
  · rintro ⟨rfl, hopen⟩
    have hcut : Chars.cutAt ['('] (name ++ "(" ++ member ++ ")").toList =
        some (name.toList, member.toList ++ [')']) := by
      simpa using Chars.cutAt_append hopen (member.toList ++ [')'])
    have hlast : Chars.dropLast? ')' (member.toList ++ [')']) = some member.toList :=
      Chars.dropLast?_eq_some_iff.2 rfl
    simp only [hcut, hlast, String.ofList_toList]

end Dsn

theorem append_parentheses (name : String) : name ++ "(" ++ "" ++ ")" = name ++ "()" := by
  rw [← String.toList_inj]
  simp

/-! ## Names of data sets -/

theorem mem_qualifier {q : List Char} (h : isQualifier q = true) {c : Char} (hc : c ∈ q) :
    c.isAlphanum = true ∨ isNational c = true ∨ c = '-' := by
  unfold isQualifier at h
  split at h
  · cases hc
  · simp only [Bool.and_eq_true, List.all_eq_true, Bool.or_eq_true, beq_iff_eq] at h
    rcases h.2 c hc with (h | h) | h
    · exact .inl h
    · exact .inr (.inl h)
    · exact .inr (.inr h)

/-- A name without a fault is not empty, and its characters are those of
qualifiers and dots. -/
theorem mem_of_nameFault? {name : String} (h : nameFault? name = none) :
    name.toList ≠ [] ∧ ∀ c ∈ name.toList,
      c.isAlphanum = true ∨ isNational c = true ∨ c = '-' ∨ c = '.' := by
  unfold nameFault? at h
  split at h
  · cases h
  · rename_i hsize
    simp only [Bool.or_eq_true, not_or] at hsize
    refine ⟨by simpa using hsize.1, fun c hc => ?_⟩
    split at h
    · cases h
    · rename_i hpieces
      by_cases hdot : c = '.'
      · exact .inr (.inr (.inr hdot))
      · obtain ⟨piece, hpiece, hmem⟩ := Chars.mem_splitAt hc hdot
        have hqualifier := List.find?_eq_none.1 hpieces piece hpiece
        rcases mem_qualifier (by simpa using hqualifier) hmem with h | h | h
        · exact .inl h
        · exact .inr (.inl h)
        · exact .inr (.inr (.inl h))

/-- No character of a name is blank, or begins a member. -/
theorem plain_of_nameFault? {name : String} (h : nameFault? name = none) {c : Char}
    (hc : c ∈ name.toList) : Chars.isBlank c = false ∧ c ≠ '(' := by
  rcases (mem_of_nameFault? h).2 c hc with h | h | rfl | rfl
  · refine ⟨Chars.isBlank_of_isAlphanum h, ?_⟩
    rintro rfl
    cases h
  · simp only [isNational, Bool.or_eq_true, beq_iff_eq] at h
    rcases h with (rfl | rfl) | rfl <;> decide
  · decide
  · decide

namespace Dsn

/-- A name of the host's is the address of the whole data set. -/
theorem ofText_name {name : String} (hname : nameFault? name = none)
    (hupper : Text.upper name = name) : ofText name = ⟨name, none⟩ := by
  have hplain : ∀ c ∈ name.toList, Chars.isBlank c = false ∧ c ≠ '(' :=
    fun _ => plain_of_nameFault? hname
  have htrim : Text.trim name = name := Text.trim_eq_self fun c hc => (hplain c hc).1
  have hcut : Chars.cutAt ['('] name.toList = none :=
    Chars.cutAt_of_not_mem fun h => (hplain '(' h).2 rfl
  unfold ofText
  simp only [htrim, hupper, hcut]

/-- A name of the host's, with a member behind it in any case, is the address
of that member. -/
theorem ofText_member {name : String} (hname : nameFault? name = none)
    (hupper : Text.upper name = name) (member : String) :
    ofText (name ++ "(" ++ member ++ ")") = ⟨name, some (Text.upper member)⟩ := by
  have htrim : Text.trim (name ++ "(" ++ member ++ ")") = name ++ "(" ++ member ++ ")" := by
    rw [← String.toList_inj, Text.toList_trim]
    apply Chars.trim_eq_self
    · intro c hc
      cases hchars : name.toList with
      | nil => exact absurd hchars (mem_of_nameFault? hname).1
      | cons d r =>
        have hd : d = c := by simpa [hchars] using hc
        rw [← hd]
        exact (plain_of_nameFault? hname (hchars ▸ List.mem_cons_self)).1
    · intro c hc
      rw [String.toList_append, List.getLast?_append] at hc
      cases hc
      rfl
  rw [ofText_eq_member_iff, htrim, Text.upper_append, Text.upper_append, Text.upper_append, hupper]
  exact ⟨rfl, fun h => (plain_of_nameFault? hname h).2 rfl⟩

end Dsn

end MvsGateway.Host
