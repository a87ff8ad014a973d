import MvsGateway.Chars.Blank

/-!
# Letter case

Changing the case moves an ASCII letter by thirty-two places and leaves every
other character as it is. What depends on the place of a character alone is
decided from that.
-/

namespace MvsGateway.Chars

theorem toUpper_cases (c : Char) :
    c.toUpper = c ∨ (97 ≤ c.toNat ∧ c.toNat ≤ 122 ∧ c.toUpper.toNat + 32 = c.toNat) := by
  unfold Char.toUpper
  split
  · rename_i h
    have hlow : 97 ≤ c.val.toNat := h.1
    have hhigh : c.val.toNat ≤ 122 := h.2
    refine .inr ⟨hlow, hhigh, ?_⟩
    show (c.val + ('A'.val - 'a'.val)).toNat + 32 = c.val.toNat
    rw [UInt32.toNat_add]
    show (c.val.toNat + 4294967264) % 4294967296 + 32 = _
    omega
  · exact .inl rfl

theorem toLower_cases (c : Char) :
    c.toLower = c ∨ (65 ≤ c.toNat ∧ c.toNat ≤ 90 ∧ c.toLower.toNat = c.toNat + 32) := by
  unfold Char.toLower
  split
  · rename_i h
    have hlow : 65 ≤ c.val.toNat := h.1
    have hhigh : c.val.toNat ≤ 90 := h.2
    refine .inr ⟨hlow, hhigh, ?_⟩
    show (c.val + ('a'.val - 'A'.val)).toNat = c.val.toNat + 32
    rw [UInt32.toNat_add]
    show (c.val.toNat + 32) % 4294967296 = _
    omega
  · exact .inl rfl

theorem toUpper_toUpper (c : Char) : c.toUpper.toUpper = c.toUpper := by
  rcases toUpper_cases c.toUpper with h | ⟨hlow, hhigh, _⟩
  · exact h
  · rcases toUpper_cases c with h | ⟨_, _, h⟩
    · rw [h, h]
    · omega

/-- A character that upper case leaves alone is no lower-case letter. -/
theorem isLower_of_toUpper_eq {c : Char} (h : c.toUpper = c) : c.isLower = false := by
  rw [Bool.eq_false_iff]
  intro hlower
  have hrange : 'a'.val ≤ c.val ∧ c.val ≤ 'z'.val :=
    (Bool.and_eq_true_iff.1 hlower).imp of_decide_eq_true of_decide_eq_true
  unfold Char.toUpper at h
  rw [dif_pos hrange] at h
  have hmoved := congrArg (fun d : Char => d.val.toNat) h
  have hlow : 97 ≤ c.val.toNat := hrange.1
  simp only [UInt32.toNat_add] at hmoved
  have hshift : (c.val.toNat + 4294967264) % 4294967296 = c.val.toNat := hmoved
  omega

/-- What stands before the letters is no other character in upper case. -/
theorem toUpper_eq_iff {c d : Char} (hd : d.toNat < 65) : c.toUpper = d ↔ c = d := by
  rcases toUpper_cases c with h | ⟨hlow, hhigh, h⟩
  · rw [h]
  · constructor
    · rintro rfl
      omega
    · rintro rfl
      omega

theorem mem_map_toUpper_iff {d : Char} (hd : d.toNat < 65) {s : List Char} :
    d ∈ s.map Char.toUpper ↔ d ∈ s := by
  simp [List.mem_map, toUpper_eq_iff hd]

/-- No letter is blank, so that the case does not matter for blanks. -/
theorem isBlank_toUpper (c : Char) : isBlank c.toUpper = isBlank c := by
  rcases toUpper_cases c with h | ⟨hlow, hhigh, h⟩
  · rw [h]
  · have hupper : isBlank c.toUpper = false := by
      simp [isBlank]
      omega
    have hlower : isBlank c = false := by
      simp [isBlank]
      omega
    rw [hupper, hlower]

theorem toLower_of_isDigit {c : Char} (h : c.isDigit = true) : c.toLower = c := by
  rcases toLower_cases c with hsame | ⟨hlow, _, _⟩
  · exact hsame
  · have hhigh : c.toNat ≤ 57 := (Char.isDigit_iff_toNat.1 h).2
    omega

theorem trim_toUpper (s : List Char) : trim (s.map Char.toUpper) = (trim s).map Char.toUpper :=
  trim_map isBlank_toUpper s

end MvsGateway.Chars
