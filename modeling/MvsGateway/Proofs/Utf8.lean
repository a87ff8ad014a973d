import MvsGateway.Utf8

/-!
# UTF-8 is read back

The decoder takes the bytes of an encoded text apart into the characters that
they encode, one sequence after the other. The first byte of a sequence tells
its length, and each byte behind it adds six bits to those of the character.
-/

namespace MvsGateway.Utf8

/-- A byte behind the first one, with the six bits that it adds. -/
def tailByte (bits : Nat) : UInt8 := UInt8.ofNat (bits % 64 + 128)

theorem toNat_tailByte (bits : Nat) : (tailByte bits).toNat = bits % 64 + 128 := by
  rw [tailByte, UInt8.toNat_ofNat']
  omega

theorem le_tailByte_iff {low : UInt8} {bits : Nat} :
    low ≤ tailByte bits ↔ low.toNat ≤ bits % 64 + 128 := by
  rw [UInt8.le_iff_toNat_le, toNat_tailByte]

theorem tailByte_le_iff {high : UInt8} {bits : Nat} :
    tailByte bits ≤ high ↔ bits % 64 + 128 ≤ high.toNat := by
  rw [UInt8.le_iff_toNat_le, toNat_tailByte]

theorem le_tailByte (bits : Nat) : 0x80 ≤ tailByte bits :=
  le_tailByte_iff.2 (Nat.le_add_left 128 (bits % 64))

theorem tailByte_le (bits : Nat) : tailByte bits ≤ 0xBF :=
  tailByte_le_iff.2 (show bits % 64 + 128 ≤ 191 by omega)

/-! ## One byte -/

theorem scan_last {bits n : Nat} {low high : UInt8} (hlow : low ≤ tailByte n)
    (hhigh : tailByte n ≤ high) (r : List UInt8) :
    scan (some ⟨1, bits, low, high⟩) (tailByte n :: r) =
      some (Char.ofNat (bits * 64 + n % 64)) :: scan none r := by
  simp [scan, hlow, hhigh, toNat_tailByte]

theorem scan_tail {left bits n : Nat} {low high : UInt8} (hlow : low ≤ tailByte n)
    (hhigh : tailByte n ≤ high) (r : List UInt8) :
    scan (some ⟨left + 2, bits, low, high⟩) (tailByte n :: r) =
      scan (some ⟨left + 1, bits * 64 + n % 64, 0x80, 0xBF⟩) r := by
  simp [scan, hlow, hhigh, toNat_tailByte]

/-! ## One character -/

/-- The classes of first bytes, by number. -/
theorem lead_eq {b : UInt8} {n : Nat} (hb : b.toNat = n) :
    lead b =
      if n < 128 then .ascii (Char.ofNat n)
      else if n < 194 then .illFormed
      else if n < 224 then .opens ⟨1, n - 192, 0x80, 0xBF⟩
      else if n = 224 then .opens ⟨2, 0, 0xA0, 0xBF⟩
      else if n = 237 then .opens ⟨2, 13, 0x80, 0x9F⟩
      else if n < 240 then .opens ⟨2, n - 224, 0x80, 0xBF⟩
      else if n = 240 then .opens ⟨3, 0, 0x90, 0xBF⟩
      else if n = 244 then .opens ⟨3, 4, 0x80, 0x8F⟩
      else if n < 244 then .opens ⟨3, n - 240, 0x80, 0xBF⟩
      else .illFormed := by
  simp only [lead, UInt8.lt_iff_toNat_lt, beq_iff_eq, ← UInt8.toNat_inj, hb]
  rfl

theorem scan_two {v : Nat} (hlow : 128 ≤ v) (hhigh : v ≤ 2047) (r : List UInt8) :
    scan none (UInt8.ofNat (v / 64 % 32 + 192) :: tailByte v :: r) =
      some (Char.ofNat v) :: scan none r := by
  have hlead : lead (UInt8.ofNat (v / 64 % 32 + 192)) = .opens ⟨1, v / 64, 0x80, 0xBF⟩ := by
    have hb : (UInt8.ofNat (v / 64 % 32 + 192)).toNat = v / 64 + 192 := by
      rw [UInt8.toNat_ofNat']
      omega
    rw [lead_eq hb, if_neg (by omega), if_neg (by omega), if_pos (by omega), Nat.add_sub_cancel]
  have hvalue : v / 64 * 64 + v % 64 = v := by omega
  rw [scan]
  simp only [hlead]
  rw [scan_last (le_tailByte v) (tailByte_le v), hvalue]

/-- The narrower range of the byte behind `E0` and `ED` leaves out what two
bytes can encode, and the surrogates. -/
theorem lead_three {v : Nat} (hlow : 2048 ≤ v) (hhigh : v ≤ 65535)
    (hvalid : v < 55296 ∨ 57343 < v) :
    ∃ low high, lead (UInt8.ofNat (v / 4096 % 16 + 224)) = .opens ⟨2, v / 4096, low, high⟩ ∧
      low ≤ tailByte (v / 64) ∧ tailByte (v / 64) ≤ high := by
  have hb : (UInt8.ofNat (v / 4096 % 16 + 224)).toNat = v / 4096 + 224 := by
    rw [UInt8.toNat_ofNat']
    omega
  rw [lead_eq hb, if_neg (by omega), if_neg (by omega), if_neg (by omega)]
  by_cases hfirst : v / 4096 = 0
  · refine ⟨0xA0, 0xBF, ?_, ?_, tailByte_le _⟩
    · rw [if_pos (by omega), hfirst]
    · exact le_tailByte_iff.2 (show 160 ≤ v / 64 % 64 + 128 by omega)
  · by_cases hsurrogates : v / 4096 = 13
    · refine ⟨0x80, 0x9F, ?_, le_tailByte _, ?_⟩
      · rw [if_neg (by omega), if_pos (by omega), hsurrogates]
      · exact tailByte_le_iff.2 (show v / 64 % 64 + 128 ≤ 159 by omega)
    · refine ⟨0x80, 0xBF, ?_, le_tailByte _, tailByte_le _⟩
      rw [if_neg (by omega), if_neg (by omega), if_pos (by omega), Nat.add_sub_cancel]

theorem scan_three {v : Nat} (hlow : 2048 ≤ v) (hhigh : v ≤ 65535)
    (hvalid : v < 55296 ∨ 57343 < v) (r : List UInt8) :
    scan none (UInt8.ofNat (v / 4096 % 16 + 224) :: tailByte (v / 64) :: tailByte v :: r) =
      some (Char.ofNat v) :: scan none r := by
  obtain ⟨low, high, hlead, hfrom, hto⟩ := lead_three hlow hhigh hvalid
  have hvalue : (v / 4096 * 64 + v / 64 % 64) * 64 + v % 64 = v := by omega
  rw [scan]
  simp only [hlead]
  rw [scan_tail hfrom hto, scan_last (le_tailByte v) (tailByte_le v), hvalue]

/-- The narrower range of the byte behind `F0` and `F4` leaves out what three
bytes can encode, and what is no code point. -/
theorem lead_four {v : Nat} (hlow : 65536 ≤ v) (hhigh : v ≤ 1114111) :
    ∃ low high, lead (UInt8.ofNat (v / 262144 % 8 + 240)) = .opens ⟨3, v / 262144, low, high⟩ ∧
      low ≤ tailByte (v / 4096) ∧ tailByte (v / 4096) ≤ high := by
  have hb : (UInt8.ofNat (v / 262144 % 8 + 240)).toNat = v / 262144 + 240 := by
    rw [UInt8.toNat_ofNat']
    omega
  rw [lead_eq hb, if_neg (by omega), if_neg (by omega), if_neg (by omega), if_neg (by omega),
    if_neg (by omega), if_neg (by omega)]
  by_cases hfirst : v / 262144 = 0
  · refine ⟨0x90, 0xBF, ?_, ?_, tailByte_le _⟩
    · rw [if_pos (by omega), hfirst]
    · exact le_tailByte_iff.2 (show 144 ≤ v / 4096 % 64 + 128 by omega)
  · by_cases hlast : v / 262144 = 4
    · refine ⟨0x80, 0x8F, ?_, le_tailByte _, ?_⟩
      · rw [if_neg (by omega), if_pos (by omega), hlast]
      · exact tailByte_le_iff.2 (show v / 4096 % 64 + 128 ≤ 143 by omega)
    · refine ⟨0x80, 0xBF, ?_, le_tailByte _, tailByte_le _⟩
      rw [if_neg (by omega), if_neg (by omega), if_pos (by omega), Nat.add_sub_cancel]

theorem scan_four {v : Nat} (hlow : 65536 ≤ v) (hhigh : v ≤ 1114111) (r : List UInt8) :
    scan none (UInt8.ofNat (v / 262144 % 8 + 240) :: tailByte (v / 4096) :: tailByte (v / 64) ::
      tailByte v :: r) = some (Char.ofNat v) :: scan none r := by
  obtain ⟨low, high, hlead, hfrom, hto⟩ := lead_four hlow hhigh
  have hvalue : ((v / 262144 * 64 + v / 4096 % 64) * 64 + v / 64 % 64) * 64 + v % 64 = v := by
    omega
  rw [scan]
  simp only [hlead]
  rw [scan_tail hfrom hto, scan_tail (le_tailByte _) (tailByte_le _),
    scan_last (le_tailByte v) (tailByte_le v), hvalue]

theorem scan_encodeChar (c : Char) (r : List UInt8) :
    scan none (String.utf8EncodeChar c ++ r) = some c :: scan none r := by
  have hchar : Char.ofNat c.val.toNat = c := Char.ofNat_toNat c
  have hvalid : c.val.toNat < 55296 ∨ 57343 < c.val.toNat ∧ c.val.toNat < 1114112 := c.valid
  -- The encoding has as many bytes as the code point needs.
  simp only [String.utf8EncodeChar]
  split
  · rename_i hone
    have hb : (UInt8.ofNat c.val.toNat).toNat = c.val.toNat := by
      rw [UInt8.toNat_ofNat']
      omega
    have hlead : lead (UInt8.ofNat c.val.toNat) = .ascii c := by
      rw [lead_eq hb, if_pos (by omega), hchar]
    rw [List.singleton_append, scan]
    simp only [hlead]
  · split
    · exact (scan_two (by omega) (by omega) r).trans (by rw [hchar])
    · split
      · exact (scan_three (by omega) (by omega) (by omega) r).trans (by rw [hchar])
      · exact (scan_four (by omega) (by omega) r).trans (by rw [hchar])

/-! ## Texts -/

theorem scan_encode (s : List Char) : scan none (encode s) = s.map some := by
  induction s with
  | nil => rfl
  | cons c r ih =>
    rw [encode, List.flatMap_cons, scan_encodeChar]
    exact congrArg _ ih

/-- Every text is read back from its encoding. -/
theorem decode?_encode (s : List Char) : decode? (encode s) = some s := by
  rw [decode?, scan_encode]
  induction s with
  | nil => rfl
  | cons c r ih =>
    rw [List.map_cons, List.mapM_cons, ih]
    rfl

end MvsGateway.Utf8
