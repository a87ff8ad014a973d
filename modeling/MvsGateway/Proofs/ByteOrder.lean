import MvsGateway.Proofs.Utf8

/-!
# The order of texts

Texts are ordered by their characters, and this is the order of the bytes that
encode them. Of two characters the smaller one has the smaller first byte, or
the same one, and then the bytes behind it decide.
-/

namespace MvsGateway

/-- A common front does not matter for the order. -/
theorem Chars.append_lt_append_iff {α : Type} [LT α] [Std.Irrefl (α := α) (· < ·)]
    (front : List α) {s t : List α} : front ++ s < front ++ t ↔ s < t := by
  induction front with
  | nil => rfl
  | cons a front ih =>
    rw [List.cons_append, List.cons_append, List.cons_lt_cons_iff, ih]
    have hself : ¬a < a := Std.Irrefl.irrefl a
    simp [hself]

namespace Utf8

/-! ## One character -/

/-- The bytes behind the first one, with six bits each. -/
def tailBytes : Nat → Nat → List UInt8
  | 0, _ => []
  | n + 1, bits => tailBytes n (bits / 64) ++ [tailByte bits]

/-- The bits that so many bytes leave over. -/
def leadBits : Nat → Nat → Nat
  | 0, bits => bits
  | n + 1, bits => leadBits n (bits / 64)

/-- The first byte has the bits left over, and a mark that says how many bytes
are behind it. -/
theorem utf8EncodeChar_eq (c : Char) : ∃ n mark,
    String.utf8EncodeChar c = UInt8.ofNat (leadBits n c.toNat + mark) :: tailBytes n c.toNat ∧
      (n = 0 ∧ mark = 0 ∧ c.toNat < 128 ∨
        n = 1 ∧ mark = 192 ∧ 128 ≤ c.toNat ∧ c.toNat < 2048 ∨
        n = 2 ∧ mark = 224 ∧ 2048 ≤ c.toNat ∧ c.toNat < 65536 ∨
        n = 3 ∧ mark = 240 ∧ 65536 ≤ c.toNat ∧ c.toNat < 1114112) := by
  have hcode : c.val.toNat = c.toNat := rfl
  have hvalid : c.val.toNat < 55296 ∨ 57343 < c.val.toNat ∧ c.val.toNat < 1114112 := c.valid
  simp only [String.utf8EncodeChar]
  rw [hcode] at hvalid ⊢
  split
  · refine ⟨0, 0, ?_, .inl ⟨rfl, rfl, by omega⟩⟩
    simp [tailBytes, leadBits]
  · split
    · refine ⟨1, 192, ?_, .inr (.inl ⟨rfl, rfl, by omega, by omega⟩)⟩
      have hlead : c.toNat / 64 % 32 = c.toNat / 64 := by omega
      simp [tailBytes, leadBits, tailByte, hlead]
    · split
      · refine ⟨2, 224, ?_, .inr (.inr (.inl ⟨rfl, rfl, by omega, by omega⟩))⟩
        have hlead : c.toNat / 4096 % 16 = c.toNat / 4096 := by omega
        simp [tailBytes, leadBits, tailByte, Nat.div_div_eq_div_mul, hlead]
      · refine ⟨3, 240, ?_, .inr (.inr (.inr ⟨rfl, rfl, by omega, by omega⟩))⟩
        have hlead : c.toNat / 262144 % 8 = c.toNat / 262144 := by omega
        simp [tailBytes, leadBits, tailByte, Nat.div_div_eq_div_mul, hlead]

theorem ofNat_lt {a b : Nat} (hlt : a < b) (hb : b < 256) : UInt8.ofNat a < UInt8.ofNat b := by
  rw [UInt8.lt_iff_toNat_lt, UInt8.toNat_ofNat', UInt8.toNat_ofNat']
  omega

theorem tailByte_lt {a b : Nat} (hhigh : a / 64 = b / 64) (hlt : a < b) :
    tailByte a < tailByte b := by
  rw [UInt8.lt_iff_toNat_lt, toNat_tailByte, toNat_tailByte]
  omega

/-- Where the bits left over are the same, the bytes decide. -/
theorem tailBytes_lt {n v w : Nat} (hlead : leadBits n v = leadBits n w) (hlt : v < w)
    (r u : List UInt8) : tailBytes n v ++ r < tailBytes n w ++ u := by
  induction n generalizing v w r u with
  | zero => exact absurd hlead (Nat.ne_of_lt hlt)
  | succ n ih =>
    rw [tailBytes, tailBytes, List.append_assoc, List.append_assoc]
    by_cases hsame : v / 64 = w / 64
    · rw [hsame, Chars.append_lt_append_iff]
      exact List.cons_lt_cons_iff.2 (.inl (tailByte_lt hsame hlt))
    · apply ih hlead
      exact Nat.lt_of_le_of_ne (Nat.div_le_div_right (Nat.le_of_lt hlt)) hsame

theorem utf8EncodeChar_lt {c d : Char} (h : c < d) (r u : List UInt8) :
    String.utf8EncodeChar c ++ r < String.utf8EncodeChar d ++ u := by
  have hlt : c.toNat < d.toNat := h
  obtain ⟨n, mark, hc, hn⟩ := utf8EncodeChar_eq c
  obtain ⟨m, other, hd, hm⟩ := utf8EncodeChar_eq d
  -- With more bytes behind it the first byte has a greater mark.
  have hfirst : leadBits n c.toNat + mark < leadBits m d.toNat + other ∨
      n = m ∧ mark = other ∧ leadBits n c.toNat = leadBits m d.toNat := by
    rcases hn with ⟨rfl, rfl, hn⟩ | ⟨rfl, rfl, hn⟩ | ⟨rfl, rfl, hn⟩ | ⟨rfl, rfl, hn⟩ <;>
      rcases hm with ⟨rfl, rfl, hm⟩ | ⟨rfl, rfl, hm⟩ | ⟨rfl, rfl, hm⟩ | ⟨rfl, rfl, hm⟩ <;>
      simp only [leadBits, true_and] <;> omega
  have hbyte : leadBits m d.toNat + other < 256 := by
    rcases hm with ⟨rfl, rfl, hm⟩ | ⟨rfl, rfl, hm⟩ | ⟨rfl, rfl, hm⟩ | ⟨rfl, rfl, hm⟩ <;>
      simp only [leadBits] <;> omega
  rw [hc, hd, List.cons_append, List.cons_append, List.cons_lt_cons_iff]
  rcases hfirst with hless | ⟨rfl, rfl, hsame⟩
  · exact .inl (ofNat_lt hless hbyte)
  · exact .inr ⟨by rw [hsame], tailBytes_lt hsame hlt r u⟩

/-! ## Texts -/

theorem encode_lt {s t : List Char} (h : s < t) : encode s < encode t := by
  induction s generalizing t with
  | nil =>
    cases t with
    | nil => exact absurd h (List.lt_irrefl [])
    | cons d t =>
      obtain ⟨n, mark, hd, _⟩ := utf8EncodeChar_eq d
      rw [encode, encode, List.flatMap_cons, hd]
      exact List.nil_lt_cons _ _
  | cons c s ih =>
    cases t with
    | nil => exact absurd h (List.not_lt_nil _)
    | cons d t =>
      rw [encode, encode, List.flatMap_cons, List.flatMap_cons]
      rcases List.cons_lt_cons_iff.1 h with hlt | ⟨rfl, hrest⟩
      · exact utf8EncodeChar_lt hlt _ _
      · exact (Chars.append_lt_append_iff _).2 (ih hrest)

/-- The order of texts is the order of their bytes. -/
theorem encode_lt_iff {s t : List Char} : encode s < encode t ↔ s < t := by
  refine ⟨fun h => ?_, encode_lt⟩
  by_cases hlt : s < t
  · exact hlt
  · by_cases hgt : t < s
    · exact absurd (Std.lt_trans h (encode_lt hgt)) Std.lt_irrefl
    · have hsame : s = t := Std.le_antisymm (Std.not_lt.1 hgt) (Std.not_lt.1 hlt)
      rw [hsame] at h
      exact absurd h Std.lt_irrefl

end Utf8

end MvsGateway
