/-!
# Decimal numbers

A number is read by value, whatever its length and its leading zeros, and
written with the digits `0` to `9`, padded where a column asks for it.
-/

namespace MvsGateway.Chars

def digitValue (c : Char) : Nat := c.toNat - '0'.toNat

/-- The number that a run of digits denotes. -/
def decimalValue (s : List Char) : Nat :=
  s.foldl (fun n c => n * 10 + digitValue c) 0

/-- The value of a non-empty run of digits; any other text has none. -/
def decimal? (s : List Char) : Option Nat :=
  if s.isEmpty || !s.all Char.isDigit then none else some (decimalValue s)

/-- The decimal digits of a number, without leading zeros. -/
def decimal (n : Nat) : List Char := Nat.toDigits 10 n

/-- Fills a text up on the left to `width` characters. -/
def padLeft (fill : Char) (width : Nat) (s : List Char) : List Char :=
  List.replicate (width - s.length) fill ++ s

/-- Fills a text up on the right to `width` characters. -/
def padRight (fill : Char) (width : Nat) (s : List Char) : List Char :=
  s ++ List.replicate (width - s.length) fill

/-! ## Digits of a number -/

theorem isDigit_of_mem_decimal {n : Nat} {c : Char} (h : c ∈ decimal n) : c.isDigit = true :=
  Nat.isDigit_of_mem_toDigits (by omega) (by omega) h

theorem decimal_ne_nil (n : Nat) : decimal n ≠ [] := Nat.toDigits_ne_nil

/-- Only zero starts with a zero. -/
theorem head?_decimal_ne_zero {n : Nat} (h : 0 < n) : (decimal n).head? ≠ some '0' := by
  induction n using Nat.strongRecOn with
  | ind n ih =>
    unfold decimal
    by_cases hlt : n < 10
    · rw [Nat.toDigits_of_lt_base hlt, List.head?_cons, ne_eq, Option.some.injEq,
        Nat.digitChar_eq_zero]
      omega
    · have hfront := ih (n / 10) (by omega) (by omega)
      rw [Nat.toDigits_of_base_le (by omega) (by omega), List.head?_append]
      -- The digits in front are those of a smaller number, of which there is one at least.
      cases hdigits : decimal (n / 10) with
      | nil => exact absurd hdigits (decimal_ne_nil _)
      | cons c r =>
        rw [hdigits] at hfront
        rw [show Nat.toDigits 10 (n / 10) = c :: r from hdigits]
        exact hfront

/-! ## Runs of digits -/

/-- At least one digit, and nothing else. -/
def IsRun (s : List Char) : Prop := s ≠ [] ∧ ∀ c ∈ s, c.isDigit = true

theorem decimal?_of_isRun {s : List Char} (h : IsRun s) : decimal? s = some (decimalValue s) := by
  have hplain : (s.isEmpty || !s.all Char.isDigit) = false := by
    simp [h.1, List.all_eq_true.2 h.2]
  rw [decimal?, hplain]
  rfl

theorem decimal?_of_not_isRun {s : List Char} (h : ¬IsRun s) : decimal? s = none := by
  rw [decimal?, if_pos]
  have hsome : s = [] ∨ ∃ c ∈ s, c.isDigit = false := by
    simpa [IsRun, Classical.or_iff_not_imp_left] using h
  rcases hsome with rfl | ⟨c, hc, hdigit⟩
  · rfl
  · simp only [Bool.or_eq_true, Bool.not_eq_true', List.all_eq_false]
    exact .inr ⟨c, hc, by simp [hdigit]⟩

theorem digitChar_digitValue {c : Char} (h : c.isDigit = true) :
    digitValue c < 10 ∧ Nat.digitChar (digitValue c) = c := by
  obtain ⟨hlow, hhigh⟩ := Char.isDigit_iff_toNat.1 h
  have hzero : '0'.toNat = 48 := rfl
  have hnine : '9'.toNat = 57 := rfl
  have hlt : digitValue c < 10 := by
    unfold digitValue
    omega
  refine ⟨hlt, ?_⟩
  rw [← Char.toNat_inj, Nat.toNat_digitChar_of_lt_ten hlt, digitValue]
  omega

theorem digit_digitChar {d : Nat} (hd : d < 10) :
    (Nat.digitChar d).isDigit = true ∧ digitValue (Nat.digitChar d) = d := by
  have hcode := Nat.toNat_digitChar_of_lt_ten hd
  have hzero : '0'.toNat = 48 := rfl
  have hnine : '9'.toNat = 57 := rfl
  refine ⟨Char.isDigit_iff_toNat.2 ⟨by omega, by omega⟩, ?_⟩
  rw [digitValue]
  omega

/-- Digits behind a number that is not zero are those of a greater number. -/
theorem decimal_append_eq {s : List Char} (hdigits : ∀ c ∈ s, c.isDigit = true) {n : Nat}
    (hn : 0 < n) : decimal n ++ s = decimal (s.foldl (fun n c => n * 10 + digitValue c) n) := by
  induction s generalizing n with
  | nil => exact List.append_nil _
  | cons c s ih =>
    obtain ⟨hlt, hchar⟩ := digitChar_digitValue (hdigits c List.mem_cons_self)
    have hnext : decimal n ++ [c] = decimal (n * 10 + digitValue c) := by
      have happend := Nat.toDigits_append_toDigits (b := 10) (by omega) hn hlt
      rwa [Nat.toDigits_of_lt_base hlt, hchar, Nat.mul_comm] at happend
    have hrest := ih (fun d hd => hdigits d (List.mem_cons_of_mem c hd))
      (n := n * 10 + digitValue c) (by omega)
    rw [← hnext] at hrest
    simpa using hrest

/-- A run of digits is that of a number, with zeros in front. -/
theorem eq_zeros_append_decimal {s : List Char} (hne : s ≠ [])
    (hdigits : ∀ c ∈ s, c.isDigit = true) :
    ∃ zeros, s = List.replicate zeros '0' ++ decimal (decimalValue s) := by
  induction s with
  | nil => exact absurd rfl hne
  | cons c s ih =>
    have hrest : ∀ d ∈ s, d.isDigit = true := fun d hd => hdigits d (List.mem_cons_of_mem c hd)
    obtain ⟨hlt, hchar⟩ := digitChar_digitValue (hdigits c List.mem_cons_self)
    have hvalue : decimalValue (c :: s) =
        s.foldl (fun n c => n * 10 + digitValue c) (digitValue c) := by
      simp [decimalValue]
    by_cases hzero : digitValue c = 0
    · have hc : c = '0' := by rw [← hchar, hzero]; rfl
      rw [hvalue, hzero, hc]
      cases s with
      | nil => exact ⟨0, rfl⟩
      | cons d s =>
        obtain ⟨zeros, hs⟩ := ih (by simp) hrest
        exact ⟨zeros + 1, congrArg (List.cons '0') hs⟩
    · refine ⟨0, ?_⟩
      have happend := decimal_append_eq hrest (Nat.pos_of_ne_zero hzero)
      rw [decimal, Nat.toDigits_of_lt_base hlt, hchar] at happend
      rw [hvalue, ← happend]
      rfl

theorem decimalValue_zeros_append_decimal (zeros n : Nat) :
    decimalValue (List.replicate zeros '0' ++ decimal n) = n := by
  have hfold (s : List Char) : decimalValue s = Nat.ofDigitChars 10 s 0 := by
    simp only [decimalValue, Nat.ofDigitChars, digitValue, Nat.mul_comm]
  rw [hfold, decimal, Nat.ofDigitChars_append, Nat.ofDigitChars_replicate_zero, Nat.mul_zero,
    Nat.ofDigitChars_ten_toDigits]

theorem isDigit_of_mem_zeros_append {zeros n : Nat} {c : Char}
    (h : c ∈ List.replicate zeros '0' ++ decimal n) : c.isDigit = true := by
  rcases List.mem_append.1 h with h | h
  · rw [List.eq_of_mem_replicate h]
    rfl
  · exact isDigit_of_mem_decimal h

theorem decimal?_eq_some_iff {s : List Char} {n : Nat} :
    decimal? s = some n ↔ ∃ zeros, s = List.replicate zeros '0' ++ decimal n := by
  constructor
  · intro h
    by_cases hrun : IsRun s
    · rw [decimal?_of_isRun hrun] at h
      cases h
      exact eq_zeros_append_decimal hrun.1 hrun.2
    · rw [decimal?_of_not_isRun hrun] at h
      cases h
  · rintro ⟨zeros, rfl⟩
    have hrun : IsRun (List.replicate zeros '0' ++ decimal n) :=
      ⟨by simp [decimal_ne_nil], fun _ => isDigit_of_mem_zeros_append⟩
    rw [decimal?_of_isRun hrun, decimalValue_zeros_append_decimal]

/-! ## Padded numbers -/

theorem isDigit_of_mem_padded {width n : Nat} {c : Char} (h : c ∈ padLeft '0' width (decimal n)) :
    c.isDigit = true :=
  isDigit_of_mem_zeros_append h

/-- Leading zeros do not count, so that the number is read back. -/
theorem padded_injective {width m n : Nat}
    (h : padLeft '0' width (decimal m) = padLeft '0' width (decimal n)) : m = n := by
  have hvalue := congrArg decimalValue h
  rwa [padLeft, padLeft, decimalValue_zeros_append_decimal,
    decimalValue_zeros_append_decimal] at hvalue

theorem padded_ne_nil {width : Nat} (hwidth : 0 < width) (n : Nat) :
    padLeft '0' width (decimal n) ≠ [] := by
  intro h
  have hlength := congrArg List.length h
  simp only [padLeft, List.length_append, List.length_replicate, List.length_nil] at hlength
  omega

end MvsGateway.Chars
