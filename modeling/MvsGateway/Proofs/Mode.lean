import Mathlib.Data.List.Basic
import MvsGateway.Mode

/-!
# Modes and their texts

A text is a mode if it is three digits, or nine characters of which each is a
dash or the letter of its slot. The digits are those of the text, or the sums
of what the letters of a class stand for, and then the letters are written
again from the sums. Of nine other characters the first wrong one is shown.
-/

namespace MvsGateway

/-- Three ASCII digits. -/
structure IsDigits (s : String) : Prop where
  three : s.toList.length = 3
  digits : ∀ c ∈ s.toList, c.isDigit = true

namespace Mode

/-- The letter of a slot, with read, write and execute in turn. -/
def letter (i : Nat) : Char :=
  match i % 3 with
  | 0 => 'r'
  | 1 => 'w'
  | _ => 'x'

/-- What a slot may hold. -/
def Fits (i : Nat) (c : Char) : Prop := c = letter i ∨ c = '-'

/-- Nine characters that fit their slots. -/
structure IsSymbolic (s : String) : Prop where
  nine : s.toList.length = 9
  fits : ∀ i c, s.toList[i]? = some c → Fits i c

/-- What the letter of a slot adds to the digit of its class. -/
def granted (s : String) (i weight : Nat) : Nat :=
  if s.toList[i]? = some (letter i) then weight else 0

/-- The sum over the slots of owner, group or other. -/
def classSum (s : String) (k : Nat) : Nat :=
  granted s (3 * k) 4 + granted s (3 * k + 1) 2 + granted s (3 * k + 2) 1

/-- The first character that does not fit its slot. -/
structure IsFault (s : String) (i : Nat) (c : Char) : Prop where
  found : s.toList[i]? = some c
  wrong : ¬Fits i c
  first : ∀ j < i, ∀ d, s.toList[j]? = some d → Fits j d

/-! ## Three digits -/

theorem digit?_eq_some_iff {c : Char} {d : Fin 10} :
    digit? c = some d ↔ c = Nat.digitChar d.val := by
  unfold digit?
  constructor
  · intro h
    obtain ⟨hdigit, hsame⟩ := Option.dite_none_right_eq_some.1 h
    have hvalue : Chars.digitValue c = d.val := congrArg Fin.val (Option.some.inj hsame)
    rw [← hvalue, (Chars.digitChar_digitValue hdigit).2]
  · rintro rfl
    obtain ⟨hdigit, hvalue⟩ := Chars.digit_digitChar d.isLt
    rw [dif_pos hdigit, Option.some.injEq, Fin.ext_iff]
    exact hvalue

theorem toList_text (m : Mode) :
    m.text.toList = [Nat.digitChar m.owner.val, Nat.digitChar m.group.val,
      Nat.digitChar m.other.val] := by
  simp [text, digits]

theorem octal?_eq_some_iff {cs : List Char} {m : Mode} :
    octal? cs = some m ↔ cs = m.text.toList := by
  obtain ⟨x, y, z⟩ := m
  rw [toList_text]
  constructor
  · intro h
    unfold octal? at h
    split at h
    · obtain ⟨x', hx, h⟩ := Option.bind_eq_some_iff.1 h
      obtain ⟨y', hy, h⟩ := Option.bind_eq_some_iff.1 h
      obtain ⟨z', hz, h⟩ := Option.bind_eq_some_iff.1 h
      cases h
      rw [digit?_eq_some_iff.1 hx, digit?_eq_some_iff.1 hy, digit?_eq_some_iff.1 hz]
    · cases h
  · rintro rfl
    have hread : ∀ d : Fin 10, digit? (Nat.digitChar d.val) = some d :=
      fun d => digit?_eq_some_iff.2 rfl
    simp [octal?, hread]

theorem isDigits_text (m : Mode) : IsDigits m.text := by
  refine ⟨by simp [text, digits], ?_⟩
  intro c hc
  rw [text, String.toList_ofList] at hc
  obtain ⟨d, _, rfl⟩ := List.mem_map.1 hc
  exact (Chars.digit_digitChar d.isLt).1

/-- Three digits are those of a mode. -/
theorem isDigits_iff {s : String} : IsDigits s ↔ ∃ m : Mode, m.text = s := by
  constructor
  · rintro ⟨hthree, hdigits⟩
    obtain ⟨a, b, c, hs⟩ := List.length_eq_three.1 hthree
    have hread : ∀ c ∈ s.toList, ∃ d, digit? c = some d := by
      intro c hc
      exact ⟨_, dif_pos (hdigits c hc)⟩
    obtain ⟨x, hx⟩ := hread a (by simp [hs])
    obtain ⟨y, hy⟩ := hread b (by simp [hs])
    obtain ⟨z, hz⟩ := hread c (by simp [hs])
    refine ⟨⟨x, y, z⟩, ?_⟩
    rw [← String.toList_inj, toList_text, hs, digit?_eq_some_iff.1 hx, digit?_eq_some_iff.1 hy,
      digit?_eq_some_iff.1 hz]
  · rintro ⟨m, rfl⟩
    exact m.isDigits_text

theorem octal?_eq_none_iff {s : String} : octal? s.toList = none ↔ ¬IsDigits s := by
  rw [isDigits_iff, Option.eq_none_iff_forall_not_mem, not_exists]
  apply forall_congr'
  intro m
  rw [Option.mem_def, octal?_eq_some_iff, String.toList_inj, eq_comm]

/-! ## Nine slots -/

/-- The fault is at the first place where a character is neither a dash nor the
letter there. -/
theorem fault?_eq_some_iff {position : Nat} {letters cs : List Char} {c l : Char} {p : Nat} :
    fault? position letters cs = some (c, p, l) ↔
      ∃ i, letters[i]? = some l ∧ cs[i]? = some c ∧ p = position + i ∧ ¬(c = l ∨ c = '-') ∧
        ∀ j < i, ∀ k d, letters[j]? = some k → cs[j]? = some d → d = k ∨ d = '-' := by
  fun_induction fault? position letters cs with
  | case1 position letter letters d r hfits ih =>
    rw [ih]
    constructor
    · rintro ⟨i, hl, hc, rfl, hwrong, hfirst⟩
      refine ⟨i + 1, hl, hc, by omega, hwrong, ?_⟩
      rintro (_ | j) hj k e hk he
      · cases hk
        cases he
        exact hfits
      · exact hfirst j (by omega) k e hk he
    · rintro ⟨_ | i, hl, hc, rfl, hwrong, hfirst⟩
      · cases hl
        cases hc
        exact absurd hfits hwrong
      · refine ⟨i, hl, hc, by omega, hwrong, ?_⟩
        exact fun j hj k e hk he => hfirst (j + 1) (by omega) k e hk he
  | case2 position letter letters d r hwrong =>
    constructor
    · intro h
      cases h
      exact ⟨0, rfl, rfl, rfl, hwrong, nofun⟩
    · rintro ⟨_ | i, hl, hc, rfl, _, hfirst⟩
      · cases hl
        cases hc
        rfl
      · exact absurd (hfirst 0 (by omega) letter d rfl rfl) hwrong
  | case3 letters position cs hends =>
    refine iff_of_false nofun ?_
    rintro ⟨i, hl, hc, -⟩
    cases letters with
    | nil => cases hl
    | cons letter letters =>
      cases cs with
      | nil => cases hc
      | cons d r => exact hends letter letters d r rfl rfl

theorem fault?_eq_none_iff {position : Nat} {letters cs : List Char} :
    fault? position letters cs = none ↔
      ∀ (i : Nat) k d, letters[i]? = some k → cs[i]? = some d → d = k ∨ d = '-' := by
  fun_induction fault? position letters cs with
  | case1 position first letters c r hfits ih =>
    rw [ih]
    constructor
    · rintro hrest (_ | i) k d hk hd
      · cases hk
        cases hd
        exact hfits
      · exact hrest i k d hk hd
    · exact fun hall i k d hk hd => hall (i + 1) k d hk hd
  | case2 position first letters c r hwrong =>
    exact iff_of_false nofun fun hall => hwrong (hall 0 first c rfl rfl)
  | case3 letters position cs hends =>
    refine iff_of_true rfl ?_
    intro i k d hk hd
    cases letters with
    | nil => cases hk
    | cons first letters =>
      cases cs with
      | nil => cases hd
      | cons c r => exact absurd rfl (hends first letters c r rfl)

theorem slots_eq : ∀ i < 9, slots[i]? = some (letter i) := by decide

theorem slots_getElem?_iff {i : Nat} {l : Char} : slots[i]? = some l ↔ i < 9 ∧ l = letter i := by
  by_cases hi : i < 9
  · rw [slots_eq i hi, Option.some.injEq, eq_comm]
    exact ⟨fun h => ⟨hi, h⟩, fun h => h.2⟩
  · have hnone : slots[i]? = none := List.getElem?_eq_none (Nat.le_of_not_lt hi)
    rw [hnone]
    exact iff_of_false nofun fun h => hi h.1

section Slots

variable {s : String} {c l : Char} {p : Nat}

theorem fault?_slots_iff (h : s.toList.length = 9) :
    fault? 1 slots s.toList = some (c, p, l) ↔
      ∃ i, IsFault s i c ∧ p = i + 1 ∧ l = letter i := by
  rw [fault?_eq_some_iff]
  constructor
  · rintro ⟨i, hl, hc, rfl, hwrong, hfirst⟩
    obtain ⟨hi, rfl⟩ := slots_getElem?_iff.1 hl
    refine ⟨i, ⟨hc, hwrong, ?_⟩, by omega, rfl⟩
    exact fun j hj d hd => hfirst j hj _ d (slots_eq j (by omega)) hd
  · rintro ⟨i, ⟨hc, hwrong, hfirst⟩, rfl, rfl⟩
    have hi : i < 9 := by
      rw [← h]
      exact (List.getElem?_eq_some_iff.1 hc).1
    refine ⟨i, slots_eq i hi, hc, by omega, hwrong, ?_⟩
    intro j hj k d hk hd
    obtain ⟨_, rfl⟩ := slots_getElem?_iff.1 hk
    exact hfirst j hj d hd

theorem fault?_eq_none_iff_isSymbolic (h : s.toList.length = 9) :
    fault? 1 slots s.toList = none ↔ IsSymbolic s := by
  rw [fault?_eq_none_iff]
  constructor
  · intro hfits
    refine ⟨h, ?_⟩
    intro i c hc
    have hi : i < 9 := by
      rw [← h]
      exact (List.getElem?_eq_some_iff.1 hc).1
    exact hfits i _ c (slots_eq i hi) hc
  · intro hsymbolic i k d hk hd
    obtain ⟨_, rfl⟩ := slots_getElem?_iff.1 hk
    exact hsymbolic.fits i d hd

end Slots

/-! ## Digits of the slots -/

theorem val_classDigit (r w x : Char) :
    (classDigit r w x).val =
      (if r = 'r' then 4 else 0) + (if w = 'w' then 2 else 0) + (if x = 'x' then 1 else 0) := by
  unfold classDigit
  split <;> split <;> split <;> rfl

/-- The slots are written again from their digit. -/
theorem classSlots?_classDigit {r w x : Char} (hr : r = 'r' ∨ r = '-') (hw : w = 'w' ∨ w = '-')
    (hx : x = 'x' ∨ x = '-') : classSlots? (classDigit r w x) = some [r, w, x] := by
  rcases hr with rfl | rfl <;> rcases hw with rfl | rfl <;> rcases hx with rfl | rfl <;> rfl

/-! ## Reading a text -/

section Reading

variable {s : String}

theorem not_isDigits_of_nine (h : s.toList.length = 9) : ¬IsDigits s := by
  intro hdigits
  rw [hdigits.three] at h
  cases h

theorem ofText_of_nine (h : s.toList.length = 9) :
    ∃ a b c d e f g j k, s.toList = [a, b, c, d, e, f, g, j, k] ∧
      ofText s =
        match fault? 1 slots s.toList with
        | some (found, position, expected) => .error (.character s found position expected)
        | none => .ok ⟨classDigit a b c, classDigit d e f, classDigit g j k⟩ := by
  have hoctal := octal?_eq_none_iff.2 (not_isDigits_of_nine h)
  match hs : s.toList, h with
  | [a, b, c, d, e, f, g, j, k], _ =>
    rw [hs] at hoctal
    refine ⟨a, b, c, d, e, f, g, j, k, rfl, ?_⟩
    cases hfault : fault? 1 slots [a, b, c, d, e, f, g, j, k] with
    | none => simp only [ofText, hs, hoctal, hfault]
    | some fault => simp only [ofText, hs, hoctal, hfault]

/-- Characters that fit give the sums of their classes, from which they are
written again. -/
theorem ofText_of_isSymbolic (h : IsSymbolic s) :
    ∃ m, ofText s = .ok m ∧ m.digits.map Fin.val = [classSum s 0, classSum s 1, classSum s 2] ∧
      m.symbolic? = some s := by
  obtain ⟨a, b, c, d, e, f, g, j, k, hs, hread⟩ := ofText_of_nine h.nine
  rw [(fault?_eq_none_iff_isSymbolic h.nine).2 h] at hread
  refine ⟨_, hread, ?_, ?_⟩
  · simp [digits, val_classDigit, classSum, granted, hs, letter]
  · have hfits : ∀ i x, [a, b, c, d, e, f, g, j, k][i]? = some x → Fits i x := by
      rw [← hs]
      exact h.fits
    have hback : String.ofList [a, b, c, d, e, f, g, j, k] = s := by
      rw [← hs, String.ofList_toList]
    have howner : classSlots? (classDigit a b c) = some [a, b, c] :=
      classSlots?_classDigit (hfits 0 a rfl) (hfits 1 b rfl) (hfits 2 c rfl)
    have hgroup : classSlots? (classDigit d e f) = some [d, e, f] :=
      classSlots?_classDigit (hfits 3 d rfl) (hfits 4 e rfl) (hfits 5 f rfl)
    have hother : classSlots? (classDigit g j k) = some [g, j, k] :=
      classSlots?_classDigit (hfits 6 g rfl) (hfits 7 j rfl) (hfits 8 k rfl)
    rw [symbolic?, howner, hgroup, hother]
    exact congrArg some hback

theorem ofText_of_isFault {i : Nat} {c : Char} (h : s.toList.length = 9) (hfault : IsFault s i c) :
    ofText s = .error (.character s c (i + 1) (letter i)) := by
  obtain ⟨_, _, _, _, _, _, _, _, _, _, hread⟩ := ofText_of_nine h
  rwa [(fault?_slots_iff h).2 ⟨i, hfault, rfl, rfl⟩] at hread

theorem ofText_of_isDigits {m : Mode} (h : m.text = s) : ofText s = .ok m := by
  rw [ofText, octal?_eq_some_iff.2 (congrArg String.toList h.symm)]

theorem ofText_of_length (hnine : s.toList.length ≠ 9) (hdigits : ¬IsDigits s) :
    ofText s = .error (.length s) := by
  simp only [ofText, octal?_eq_none_iff.2 hdigits]
  split
  · rename_i hs
    rw [hs] at hnine
    exact absurd rfl hnine
  · rfl

/-- Of nine characters all fit, or there is a first one that does not. -/
theorem isSymbolic_or_isFault (h : s.toList.length = 9) :
    IsSymbolic s ∨ ∃ i c, IsFault s i c := by
  cases hfault : fault? 1 slots s.toList with
  | none => exact .inl ((fault?_eq_none_iff_isSymbolic h).1 hfault)
  | some fault =>
    obtain ⟨c, p, l⟩ := fault
    obtain ⟨i, hfirst, _⟩ := (fault?_slots_iff h).1 hfault
    exact .inr ⟨i, c, hfirst⟩

theorem eq_of_digits {m n : Mode} (h : m.digits.map Fin.val = n.digits.map Fin.val) : m = n := by
  obtain ⟨x, y, z⟩ := m
  obtain ⟨u, v, w⟩ := n
  simpa [digits, Fin.ext_iff] using h

theorem ofText_eq_ok_iff {m : Mode} :
    ofText s = .ok m ↔
      IsDigits s ∧ m.text = s ∨
      IsSymbolic s ∧ m.digits.map Fin.val = [classSum s 0, classSum s 1, classSum s 2] := by
  constructor
  · intro hread
    by_cases hnine : s.toList.length = 9
    · rcases isSymbolic_or_isFault hnine with hsymbolic | ⟨i, c, hfault⟩
      · obtain ⟨n, hn, hsums, _⟩ := ofText_of_isSymbolic hsymbolic
        cases hread.symm.trans hn
        exact .inr ⟨hsymbolic, hsums⟩
      · cases hread.symm.trans (ofText_of_isFault hnine hfault)
    · by_cases hdigits : IsDigits s
      · obtain ⟨n, hn⟩ := isDigits_iff.1 hdigits
        cases hread.symm.trans (ofText_of_isDigits hn)
        exact .inl ⟨hdigits, hn⟩
      · cases hread.symm.trans (ofText_of_length hnine hdigits)
  · rintro (⟨_, hm⟩ | ⟨hsymbolic, hsums⟩)
    · exact ofText_of_isDigits hm
    · obtain ⟨n, hn, hsame, _⟩ := ofText_of_isSymbolic hsymbolic
      rw [hn, eq_of_digits (hsums.trans hsame.symm)]

theorem ofText_eq_error_iff {e : ModeError} :
    ofText s = .error e ↔
      s.toList.length = 9 ∧ (∃ i c, IsFault s i c ∧ e = .character s c (i + 1) (letter i)) ∨
      s.toList.length ≠ 9 ∧ ¬IsDigits s ∧ e = .length s := by
  constructor
  · intro hread
    by_cases hnine : s.toList.length = 9
    · rcases isSymbolic_or_isFault hnine with hsymbolic | ⟨i, c, hfault⟩
      · obtain ⟨n, hn, _⟩ := ofText_of_isSymbolic hsymbolic
        cases hread.symm.trans hn
      · cases hread.symm.trans (ofText_of_isFault hnine hfault)
        exact .inl ⟨hnine, i, c, hfault, rfl⟩
    · by_cases hdigits : IsDigits s
      · obtain ⟨n, hn⟩ := isDigits_iff.1 hdigits
        cases hread.symm.trans (ofText_of_isDigits hn)
      · cases hread.symm.trans (ofText_of_length hnine hdigits)
        exact .inr ⟨hnine, hdigits, rfl⟩
  · rintro (⟨hnine, i, c, hfault, rfl⟩ | ⟨hnine, hdigits, rfl⟩)
    · exact ofText_of_isFault hnine hfault
    · exact ofText_of_length hnine hdigits

end Reading

/-- The two grammars are read, the slots are written again from what they are
read as, and a text outside both is refused for the first character that does
not fit, or else for its length. -/
theorem modes_have_two_grammars (s : String) :
    (∀ m, ofText s = .ok m ↔
      IsDigits s ∧ m.text = s ∨
      IsSymbolic s ∧ m.digits.map Fin.val = [classSum s 0, classSum s 1, classSum s 2]) ∧
    (IsSymbolic s → ∃ m, ofText s = .ok m ∧ m.symbolic? = some s) ∧
    ∀ e, ofText s = .error e ↔
      s.toList.length = 9 ∧ (∃ i c, IsFault s i c ∧ e = .character s c (i + 1) (letter i)) ∨
      s.toList.length ≠ 9 ∧ ¬IsDigits s ∧ e = .length s := by
  refine ⟨fun _ => ofText_eq_ok_iff, ?_, fun _ => ofText_eq_error_iff⟩
  intro hsymbolic
  obtain ⟨m, hm, _, hback⟩ := ofText_of_isSymbolic hsymbolic
  exact ⟨m, hm, hback⟩

end Mode

end MvsGateway
