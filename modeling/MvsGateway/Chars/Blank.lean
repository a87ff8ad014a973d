/-!
# White space

The characters with the Unicode property White_Space, and the two operations
that depend on them: trimming and splitting into words.
-/

namespace MvsGateway.Chars

/-- The twenty-five characters with the property White_Space. -/
def isBlank (c : Char) : Bool :=
  let n := c.toNat
  (9 ≤ n && n ≤ 13) || n == 0x20 || n == 0x85 || n == 0xA0 || n == 0x1680 ||
    (0x2000 ≤ n && n ≤ 0x200A) || n == 0x2028 || n == 0x2029 || n == 0x202F ||
    n == 0x205F || n == 0x3000

def trimStart (s : List Char) : List Char := s.dropWhile isBlank

def trimEnd (s : List Char) : List Char := (s.reverse.dropWhile isBlank).reverse

def trim (s : List Char) : List Char := trimEnd (trimStart s)

/-! ## Both ends -/

/-- The text without the characters at both ends for which `p` holds. -/
def stripBy (p : Char → Bool) (s : List Char) : List Char :=
  ((s.dropWhile p).reverse.dropWhile p).reverse

section Strip

variable {p : Char → Bool} {s : List Char}

theorem eq_append_stripBy (p : Char → Bool) (s : List Char) :
    ∃ lead tail, s = lead ++ (stripBy p s ++ tail) ∧ (∀ c ∈ lead, p c = true) ∧
      ∀ c ∈ tail, p c = true := by
  refine ⟨s.takeWhile p, ((s.dropWhile p).reverse.takeWhile p).reverse, ?_, ?_, ?_⟩
  · rw [stripBy, ← List.reverse_append, List.takeWhile_append_dropWhile, List.reverse_reverse,
      List.takeWhile_append_dropWhile]
  · exact List.all_eq_true.1 List.all_takeWhile
  · intro c hc
    exact List.all_eq_true.1 List.all_takeWhile c (List.mem_reverse.1 hc)

theorem dropWhile_eq_self (h : ∀ c ∈ s.head?, p c = false) : s.dropWhile p = s := by
  cases s with
  | nil => rfl
  | cons c r => simp [h c (by simp)]

theorem dropWhile_append_of_exists (h : ∃ c ∈ s, p c = false) (t : List Char) :
    (s ++ t).dropWhile p = s.dropWhile p ++ t := by
  obtain ⟨c, hc, hstops⟩ := h
  have hne : s.dropWhile p ≠ [] := by
    intro hnil
    rw [← List.takeWhile_append_dropWhile (p := p) (l := s), hnil, List.append_nil] at hc
    have hpasses : p c = true := List.all_eq_true.1 List.all_takeWhile c hc
    rw [hpasses] at hstops
    cases hstops
  rw [List.dropWhile_append, if_neg (by simpa using hne)]

/-- Nothing in the middle of a text is stripped. -/
theorem stripBy_append {t : List Char} (hs : ∃ c ∈ s, p c = false) (ht : ∃ c ∈ t, p c = false)
    (inner : List Char) :
    stripBy p (s ++ (inner ++ t)) =
      s.dropWhile p ++ (inner ++ (t.reverse.dropWhile p).reverse) := by
  have hreverse : ∃ c ∈ t.reverse, p c = false := by simpa using ht
  rw [stripBy, dropWhile_append_of_exists hs, List.reverse_append, List.reverse_append,
    List.append_assoc, dropWhile_append_of_exists hreverse]
  simp

/-- Only the front is stripped where nothing at the end is. -/
theorem stripBy_of_last (h : ∀ c ∈ s.getLast?, p c = false) : stripBy p s = s.dropWhile p := by
  obtain ⟨front, hfront⟩ := List.dropWhile_suffix (l := s) p
  have hend : (s.dropWhile p).reverse.dropWhile p = (s.dropWhile p).reverse := by
    apply dropWhile_eq_self
    intro c hc
    rw [List.head?_reverse] at hc
    apply h
    rw [← hfront, List.getLast?_append, Option.mem_def.1 hc]
    rfl
  rw [stripBy, hend, List.reverse_reverse]

/-- What is put around a text is stripped, and what it starts and ends with is
not. -/
theorem stripBy_around {lead tail : List Char} (hne : s ≠ [])
    (hfirst : ∀ c ∈ s.head?, p c = false) (hlast : ∀ c ∈ s.getLast?, p c = false)
    (hlead : ∀ c ∈ lead, p c = true) (htail : ∀ c ∈ tail, p c = true) :
    stripBy p (lead ++ (s ++ tail)) = s := by
  have hstart : (s ++ tail).dropWhile p = s ++ tail := by
    apply dropWhile_eq_self
    cases s with
    | nil => exact absurd rfl hne
    | cons c r => exact hfirst
  have hend : s.reverse.dropWhile p = s.reverse := by
    apply dropWhile_eq_self
    rw [List.head?_reverse]
    exact hlast
  have hreverse : ∀ c ∈ tail.reverse, p c = true := fun c hc => htail c (List.mem_reverse.1 hc)
  rw [stripBy, List.dropWhile_append_of_pos hlead, hstart, List.reverse_append,
    List.dropWhile_append_of_pos hreverse, hend, List.reverse_reverse]

end Strip

theorem trim_eq_stripBy (s : List Char) : trim s = stripBy isBlank s := rfl

/-! ## White space -/

theorem code_of_isAlphanum {c : Char} (h : c.isAlphanum = true) :
    48 ≤ c.toNat ∧ c.toNat ≤ 57 ∨ 65 ≤ c.toNat ∧ c.toNat ≤ 90 ∨
      97 ≤ c.toNat ∧ c.toNat ≤ 122 := by
  rcases Bool.or_eq_true_iff.1 h with hletter | hdigit
  · rcases Bool.or_eq_true_iff.1 hletter with hupper | hlower
    · obtain ⟨hlow, hhigh⟩ := of_decide_eq_true hupper
      exact .inr (.inl ⟨hlow, hhigh⟩)
    · obtain ⟨hlow, hhigh⟩ := Bool.and_eq_true_iff.1 hlower
      exact .inr (.inr ⟨of_decide_eq_true hlow, of_decide_eq_true hhigh⟩)
  · obtain ⟨hlow, hhigh⟩ := Bool.and_eq_true_iff.1 hdigit
    exact .inl ⟨of_decide_eq_true hlow, of_decide_eq_true hhigh⟩

theorem isBlank_of_isAlphanum {c : Char} (h : c.isAlphanum = true) : isBlank c = false := by
  have hcode := code_of_isAlphanum h
  simp [isBlank]
  omega

theorem trimStart_eq_self {s : List Char} (h : ∀ c ∈ s.head?, isBlank c = false) :
    trimStart s = s :=
  dropWhile_eq_self h

theorem dropWhile_isBlank_map {f : Char → Char} (h : ∀ c, isBlank (f c) = isBlank c)
    (s : List Char) : (s.map f).dropWhile isBlank = (s.dropWhile isBlank).map f := by
  induction s with
  | nil => rfl
  | cons c r ih => cases hc : isBlank c <;> simp [List.dropWhile, h, hc, ih]

/-- Trimming looks at nothing but which characters are blank. -/
theorem trim_map {f : Char → Char} (h : ∀ c, isBlank (f c) = isBlank c) (s : List Char) :
    trim (s.map f) = (trim s).map f := by
  simp only [trim, trimStart, trimEnd, dropWhile_isBlank_map h, ← List.map_reverse]

theorem trimEnd_eq_self {s : List Char} (h : ∀ c ∈ s.getLast?, isBlank c = false) :
    trimEnd s = s := by
  have hhead : ∀ c ∈ s.reverse.head?, isBlank c = false := by
    rw [List.head?_reverse]
    exact h
  have hreverse := trimStart_eq_self hhead
  rw [trimStart] at hreverse
  rw [trimEnd, hreverse, List.reverse_reverse]

theorem trim_eq_trimStart {s : List Char} (h : ∀ c ∈ s.getLast?, isBlank c = false) :
    trim s = trimStart s :=
  stripBy_of_last h

/-- A text that neither starts nor ends with white space is its own trimmed
form. -/
theorem trim_eq_self {s : List Char} (hfirst : ∀ c ∈ s.head?, isBlank c = false)
    (hlast : ∀ c ∈ s.getLast?, isBlank c = false) : trim s = s := by
  rw [trim, trimStart_eq_self hfirst, trimEnd_eq_self hlast]

theorem mem_of_mem_trim {s : List Char} {c : Char} (h : c ∈ trim s) : c ∈ s := by
  have hstart : c ∈ trimStart s := by
    rw [trim, trimEnd, List.mem_reverse] at h
    exact List.mem_reverse.1 ((List.dropWhile_sublist _).subset h)
  exact (List.dropWhile_sublist _).subset hstart

theorem isBlank_of_mem_head?_dropWhile {s : List Char} :
    ∀ c ∈ (s.dropWhile isBlank).head?, isBlank c = false := by
  intro c hc
  have hnot := List.head?_dropWhile_not isBlank s
  rw [Option.mem_def.1 hc] at hnot
  exact hnot

/-- A trimmed text neither starts nor ends with white space. -/
theorem isBlank_ends_trim (s : List Char) :
    (∀ c ∈ (trim s).head?, isBlank c = false) ∧ ∀ c ∈ (trim s).getLast?, isBlank c = false := by
  constructor
  · -- Trimming the end keeps the first character, as long as there is one.
    intro c hc
    have hfront : trim s <+: trimStart s := by
      rw [trim, trimEnd, ← List.reverse_suffix, List.reverse_reverse]
      exact List.dropWhile_suffix _
    obtain ⟨rest, hrest⟩ := hfront
    have hhead : c ∈ (trimStart s).head? := by
      rw [← hrest, List.head?_append, Option.mem_def.1 hc]
      rfl
    exact isBlank_of_mem_head?_dropWhile c hhead
  · intro c hc
    rw [trim, trimEnd, List.getLast?_reverse] at hc
    exact isBlank_of_mem_head?_dropWhile c hc

theorem trimStart_eq_nil_iff {s : List Char} : trimStart s = [] ↔ s.all isBlank = true := by
  unfold trimStart
  induction s with
  | nil => simp
  | cons c s ih => cases hc : isBlank c <;> simp [hc, ih]

/-- Only the front is trimmed where a text ends with a character that is not
blank, and no further than to such a character. -/
theorem trim_append {c d : Char} (hc : isBlank c = false) (hd : isBlank d = false)
    (s t : List Char) : trim (s ++ c :: (t ++ [d])) = trimStart s ++ c :: (t ++ [d]) := by
  have hstart : trimStart (s ++ c :: (t ++ [d])) = trimStart s ++ c :: (t ++ [d]) := by
    unfold trimStart
    induction s with
    | nil => simp [hc]
    | cons b s ih => cases hb : isBlank b <;> simp [hb, ih]
  rw [trim, hstart]
  apply trimEnd_eq_self
  intro b hb
  rw [List.getLast?_append, ← List.cons_append, List.getLast?_append] at hb
  cases hb
  exact hd

theorem trim_eq_nil_iff {s : List Char} : trim s = [] ↔ s.all isBlank = true := by
  have hend : trim s = [] ↔ (trimStart s).all isBlank = true := by
    rw [trim, trimEnd, List.reverse_eq_nil_iff, ← List.all_reverse]
    exact trimStart_eq_nil_iff
  rw [hend]
  constructor
  · intro h
    rw [← trimStart_eq_nil_iff]
    cases hs : trimStart s with
    | nil => rfl
    | cons c r =>
      have hc : isBlank c = false := by
        apply isBlank_of_mem_head?_dropWhile (s := s)
        rw [← trimStart, hs]
        rfl
      rw [hs] at h
      simp [hc] at h
  · intro h
    rw [trimStart_eq_nil_iff.2 h]
    rfl

theorem trim_trim (s : List Char) : trim (trim s) = trim s :=
  trim_eq_self (isBlank_ends_trim s).1 (isBlank_ends_trim s).2

end MvsGateway.Chars
