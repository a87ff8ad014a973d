import MvsGateway.Host.Pattern
import MvsGateway.Text

/-!
# What a pattern stands for

The matcher goes by bytes and tries every way to spread a name over the
wildcards of a pattern. What it looks for can be said without a search and by
characters: a pattern takes a name apart piece by piece. On names of ASCII
characters, as all names in a catalog are, the two agree for every pattern.
-/

namespace MvsGateway.Host.Pattern

/-- The characters of a qualifier that a pattern stands for: an asterisk any
run of them, a percent sign any one, and every other character itself. -/
inductive CharsMatch : List Char → List Char → Prop
  | nil : CharsMatch [] []
  | run {p rest : List Char} (skipped : List Char) (h : CharsMatch p rest) :
      CharsMatch ('*' :: p) (skipped ++ rest)
  | one {p rest : List Char} (c : Char) (h : CharsMatch p rest) : CharsMatch ('%' :: p) (c :: rest)
  | same {p rest : List Char} (c : Char) (h : CharsMatch p rest) : CharsMatch (c :: p) (c :: rest)

/-- The qualifiers of a name that the qualifiers of a pattern stand for: `**`
any number of them, and every other one a single one. -/
inductive QualifiersMatch : List (List Char) → List (List Char) → Prop
  | nil : QualifiersMatch [] []
  | any {p rest : List (List Char)} (skipped : List (List Char)) (h : QualifiersMatch p rest) :
      QualifiersMatch (anyQualifiers :: p) (skipped ++ rest)
  | one {p rest : List (List Char)} {q n : List Char} (hq : CharsMatch q n)
      (h : QualifiersMatch p rest) : QualifiersMatch (q :: p) (n :: rest)

def qualifiers (name : String) : List (List Char) := Chars.splitAt '.' name.toList

def IsAscii (s : List Char) : Prop := ∀ c ∈ s, c.toNat < 128

instance (s : List Char) : Decidable (IsAscii s) :=
  List.decidableBAll (fun c : Char => c.toNat < 128) s

/-! ## Taking a pattern apart -/

theorem charsMatch_nil_iff {text : List Char} : CharsMatch [] text ↔ text = [] := by
  constructor
  · rintro ⟨⟩
    rfl
  · rintro rfl
    exact .nil

theorem charsMatch_asterisk_iff {p text : List Char} :
    CharsMatch ('*' :: p) text ↔ ∃ rest, rest <:+ text ∧ CharsMatch p rest := by
  constructor
  · intro h
    cases h with
    | run skipped h => exact ⟨_, List.suffix_append skipped _, h⟩
    | same _ h => exact ⟨_, List.suffix_cons '*' _, h⟩
  · rintro ⟨rest, ⟨skipped, rfl⟩, h⟩
    exact .run skipped h

theorem not_charsMatch_cons_nil {c : Char} {p : List Char} (hc : c ≠ '*') :
    ¬CharsMatch (c :: p) [] := by
  intro h
  generalize htext : ([] : List Char) = text at h
  cases h with
  | run => exact hc rfl
  | one => cases htext
  | same => cases htext

theorem charsMatch_cons_cons_iff {c d : Char} {p rest : List Char} (hc : c ≠ '*') :
    CharsMatch (c :: p) (d :: rest) ↔ (c = '%' ∨ c = d) ∧ CharsMatch p rest := by
  constructor
  · intro h
    generalize htext : d :: rest = text at h
    cases h with
    | run => exact absurd rfl hc
    | one d h =>
      cases htext
      exact ⟨.inl rfl, h⟩
    | same c h =>
      cases htext
      exact ⟨.inr rfl, h⟩
  · rintro ⟨rfl | rfl, h⟩
    · exact .one d h
    · exact .same c h

theorem qualifiersMatch_nil_iff {name : List (List Char)} :
    QualifiersMatch [] name ↔ name = [] := by
  constructor
  · rintro ⟨⟩
    rfl
  · rintro rfl
    exact .nil

theorem qualifiersMatch_any_iff {p name : List (List Char)} :
    QualifiersMatch (anyQualifiers :: p) name ↔ ∃ rest, rest <:+ name ∧ QualifiersMatch p rest := by
  constructor
  · intro h
    cases h with
    | any skipped h => exact ⟨_, List.suffix_append skipped _, h⟩
    | one _ h => exact ⟨_, List.suffix_cons _ _, h⟩
  · rintro ⟨rest, ⟨skipped, rfl⟩, h⟩
    exact .any skipped h

theorem not_qualifiersMatch_cons_nil {q : List Char} {p : List (List Char)}
    (hq : q ≠ anyQualifiers) : ¬QualifiersMatch (q :: p) [] := by
  intro h
  generalize hname : ([] : List (List Char)) = name at h
  cases h with
  | any => exact hq rfl
  | one => cases hname

theorem qualifiersMatch_cons_cons_iff {q n : List Char} {p rest : List (List Char)}
    (hq : q ≠ anyQualifiers) :
    QualifiersMatch (q :: p) (n :: rest) ↔ CharsMatch q n ∧ QualifiersMatch p rest := by
  constructor
  · intro h
    generalize hname : n :: rest = name at h
    cases h with
    | any => exact absurd rfl hq
    | one hn h =>
      cases hname
      exact ⟨hn, h⟩
  · rintro ⟨hn, h⟩
    exact .one hn h

/-! ## Bytes and characters -/

theorem matchesBytes_cons (p : UInt8) (pattern text : List UInt8) :
    matchesBytes (p :: pattern) text =
      if p == asterisk then (rests text).any (matchesBytes pattern ·)
      else match text with
        | [] => false
        | b :: rest => (p == percent || p == b) && matchesBytes pattern rest := rfl

theorem matchesQualifiers_cons (p : List Char) (pattern name : List (List Char)) :
    matchesQualifiers (p :: pattern) name =
      if p == anyQualifiers then (rests name).any (matchesQualifiers pattern ·)
      else match name with
        | [] => false
        | q :: rest => matchesQualifier p q && matchesQualifiers pattern rest := rfl

theorem mem_rests_iff {α : Type} {r l : List α} : r ∈ rests l ↔ r <:+ l := by
  induction l with
  | nil => simp [rests]
  | cons a l ih => rw [rests, List.mem_cons, ih, List.suffix_cons_iff]

/-- The byte of an ASCII character. -/
def byte (c : Char) : UInt8 := UInt8.ofNat c.toNat

theorem toNat_byte {c : Char} (hc : c.toNat < 128) : (byte c).toNat = c.toNat := by
  rw [byte, UInt8.toNat_ofNat']
  omega

theorem byte_eq_iff {c d : Char} (hc : c.toNat < 128) (hd : d.toNat < 128) :
    byte c = byte d ↔ c = d := by
  rw [← UInt8.toNat_inj, toNat_byte hc, toNat_byte hd, Char.toNat_inj]

theorem encode_cons (c : Char) (s : List Char) :
    Utf8.encode (c :: s) = String.utf8EncodeChar c ++ Utf8.encode s :=
  List.flatMap_cons

theorem utf8EncodeChar_ascii {c : Char} (hc : c.toNat < 128) :
    String.utf8EncodeChar c = [byte c] := by
  have hone : c.val.toNat ≤ 127 := Nat.le_of_lt_succ hc
  simp only [String.utf8EncodeChar, if_pos hone]
  rfl

/-- Any other character starts with a byte that no ASCII character has. -/
theorem utf8EncodeChar_wide {c : Char} (hc : 128 ≤ c.toNat) :
    ∃ b r, String.utf8EncodeChar c = b :: r ∧ 128 ≤ b.toNat := by
  have hone : ¬c.val.toNat ≤ 127 := Nat.not_le.2 hc
  simp only [String.utf8EncodeChar, if_neg hone]
  split
  · refine ⟨_, _, rfl, ?_⟩
    rw [UInt8.toNat_ofNat']
    omega
  · split
    · refine ⟨_, _, rfl, ?_⟩
      rw [UInt8.toNat_ofNat']
      omega
    · refine ⟨_, _, rfl, ?_⟩
      rw [UInt8.toNat_ofNat']
      omega

theorem encode_ascii {s : List Char} (h : IsAscii s) : Utf8.encode s = s.map byte := by
  induction s with
  | nil => rfl
  | cons c s ih =>
    rw [encode_cons, utf8EncodeChar_ascii (h c List.mem_cons_self),
      ih fun d hd => h d (List.mem_cons_of_mem c hd)]
    rfl

theorem IsAscii.of_suffix {r s : List Char} (h : IsAscii s) (hr : r <:+ s) : IsAscii r :=
  fun c hc => h c (hr.subset hc)

/-- A wide character in a pattern meets no byte of an ASCII text. -/
theorem matchesBytes_wide {c : Char} (hc : 128 ≤ c.toNat) (p : List UInt8) {text : List Char}
    (h : IsAscii text) :
    matchesBytes (String.utf8EncodeChar c ++ p) (text.map byte) = false := by
  obtain ⟨b, r, hb, hwide⟩ := utf8EncodeChar_wide hc
  have hasterisk : b ≠ asterisk := by
    rintro rfl
    exact absurd hwide (by decide)
  have hpercent : b ≠ percent := by
    rintro rfl
    exact absurd hwide (by decide)
  rw [hb, List.cons_append, matchesBytes_cons, if_neg (by simpa using hasterisk)]
  cases text with
  | nil => rfl
  | cons d rest =>
    have hd := h d List.mem_cons_self
    have hne : b ≠ byte d := by
      intro hsame
      rw [hsame, toNat_byte hd] at hwide
      omega
    simp [hpercent, hne]

theorem not_charsMatch_wide {c : Char} (hc : 128 ≤ c.toNat) {p text : List Char}
    (h : IsAscii text) : ¬CharsMatch (c :: p) text := by
  have hasterisk : c ≠ '*' := by
    rintro rfl
    exact absurd hc (by decide)
  cases text with
  | nil => exact not_charsMatch_cons_nil hasterisk
  | cons d rest =>
    rw [charsMatch_cons_cons_iff hasterisk]
    rintro ⟨rfl | rfl, _⟩
    · exact absurd hc (by decide)
    · exact absurd (h c List.mem_cons_self) (Nat.not_lt.2 hc)

theorem byte_eq_asterisk_iff {c : Char} (hc : c.toNat < 128) : byte c = asterisk ↔ c = '*' :=
  byte_eq_iff (d := '*') hc (by decide)

theorem byte_eq_percent_iff {c : Char} (hc : c.toNat < 128) : byte c = percent ↔ c = '%' :=
  byte_eq_iff (d := '%') hc (by decide)

theorem rests_map {α β : Type} (f : α → β) (l : List α) :
    rests (l.map f) = (rests l).map (List.map f) := by
  induction l with
  | nil => rfl
  | cons a l ih => rw [List.map_cons, rests, rests, ih, List.map_cons, List.map_cons]

/-- On ASCII texts a match of bytes is a match of characters. -/
theorem matchesBytes_iff {p text : List Char} (h : IsAscii text) :
    matchesBytes (Utf8.encode p) (text.map byte) = true ↔ CharsMatch p text := by
  induction p generalizing text with
  | nil =>
    rw [charsMatch_nil_iff]
    simp [Utf8.encode, matchesBytes]
  | cons c p ih =>
    rw [encode_cons]
    rcases Nat.lt_or_ge c.toNat 128 with hc | hc
    · rw [utf8EncodeChar_ascii hc, List.singleton_append, matchesBytes_cons]
      by_cases hasterisk : c = '*'
      · -- Each rest of the bytes is that of a rest of the text.
        subst hasterisk
        rw [if_pos (by decide), charsMatch_asterisk_iff, rests_map, List.any_map,
          List.any_eq_true]
        refine exists_congr fun rest => ?_
        rw [mem_rests_iff]
        exact and_congr_right fun hrest => ih (h.of_suffix hrest)
      · rw [if_neg (by simpa [byte_eq_asterisk_iff hc] using hasterisk)]
        cases text with
        | nil => simp [not_charsMatch_cons_nil hasterisk]
        | cons d rest =>
          have hd := h d List.mem_cons_self
          have hrest := ih (h.of_suffix (List.suffix_cons d rest))
          rw [charsMatch_cons_cons_iff hasterisk, ← hrest]
          simp [byte_eq_percent_iff hc, byte_eq_iff hc hd]
    · rw [matchesBytes_wide hc _ h]
      simp [not_charsMatch_wide hc h]

theorem matchesQualifier_iff {p text : List Char} (h : IsAscii text) :
    matchesQualifier p text = true ↔ CharsMatch p text := by
  rw [matchesQualifier, encode_ascii h, matchesBytes_iff h]

theorem matchesQualifiers_iff {p name : List (List Char)} (h : ∀ n ∈ name, IsAscii n) :
    matchesQualifiers p name = true ↔ QualifiersMatch p name := by
  induction p generalizing name with
  | nil =>
    rw [qualifiersMatch_nil_iff]
    simp [matchesQualifiers]
  | cons q p ih =>
    rw [matchesQualifiers_cons]
    by_cases hq : q = anyQualifiers
    · subst hq
      rw [if_pos (by decide), qualifiersMatch_any_iff, List.any_eq_true]
      refine exists_congr fun rest => ?_
      rw [mem_rests_iff]
      exact and_congr_right fun hrest => ih fun n hn => h n (hrest.subset hn)
    · rw [if_neg (by simpa using hq)]
      cases name with
      | nil => simp [not_qualifiersMatch_cons_nil hq]
      | cons n rest =>
        have hn := matchesQualifier_iff (p := q) (h n List.mem_cons_self)
        have hrest := ih fun m hm => h m (List.mem_cons_of_mem n hm)
        rw [qualifiersMatch_cons_cons_iff hq, ← hn, ← hrest, Bool.and_eq_true]

/-- On names of ASCII characters the matcher finds what a pattern stands for. -/
theorem accepts_iff {pattern name : String} (h : IsAscii name.toList) :
    accepts pattern name = true ↔ QualifiersMatch (qualifiers pattern) (qualifiers name) :=
  matchesQualifiers_iff fun _ hn c hc => h c (Chars.of_mem_splitBy hn hc).1

/-! ## Patterns one after the other -/

/-- What two patterns in a row stand for: what the first stands for, and behind
it what the second stands for. -/
theorem qualifiersMatch_append_iff {p r name : List (List Char)} :
    QualifiersMatch (p ++ r) name ↔
      ∃ front back, name = front ++ back ∧ QualifiersMatch p front ∧ QualifiersMatch r back := by
  constructor
  · intro h
    induction p generalizing name with
    | nil => exact ⟨[], name, rfl, .nil, h⟩
    | cons q p ih =>
      cases h with
      | any skipped h =>
        obtain ⟨front, back, rfl, hfront, hback⟩ := ih h
        exact ⟨skipped ++ front, back, (List.append_assoc ..).symm, .any skipped hfront, hback⟩
      | one hn h =>
        obtain ⟨front, back, rfl, hfront, hback⟩ := ih h
        exact ⟨_ :: front, back, rfl, .one hn hfront, hback⟩
  · rintro ⟨front, back, rfl, hfront, hback⟩
    induction hfront with
    | nil => exact hback
    | any skipped _ ih =>
      rw [List.append_assoc]
      exact .any skipped ih
    | one hn _ ih => exact .one hn ih

/-- `**` at the end lets any qualifiers follow. -/
theorem qualifiersMatch_append_any_iff {p name : List (List Char)} :
    QualifiersMatch (p ++ [anyQualifiers]) name ↔
      ∃ front, front <+: name ∧ QualifiersMatch p front := by
  rw [qualifiersMatch_append_iff]
  constructor
  · rintro ⟨front, back, rfl, hfront, _⟩
    exact ⟨front, List.prefix_append front back, hfront⟩
  · rintro ⟨front, ⟨back, rfl⟩, hfront⟩
    have hback : QualifiersMatch [anyQualifiers] (back ++ []) := .any back .nil
    rw [List.append_nil] at hback
    exact ⟨front, back, rfl, hfront, hback⟩

/-! ## Patterns without wildcards -/

/-- A pattern without wildcards stands for itself alone. -/
theorem charsMatch_iff_eq {p text : List Char} (hasterisk : '*' ∉ p) (hpercent : '%' ∉ p) :
    CharsMatch p text ↔ text = p := by
  induction p generalizing text with
  | nil => exact charsMatch_nil_iff
  | cons c p ih =>
    obtain ⟨hc, hasterisk⟩ := List.ne_and_not_mem_of_not_mem_cons hasterisk
    obtain ⟨hd, hpercent⟩ := List.ne_and_not_mem_of_not_mem_cons hpercent
    cases text with
    | nil => simp [not_charsMatch_cons_nil (Ne.symm hc)]
    | cons e rest =>
      rw [charsMatch_cons_cons_iff (Ne.symm hc), ih hasterisk hpercent, List.cons_eq_cons]
      simp [Ne.symm hd, eq_comm]

theorem qualifiersMatch_iff_eq {p name : List (List Char)} (hasterisk : ∀ q ∈ p, '*' ∉ q)
    (hpercent : ∀ q ∈ p, '%' ∉ q) : QualifiersMatch p name ↔ name = p := by
  induction p generalizing name with
  | nil => exact qualifiersMatch_nil_iff
  | cons q p ih =>
    obtain ⟨hq, hasterisk⟩ := List.forall_mem_cons.1 hasterisk
    obtain ⟨hd, hpercent⟩ := List.forall_mem_cons.1 hpercent
    have hany : q ≠ anyQualifiers := by
      rintro rfl
      exact hq List.mem_cons_self
    cases name with
    | nil => simp [not_qualifiersMatch_cons_nil hany]
    | cons n rest =>
      rw [qualifiersMatch_cons_cons_iff hany, charsMatch_iff_eq hq hd, ih hasterisk hpercent,
        List.cons_eq_cons]

end MvsGateway.Host.Pattern
