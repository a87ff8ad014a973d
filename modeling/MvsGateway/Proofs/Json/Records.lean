import MvsGateway.Json.Printer
import MvsGateway.Request.Body

/-!
# Printed records

A body with an array of code points, as the printer writes it, is read with
the same array in it: the digits of a number are taken as that number, the
items as the same items, and the one field as the only one.
-/

namespace MvsGateway

namespace Json

variable {rest : List Char}

/-! ## Numbers -/

/-- The text behind a number does not go on with it. -/
def EndsNumber (rest : List Char) : Prop :=
  ∀ c ∈ rest.head?, c.isDigit = false ∧ c ≠ '.' ∧ c ≠ 'e' ∧ c ≠ 'E'

theorem readDigits_append {digits : List Char} (hne : digits ≠ [])
    (hdigits : ∀ c ∈ digits, c.isDigit = true) (hrest : EndsNumber rest) :
    readDigits (digits ++ rest) = some (digits, rest) := by
  have hstops : rest.takeWhile Char.isDigit = [] ∧ rest.dropWhile Char.isDigit = rest := by
    cases rest with
    | nil => exact ⟨rfl, rfl⟩
    | cons c r => simp [(hrest c rfl).1]
  unfold readDigits
  rw [List.takeWhile_append_of_pos hdigits, List.dropWhile_append_of_pos hdigits, hstops.1,
    hstops.2, List.append_nil]
  cases digits with
  | nil => exact absurd rfl hne
  | cons c r => rfl

theorem readFraction_of_endsNumber (h : EndsNumber rest) :
    readFraction rest = some (none, rest) := by
  unfold readFraction
  split
  · exact absurd rfl (h '.' rfl).2.1
  · rfl

theorem readExponent_of_endsNumber (h : EndsNumber rest) :
    readExponent rest = some (none, rest) := by
  cases rest with
  | nil => rfl
  | cons c r =>
    obtain ⟨_, _, hlower, hupper⟩ := h c rfl
    simp [readExponent, hlower, hupper]

/-- A digit stands in front of a number. -/
theorem exists_cons_decimal (n : Nat) : ∃ d r, Chars.decimal n = d :: r ∧ d.isDigit = true := by
  cases hdigits : Chars.decimal n with
  | nil => exact absurd hdigits (Chars.decimal_ne_nil n)
  | cons d r =>
    have hmem : d ∈ Chars.decimal n := by
      rw [hdigits]
      exact List.mem_cons_self
    exact ⟨d, r, rfl, Chars.isDigit_of_mem_decimal hmem⟩

theorem readNumeral_decimal (n : Nat) (h : EndsNumber rest) :
    readNumeral (Chars.decimal n ++ rest) =
      some (⟨false, Chars.decimal n, none, none⟩, rest) := by
  have hread := readDigits_append (Chars.decimal_ne_nil n)
    (fun _ => Chars.isDigit_of_mem_decimal) h
  have hlead : 1 < (Chars.decimal n).length → (Chars.decimal n).head? ≠ some '0' := by
    intro hlength
    rcases Nat.eq_zero_or_pos n with rfl | hpos
    · exact absurd hlength (by decide)
    · exact Chars.head?_decimal_ne_zero hpos
  unfold readNumeral
  split
  rename_i hsign
  split at hsign
  · rename_i hminus
    obtain ⟨d, r, hdigits, hd⟩ := exists_cons_decimal n
    rw [hdigits] at hminus
    cases hminus
    cases hd
  · cases hsign
    simpa [hread, readFraction_of_endsNumber h, readExponent_of_endsNumber h] using hlead

/-- As long as a number stays below `2 ^ 64`, all its digits count. -/
theorem absorb_eq {digits : List Char} {significand : Nat}
    (h : Nat.ofDigitChars 10 digits significand < UInt64.size) :
    absorb significand digits = (Nat.ofDigitChars 10 digits significand, []) := by
  induction digits generalizing significand with
  | nil => rfl
  | cons c r ih =>
    rw [Nat.ofDigitChars_cons] at h ⊢
    have hnext : significand * 10 + Chars.digitValue c = 10 * significand + (c.toNat - '0'.toNat) := by
      rw [Nat.mul_comm]
      rfl
    -- The digits behind only make the number larger.
    have hsmall : 10 * significand + (c.toNat - '0'.toNat) < UInt64.size := by
      rw [Nat.ofDigitChars_eq_ofDigitChars_zero] at h
      have hgrows := Nat.le_mul_of_pos_left (10 * significand + (c.toNat - '0'.toNat))
        (Nat.pow_pos (n := r.length) (by decide : 0 < 10))
      omega
    rw [absorb, hnext]
    simp only [if_pos hsmall]
    exact ih h

theorem toNumber?_decimal {n : Nat} (h : n < UInt64.size) :
    Numeral.toNumber? ⟨false, Chars.decimal n, none, none⟩ = some (.whole n) := by
  have hvalue : Nat.ofDigitChars 10 (Chars.decimal n) 0 = n := Nat.ofDigitChars_ten_toDigits
  have hall : absorb 0 (Chars.decimal n) = (n, []) := by
    rw [absorb_eq (by rw [hvalue]; exact h), hvalue]
  simp [Numeral.toNumber?, hall]

/-! ## Arrays -/

theorem isSpace_of_isDigit {c : Char} (h : c.isDigit = true) : isSpace c = false := by
  rw [Bool.eq_false_iff]
  intro hspace
  simp only [isSpace, Bool.or_eq_true, beq_iff_eq] at hspace
  rcases hspace with ((rfl | rfl) | rfl) | rfl <;> cases h

/-- A digit begins no value but a number. -/
theorem readValue_digit {d : Char} (hd : d.isDigit = true) (fuel : Nat) (r : List Char) :
    readValue (fuel + 1) (d :: r) = (readNumeral (d :: r)).map fun (n, rest) => (.numeral n, rest) := by
  have hskip : skipSpace (d :: r) = d :: r := by
    simp [skipSpace, isSpace_of_isDigit hd]
  rw [readValue, hskip]
  split
  case h_7 => rfl
  all_goals
    rename_i hother
    cases hother
    cases hd

theorem readValue_decimal (fuel n : Nat) (h : EndsNumber rest) :
    readValue (fuel + 1) (Chars.decimal n ++ rest) =
      some (.numeral ⟨false, Chars.decimal n, none, none⟩, rest) := by
  have hnumeral := readNumeral_decimal n h
  obtain ⟨d, r, hdigits, hd⟩ := exists_cons_decimal n
  rw [hdigits] at hnumeral ⊢
  rw [List.cons_append, readValue_digit hd, ← List.cons_append, hnumeral]
  rfl

/-- A whole number as the grammar takes it. -/
def Written.ofNat (n : Nat) : Written := .numeral ⟨false, Chars.decimal n, none, none⟩

theorem chars_ofNat (n : Nat) : chars (ofNat n) = Chars.decimal n := by
  show (Text.decimal n).toList = _
  rw [Text.decimal, String.toList_ofList]

theorem itemChars_cons (n next : Nat) (ns : List Nat) :
    itemChars ((n :: next :: ns).map ofNat) =
      Chars.decimal n ++ ',' :: itemChars ((next :: ns).map ofNat) := by
  rw [← chars_ofNat]
  rfl

theorem endsNumber_comma (r : List Char) : EndsNumber (',' :: r) := by
  rintro c ⟨⟩
  decide

theorem endsNumber_bracket (r : List Char) : EndsNumber (']' :: r) := by
  rintro c ⟨⟩
  decide

/-- Each item takes one call, and one more for its number. -/
theorem readItems_itemChars (n : Nat) (ns : List Nat) (rest : List Char) {fuel : Nat}
    (hfuel : ns.length + 1 < fuel) :
    readItems fuel (itemChars ((n :: ns).map ofNat) ++ ']' :: rest) =
      some ((n :: ns).map Written.ofNat, rest) := by
  induction ns generalizing n fuel with
  | nil =>
    obtain ⟨fuel, rfl⟩ : ∃ f, fuel = f + 2 := ⟨fuel - 2, by omega⟩
    have hchars : itemChars ([n].map ofNat) = Chars.decimal n := chars_ofNat n
    rw [hchars, readItems, readValue_decimal fuel n (endsNumber_bracket rest)]
    rfl
  | cons next ns ih =>
    obtain ⟨fuel, rfl⟩ : ∃ f, fuel = f + 2 := ⟨fuel - 2, by omega⟩
    have hfewer : ns.length + 1 < fuel + 1 := by
      rw [List.length_cons] at hfuel
      omega
    have hrest := ih next hfewer
    rw [itemChars_cons, List.append_assoc, List.cons_append, readItems,
      readValue_decimal fuel n (endsNumber_comma _)]
    show ((readItems (fuel + 1) _).map fun read => (Written.ofNat n :: read.1, read.2)) = _
    rw [hrest]
    rfl

/-- A digit stands in front of the first item. -/
theorem exists_cons_itemChars (n : Nat) (ns : List Nat) :
    ∃ d r, itemChars ((n :: ns).map ofNat) = d :: r ∧ d.isDigit = true := by
  obtain ⟨d, r, hdigits, hd⟩ := exists_cons_decimal n
  cases ns with
  | nil => exact ⟨d, r, (chars_ofNat n).trans hdigits, hd⟩
  | cons next ns =>
    rw [itemChars_cons, hdigits]
    exact ⟨d, _, rfl, hd⟩

theorem readValue_bracket {d : Char} (hd : d.isDigit = true) (fuel : Nat) (r : List Char) :
    readValue (fuel + 1) ('[' :: d :: r) =
      (readItems fuel (d :: r)).map fun (items, rest) => (.list items, rest) := by
  have hskip : skipSpace (d :: r) = d :: r := by
    simp [skipSpace, isSpace_of_isDigit hd]
  have hopen : skipSpace ('[' :: d :: r) = '[' :: d :: r := rfl
  rw [readValue, hopen]
  simp only [hskip]
  split
  · rename_i hclose
    cases hclose
    cases hd
  · rfl

theorem readValue_array (ns : List Nat) (rest : List Char) {fuel : Nat}
    (hfuel : ns.length < fuel) :
    readValue (fuel + 1) (chars (.array (ns.map ofNat)) ++ rest) =
      some (.list (ns.map Written.ofNat), rest) := by
  cases ns with
  | nil => rfl
  | cons n ns =>
    have hitems := readItems_itemChars n ns rest hfuel
    obtain ⟨d, r, hchars, hd⟩ := exists_cons_itemChars n ns
    have hwhole : chars (.array ((n :: ns).map ofNat)) ++ rest =
        '[' :: (itemChars ((n :: ns).map ofNat) ++ ']' :: rest) := by
      simp [chars]
    rw [hwhole, hchars, List.cons_append, readValue_bracket hd, ← List.cons_append, ← hchars,
      hitems]
    rfl

theorem itemsOf?_ofNat {ns : List Nat} (h : ∀ n ∈ ns, n < UInt64.size) (depth : Nat) :
    itemsOf? (ns.map Written.ofNat) depth = some (ns.map ofNat) := by
  induction ns with
  | nil => rfl
  | cons n ns ih =>
    have hrest := ih fun m hm => h m (List.mem_cons_of_mem n hm)
    have hfirst : (Written.ofNat n).toJson? depth = some (ofNat n) := by
      rw [Written.ofNat, Written.toJson?, toNumber?_decimal (h n List.mem_cons_self)]
      rfl
    simp only [List.map_cons, itemsOf?, hfirst, hrest]

theorem length_le_itemChars (ns : List Nat) : ns.length ≤ (itemChars (ns.map ofNat)).length := by
  induction ns with
  | nil => exact Nat.zero_le _
  | cons n ns ih =>
    cases ns with
    | nil =>
      obtain ⟨d, r, hchars, _⟩ := exists_cons_itemChars n []
      rw [hchars]
      simp
    | cons next ns =>
      rw [itemChars_cons]
      simp only [List.length_cons, List.length_append] at ih ⊢
      omega

/-! ## Records -/

/-- An object with an array of records, and nothing else. -/
def ofRecords (items : List Json) : Json := .object [("records", .array items)]

/-- The object as the grammar takes it. -/
def Written.ofRecords (ns : List Nat) : Written :=
  .record [("records".toList.map .char, .list (ns.map .ofNat))]

theorem chars_ofRecords (items : List Json) : chars (ofRecords items) =
    '\x7b' :: ("\"records\":".toList ++ (chars (.array items) ++ ['}'])) := by
  simp [ofRecords, chars, fieldChars, quote, escapeChar]

theorem readMembers_records {ns : List Nat} {fuel : Nat} (hfuel : ns.length < fuel) :
    readMembers (fuel + 2) ("\"records\":".toList ++ (chars (.array (ns.map ofNat)) ++ ['}'])) =
      some ([("records".toList.map .char, .list (ns.map .ofNat))], []) := by
  have hvalue := readValue_array ns ['}'] hfuel
  generalize chars (.array (ns.map ofNat)) ++ ['}'] = tail at hvalue ⊢
  have hquote : skipSpace ("\"records\":".toList ++ tail) =
    '"' :: ("records\":".toList ++ tail) := rfl
  have hname : readGlyphs ("records\":".toList ++ tail) =
    some ("records".toList.map .char, ':' :: tail) := rfl
  have hcolon : skipSpace (':' :: tail) = ':' :: tail := rfl
  rw [readMembers, hquote]
  simp only [hname, hcolon, hvalue]
  rfl

theorem readValue_ofRecords (ns : List Nat) {fuel : Nat} (hfuel : ns.length < fuel) :
    readValue (fuel + 3) (chars (ofRecords (ns.map ofNat))) =
      some (Written.ofRecords ns, []) := by
  have hmembers := readMembers_records hfuel
  rw [chars_ofRecords]
  generalize chars (.array (ns.map ofNat)) ++ ['}'] = tail at hmembers ⊢
  show (readMembers (fuel + 2) ("\"records\":".toList ++ tail)).map
    (fun read => (Written.record read.1, read.2)) = _
  rw [hmembers]
  rfl

/-- The text of the object is long enough for the calls that its items take. -/
theorem written_read?_ofRecords (ns : List Nat) :
    Written.read? (chars (ofRecords (ns.map ofNat))) = some (Written.ofRecords ns) := by
  have hlength : ns.length + 11 ≤ (chars (ofRecords (ns.map ofNat))).length := by
    have hitems := length_le_itemChars ns
    rw [chars_ofRecords, chars]
    simp
    omega
  have hitems : ns.length < 2 * (chars (ofRecords (ns.map ofNat))).length - 1 := by omega
  have hread := readValue_ofRecords ns hitems
  have hfuel : 2 * (chars (ofRecords (ns.map ofNat))).length + 2 =
      2 * (chars (ofRecords (ns.map ofNat))).length - 1 + 3 := by omega
  rw [Written.read?, hfuel, hread]
  rfl

theorem toJson?_ofRecords {ns : List Nat} (h : ∀ n ∈ ns, n < UInt64.size) :
    (Written.ofRecords ns).toJson? maxDepth = some (ofRecords (ns.map ofNat)) := by
  have hlist : (Written.list (ns.map .ofNat)).toJson? 126 = some (.array (ns.map ofNat)) := by
    rw [Written.toJson?, itemsOf?_ofNat h]
    rfl
  have hname : textOf? ("records".toList.map .char) = some "records".toList := rfl
  rw [Written.ofRecords, maxDepth, Written.toJson?]
  simp only [fieldsOf?, hname, hlist]
  rfl

/-- What the printer writes for an array of records, the reader reads. -/
theorem read?_render_ofRecords {ns : List Nat} (h : ∀ n ∈ ns, n < UInt64.size) :
    read? (render (ofRecords (ns.map ofNat))) = some (ofRecords (ns.map ofNat)) := by
  rw [read?, render, String.toList_ofList, written_read?_ofRecords, Option.bind_some,
    toJson?_ofRecords h]

end Json

end MvsGateway
