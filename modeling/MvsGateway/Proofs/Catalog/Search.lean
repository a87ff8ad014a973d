import Mathlib.Data.List.Forall2
import MvsGateway.Proofs.Catalog.Map
import MvsGateway.Proofs.Pattern

/-!
# Searches of a catalog

A pattern is a text with places left open, and a name matches it if the places
can be filled in so that the name comes out. The matcher decides this for every
name of ASCII characters, though it tries one way after the other and goes by
bytes. A search lists the cataloged names that match, in their order.
-/

namespace MvsGateway.Host

namespace Pattern

/-! ## Filling in a pattern -/

/-- What can be filled in for a character of a qualifier: any text without a
dot for an asterisk, one character for a percent sign, itself for any other. -/
inductive FillsChar : Char → List Char → Prop
  | run {text : List Char} (h : '.' ∉ text) : FillsChar '*' text
  | one {c : Char} (h : c ≠ '.') : FillsChar '%' [c]
  | same {c : Char} (hrun : c ≠ '*') (hone : c ≠ '%') : FillsChar c [c]

/-- What can be filled in for a qualifier: any list of qualifiers for `**`, and
for any other a single one, which its characters leave when they are filled
in. -/
inductive FillsQualifier : List Char → List (List Char) → Prop
  | any {names : List (List Char)} (h : ∀ n ∈ names, '.' ∉ n) : FillsQualifier anyQualifiers names
  | one {q : List Char} {texts : List (List Char)} (hq : q ≠ anyQualifiers)
      (h : List.Forall₂ FillsChar q texts) : FillsQualifier q [texts.flatten]

/-- The qualifiers of a pattern can be filled in so that those of the name come
out. -/
def IsFilledIn (pattern name : List (List Char)) : Prop :=
  ∃ filled, List.Forall₂ FillsQualifier pattern filled ∧ filled.flatten = name

theorem charsMatch_of_fills {q : List Char} {texts : List (List Char)}
    (h : List.Forall₂ FillsChar q texts) : CharsMatch q texts.flatten := by
  induction h with
  | nil => exact .nil
  | cons hc _ ih =>
    rw [List.flatten_cons]
    cases hc with
    | run => exact .run _ ih
    | one => exact .one _ ih
    | same => exact .same _ ih

theorem CharsMatch.fills {q n : List Char} (h : CharsMatch q n) (hn : '.' ∉ n) :
    ∃ texts, List.Forall₂ FillsChar q texts ∧ texts.flatten = n := by
  induction h with
  | nil => exact ⟨[], .nil, rfl⟩
  | run skipped h ih =>
    rw [List.mem_append, not_or] at hn
    obtain ⟨texts, htexts, rfl⟩ := ih hn.2
    exact ⟨skipped :: texts, .cons (.run hn.1) htexts, rfl⟩
  | one c h ih =>
    obtain ⟨hc, hrest⟩ := List.ne_and_not_mem_of_not_mem_cons hn
    obtain ⟨texts, htexts, rfl⟩ := ih hrest
    exact ⟨[c] :: texts, .cons (.one hc.symm) htexts, rfl⟩
  | same c h ih =>
    obtain ⟨hc, hrest⟩ := List.ne_and_not_mem_of_not_mem_cons hn
    obtain ⟨texts, htexts, rfl⟩ := ih hrest
    refine ⟨[c] :: texts, .cons ?_ htexts, rfl⟩
    -- A wildcard that meets itself is filled in with itself.
    by_cases hrun : c = '*'
    · rw [hrun]
      exact .run (by decide)
    · by_cases hone : c = '%'
      · rw [hone]
        exact .one (by decide)
      · exact .same hrun hone

theorem qualifiersMatch_of_fills {pattern : List (List Char)} {filled : List (List (List Char))}
    (h : List.Forall₂ FillsQualifier pattern filled) : QualifiersMatch pattern filled.flatten := by
  induction h with
  | nil => exact .nil
  | cons hq _ ih =>
    rw [List.flatten_cons]
    cases hq with
    | any => exact .any _ ih
    | one _ hchars => exact .one (charsMatch_of_fills hchars) ih

theorem QualifiersMatch.isFilledIn {pattern name : List (List Char)}
    (h : QualifiersMatch pattern name) (hname : ∀ n ∈ name, '.' ∉ n) : IsFilledIn pattern name := by
  induction h with
  | nil => exact ⟨[], .nil, rfl⟩
  | any skipped h ih =>
    obtain ⟨hskipped, hrest⟩ := List.forall_mem_append.1 hname
    obtain ⟨filled, hfilled, rfl⟩ := ih hrest
    exact ⟨skipped :: filled, .cons (.any hskipped) hfilled, rfl⟩
  | @one p rest q n hq h ih =>
    obtain ⟨hn, hrest⟩ := List.forall_mem_cons.1 hname
    obtain ⟨filled, hfilled, rfl⟩ := ih hrest
    refine ⟨[n] :: filled, .cons ?_ hfilled, rfl⟩
    by_cases hany : q = anyQualifiers
    · rw [hany]
      exact .any (List.forall_mem_singleton.2 hn)
    · obtain ⟨texts, htexts, rfl⟩ := hq.fills hn
      exact .one hany htexts

theorem isFilledIn_iff {pattern name : List (List Char)} (hname : ∀ n ∈ name, '.' ∉ n) :
    IsFilledIn pattern name ↔ QualifiersMatch pattern name := by
  constructor
  · rintro ⟨filled, hfilled, rfl⟩
    exact qualifiersMatch_of_fills hfilled
  · intro h
    exact h.isFilledIn hname

/-- The matcher finds the way to fill in a pattern, if there is one. -/
theorem accepts_iff_isFilledIn {pattern name : String} (h : IsAscii name.toList) :
    accepts pattern name = true ↔ IsFilledIn (qualifiers pattern) (qualifiers name) := by
  rw [accepts_iff h, isFilledIn_iff]
  exact fun n hn => Chars.not_mem_of_mem_splitAt hn

end Pattern

/-! ## Cataloged names -/

theorem isAscii_of_nameFault? {name : String} (h : nameFault? name = none) :
    Pattern.IsAscii name.toList := by
  intro c hc
  rcases (mem_of_nameFault? h).2 c hc with halphanum | hnational | rfl | rfl
  · have hcode := Chars.code_of_isAlphanum halphanum
    omega
  · simp only [isNational, Bool.or_eq_true, beq_iff_eq] at hnational
    rcases hnational with (rfl | rfl) | rfl <;> decide
  · decide
  · decide

namespace Catalog

theorem names_list (c : Catalog) (pattern : String) :
    (c.list pattern).map (·.name) =
      (c.entries.keys.filter (Pattern.accepts (Text.upper pattern))).map some := by
  rw [list, Table.keys, List.filter_map, List.map_map, List.map_map]
  rfl

/-- The names are those of the cataloged data sets that match the pattern in
upper case, each once and in ascending order. -/
structure FindsNames (c : Catalog) (pattern : String) (names : List String) : Prop where
  ascending : names.Pairwise (· < ·)
  mem_iff : ∀ name, name ∈ names ↔
    (∃ d, c.entries.get? name = some d) ∧ Pattern.accepts (Text.upper pattern) name = true

theorem findsNames (c : Catalog) (pattern : String) :
    c.FindsNames pattern (c.entries.keys.filter (Pattern.accepts (Text.upper pattern))) := by
  refine ⟨c.entries.keys_ascending.filter _, ?_⟩
  intro name
  rw [List.mem_filter, Table.mem_keys_iff]

end Catalog

/-- A name of ASCII characters matches a pattern if the pattern can be filled in
with it. A search finds the cataloged names that match, and after every run all
of them are such names. -/
theorem searches_find_matches :
    (∀ pattern name, Pattern.IsAscii name.toList →
      (Pattern.accepts pattern name = true ↔
        Pattern.IsFilledIn (Pattern.qualifiers pattern) (Pattern.qualifiers name))) ∧
    (∀ (c : Catalog) (pattern : String), ∃ names,
      (c.list pattern).map (·.name) = names.map some ∧ c.FindsNames pattern names) ∧
    ∀ user history name d,
      ((Machine.initial user).after history).catalog.entries.get? name = some d →
        Pattern.IsAscii name.toList := by
  refine ⟨?_, ?_, ?_⟩
  · intro pattern name h
    exact Pattern.accepts_iff_isFilledIn h
  · intro c pattern
    exact ⟨_, c.names_list pattern, c.findsNames pattern⟩
  · intro user history name d hd
    exact isAscii_of_nameFault? ((Machine.isCanonical_catalog user history).name name d hd).1

/-- Two of `**` in a row may be nothing and everything, a run of asterisks may
be nothing, and an asterisk does not reach over a dot. -/
theorem wildcards_are_filled_in :
    Pattern.IsAscii "A.B..CD".toList ∧
    Pattern.IsFilledIn (Pattern.qualifiers "**.**.C***%.**") (Pattern.qualifiers "A.B..CD") ∧
    ¬Pattern.IsFilledIn (Pattern.qualifiers "A.*.%D") (Pattern.qualifiers "A.B..CD") := by
  have hascii : Pattern.IsAscii "A.B..CD".toList := by decide
  obtain ⟨hmatches, _⟩ := searches_find_matches
  refine ⟨hascii, ?_, ?_⟩
  · exact (hmatches "**.**.C***%.**" "A.B..CD" hascii).1 (by decide)
  · rw [← hmatches "A.*.%D" "A.B..CD" hascii]
    decide

end MvsGateway.Host
