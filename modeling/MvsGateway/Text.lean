import MvsGateway.Chars.Case
import MvsGateway.Chars.Decimal
import MvsGateway.Chars.Split

/-!
# Strings

The operations on character lists, for strings. Letter case is that of ASCII
throughout: every other character is its own upper and lower case.
-/

namespace MvsGateway.Text

def upper (s : String) : String := String.ofList (s.toList.map Char.toUpper)

def lower (s : String) : String := String.ofList (s.toList.map Char.toLower)

/-- Equality up to the case of ASCII letters. -/
def sameLetters (s t : String) : Bool := s.toList.map Char.toLower == t.toList.map Char.toLower

def trim (s : String) : String := String.ofList (Chars.trim s.toList)

/-- The text without the white space in front. -/
def trimStart (s : String) : String := String.ofList (Chars.trimStart s.toList)

def isBlank (s : String) : Bool := s.toList.all Chars.isBlank

def lines (s : String) : List String := (Chars.lines s.toList).map String.ofList

def words (s : String) : List String := (Chars.words s.toList).map String.ofList

def splitAt (sep : Char) (s : String) : List String :=
  (Chars.splitAt sep s.toList).map String.ofList

def joinWith (sep : Char) (pieces : List String) : String :=
  String.ofList (Chars.joinWith sep (pieces.map String.toList))

def startsWith (lead s : String) : Bool := lead.toList.isPrefixOf s.toList

/-- What follows `lead` in a text that starts with it. -/
def after? (lead s : String) : Option String :=
  if startsWith lead s then some (String.ofList (s.toList.drop lead.toList.length)) else none

/-- What stands before `tail` in a text that ends with it. -/
def before? (tail s : String) : Option String :=
  if tail.toList.isSuffixOf s.toList then
    some (String.ofList (s.toList.take (s.toList.length - tail.toList.length)))
  else none

def contains (c : Char) (s : String) : Bool := s.toList.contains c

def decimal? (s : String) : Option Nat := Chars.decimal? s.toList

def decimal (n : Nat) : String := String.ofList (Chars.decimal n)

/-- The decimal digits of a number, with zeros in front up to `width`. -/
def decimalPadded (width n : Nat) : String :=
  String.ofList (Chars.padLeft '0' width (Chars.decimal n))

@[simp] theorem toList_upper (s : String) : (upper s).toList = s.toList.map Char.toUpper := by
  simp [upper]

@[simp] theorem toList_lower (s : String) : (lower s).toList = s.toList.map Char.toLower := by
  simp [lower]

@[simp] theorem toList_trim (s : String) : (trim s).toList = Chars.trim s.toList := by
  simp [trim]

/-- A text without white space is its own trimmed form. -/
theorem trim_eq_self {s : String} (h : ∀ c ∈ s.toList, Chars.isBlank c = false) : trim s = s := by
  rw [← String.toList_inj, toList_trim]
  apply Chars.trim_eq_self
  · exact fun c hc => h c (List.mem_of_head? hc)
  · exact fun c hc => h c (List.mem_of_getLast? hc)

@[simp] theorem joinWith_splitAt (sep : Char) (s : String) : joinWith sep (splitAt sep s) = s := by
  simp [joinWith, splitAt, Function.comp_def, Chars.joinWith_splitAt]

theorem splitAt_joinWith {sep : Char} {pieces : List String} (hne : pieces ≠ [])
    (h : ∀ piece ∈ pieces, sep ∉ piece.toList) : splitAt sep (joinWith sep pieces) = pieces := by
  have hchars : ∀ piece ∈ pieces.map String.toList, sep ∉ piece := by
    intro piece hpiece
    obtain ⟨text, htext, rfl⟩ := List.mem_map.1 hpiece
    exact h text htext
  rw [splitAt, joinWith, String.toList_ofList, Chars.splitAt_joinWith (by simpa using hne) hchars]
  simp

theorem joinWith_append {sep : Char} {front back : List String} (hfront : front ≠ [])
    (hback : back ≠ []) :
    joinWith sep (front ++ back) =
      joinWith sep front ++ String.singleton sep ++ joinWith sep back := by
  rw [← String.toList_inj]
  simp [joinWith, Chars.joinWith_append, hfront, hback]

theorem startsWith_iff {lead s : String} :
    startsWith lead s = true ↔ ∃ rest, s = lead ++ rest := by
  rw [startsWith, List.isPrefixOf_iff_prefix]
  constructor
  · rintro ⟨rest, hrest⟩
    refine ⟨String.ofList rest, ?_⟩
    rw [← String.toList_inj]
    simp [hrest]
  · rintro ⟨rest, rfl⟩
    exact ⟨rest.toList, by simp⟩

/-! ## Upper case -/

theorem upper_eq_self_iff {s : String} : upper s = s ↔ ∀ c ∈ s.toList, c.toUpper = c := by
  have hchars : s.toList.map Char.toUpper = s.toList.map id ↔ ∀ c ∈ s.toList, c.toUpper = c :=
    List.map_inj_left
  rw [List.map_id] at hchars
  rw [← hchars, ← String.toList_inj, toList_upper]

@[simp] theorem upper_upper (s : String) : upper (upper s) = upper s := by
  rw [upper_eq_self_iff]
  intro c hc
  rw [toList_upper] at hc
  obtain ⟨d, _, rfl⟩ := List.mem_map.1 hc
  exact Chars.toUpper_toUpper d

@[simp] theorem upper_append (s t : String) : upper (s ++ t) = upper s ++ upper t := by
  rw [← String.toList_inj]
  simp

theorem upper_trim (s : String) : upper (trim s) = trim (upper s) := by
  rw [← String.toList_inj]
  simp [Chars.trim_toUpper]

end MvsGateway.Text
