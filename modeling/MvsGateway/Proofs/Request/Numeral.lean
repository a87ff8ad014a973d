import Mathlib.Data.List.Induction
import MvsGateway.Proofs.Request.JobResource
import MvsGateway.Reply

/-!
# Numbers in requests

A limit of items, the key of a spool file and a numeric attribute are written
with decimal digits. All three are read by value, however many digits there
are. They part ways where the value is large: a limit is cut down to the
largest count, which no listing exceeds, and a key or an attribute is refused.
-/

namespace MvsGateway

namespace Chars

/-- The number that a run of digits denotes: the last digit counts once, and
what stands before it ten times. -/
inductive Denotes : List Char → Nat → Prop
  | digit {d : Nat} (hd : d < 10) : Denotes [Nat.digitChar d] d
  | append {s : List Char} {n d : Nat} (front : Denotes s n) (hd : d < 10) :
      Denotes (s ++ [Nat.digitChar d]) (10 * n + d)

variable {s : List Char} {n : Nat}

theorem decimalValue_concat (s : List Char) (c : Char) :
    decimalValue (s ++ [c]) = decimalValue s * 10 + digitValue c := by
  simp [decimalValue]

theorem Denotes.isRun (h : Denotes s n) : IsRun s := by
  induction h with
  | digit hd =>
    refine ⟨List.cons_ne_nil _ _, ?_⟩
    intro c hc
    rw [List.mem_singleton.1 hc]
    exact (digit_digitChar hd).1
  | append front hd ih =>
    refine ⟨by simp, ?_⟩
    intro c hc
    rcases List.mem_append.1 hc with hfront | hlast
    · exact ih.2 c hfront
    · rw [List.mem_singleton.1 hlast]
      exact (digit_digitChar hd).1

theorem Denotes.decimalValue_eq (h : Denotes s n) : decimalValue s = n := by
  induction h with
  | digit hd =>
    have hvalue := (digit_digitChar hd).2
    simp [decimalValue, hvalue]
  | append front hd ih =>
    rw [decimalValue_concat, ih, (digit_digitChar hd).2, Nat.mul_comm]

theorem IsRun.denotes (h : IsRun s) : Denotes s (decimalValue s) := by
  induction s using List.reverseRecOn with
  | nil => exact absurd rfl h.1
  | append_singleton front c ih =>
    obtain ⟨hlt, hchar⟩ := digitChar_digitValue (h.2 c (by simp))
    rw [decimalValue_concat]
    by_cases hfront : front = []
    · subst hfront
      have hone : decimalValue [] * 10 + digitValue c = digitValue c := Nat.zero_add _
      have hdigit := Denotes.digit hlt
      rw [hchar] at hdigit
      rwa [hone]
    · have hrest := ih ⟨hfront, fun d hd => h.2 d (List.mem_append_left _ hd)⟩
      have happend := hrest.append hlt
      rwa [hchar, Nat.mul_comm] at happend

/-- A run of digits denotes one number. -/
theorem IsRun.denotes_iff (h : IsRun s) : Denotes s n ↔ n = decimalValue s := by
  constructor
  · exact fun hn => hn.decimalValue_eq.symm
  · rintro rfl
    exact h.denotes

end Chars

/-! ## The three readers -/

/-- How a text is read that denotes `v`. -/
structure IsReadAs (s : String) (v : Nat) : Prop where
  limit : Query.maxEntries? s = if v = 0 then none else some (min v (UInt64.size - 1))
  key : FileKey.ofText s = if v < UInt32.size then .ok (.number v) else .error .fileKey
  number (q : Query) (name : String) : q.get? name = some s →
    q.number? name =
      if v < UInt32.size then .ok (some v) else .error (.invalid (.outOfRange name))
  listing (q : Query) {α : Type} (items : List α) : q.get? "max-entries" = some s →
    items.length < UInt64.size → Reply.truncate items q.options.maxEntries =
      if 0 < v ∧ v < items.length then (items.take v, true) else (items, false)

/-- How a text is read that denotes no number. -/
structure IsReadAsNone (s : String) : Prop where
  limit : Query.maxEntries? s = none
  key : FileKey.ofText s =
    if Text.sameLetters s "JCL" = true then .ok .jcl else .error .fileKey
  number (q : Query) (name : String) : q.get? name = some s →
    q.number? name = if s = "" then .ok none else .error (.invalid (.notANumber name))
  listing (q : Query) {α : Type} (items : List α) : q.get? "max-entries" = some s →
    Reply.truncate items q.options.maxEntries = (items, false)

section Readers

variable {s : String} {v : Nat}

theorem Query.maxEntries?_of_value (h : Text.decimal? s = some v) :
    maxEntries? s = if v = 0 then none else some (min v (UInt64.size - 1)) := by
  unfold maxEntries?
  rw [h]
  cases v with
  | zero => rfl
  | succ n => rfl

theorem FileKey.ofText_of_value (h : Text.decimal? s = some v) :
    ofText s = if v < UInt32.size then .ok (.number v) else .error .fileKey := by
  obtain ⟨zeros, digits⟩ := Chars.decimal?_eq_some_iff.1 h
  simp only [ofText, sameLetters_of_digits digits, h, Bool.false_eq_true, if_false]

theorem Query.number?_of_value {q : Query} {name : String} (h : Text.decimal? s = some v)
    (hs : q.get? name = some s) :
    q.number? name =
      if v < UInt32.size then .ok (some v) else .error (.invalid (.outOfRange name)) := by
  have hne : s ≠ "" := by
    rintro rfl
    cases h
  have hgiven : q.nonEmpty? name = some s := by simp [nonEmpty?, hs, hne]
  simp only [number?, hgiven, h]

/-- No listing is longer than the largest count, so that what a limit is cut
down to makes no difference. -/
theorem Reply.truncate_min {α : Type} {items : List α} (h : items.length < UInt64.size)
    (hv : v ≠ 0) :
    truncate items (some (min v (UInt64.size - 1))) =
      if 0 < v ∧ v < items.length then (items.take v, true) else (items, false) := by
  unfold truncate
  by_cases hshort : v < items.length
  · have hcut : min v (UInt64.size - 1) = v := by omega
    have hboth : 0 < v ∧ v < items.length := ⟨by omega, hshort⟩
    simp only [hcut, if_pos hboth, if_pos hshort]
  · have hcut : ¬items.length > min v (UInt64.size - 1) := by omega
    have hboth : ¬(0 < v ∧ v < items.length) := fun hlimit => hshort hlimit.2
    simp only [if_neg hcut, if_neg hboth]

theorem isReadAs_of_value (h : Text.decimal? s = some v) : IsReadAs s v where
  limit := Query.maxEntries?_of_value h
  key := FileKey.ofText_of_value h
  number q name hs := Query.number?_of_value h hs
  listing q α items hs hlength := by
    have hlimit : q.options.maxEntries = Query.maxEntries? s := by
      simp only [Query.options, hs, Option.bind_some]
    rw [hlimit, Query.maxEntries?_of_value h]
    by_cases hzero : v = 0
    · rw [if_pos hzero, hzero]
      rfl
    · rw [if_neg hzero]
      exact Reply.truncate_min hlength hzero

theorem isReadAsNone_of_no_value (h : Text.decimal? s = none) : IsReadAsNone s where
  limit := by rw [Query.maxEntries?, h]
  key := by rw [FileKey.ofText, h]
  number q name hs := by
    by_cases hne : s = ""
    · have habsent : q.nonEmpty? name = none := by simp [Query.nonEmpty?, hs, hne]
      simp only [Query.number?, habsent, if_pos hne]
    · have hgiven : q.nonEmpty? name = some s := by simp [Query.nonEmpty?, hs, hne]
      simp only [Query.number?, hgiven, h, if_neg hne]
  listing q α items hs := by
    have hlimit : q.options.maxEntries = none := by
      simp only [Query.options, hs, Option.bind_some, Query.maxEntries?, h]
    rw [hlimit]
    rfl

end Readers

/-- A run of digits of any length denotes one number, and the readers see that
number alone. Of any other text no reader makes a number. -/
theorem numbers_are_read_by_value (s : String) :
    Chars.IsRun s.toList ∧
        (∃ v, (∀ n, Chars.Denotes s.toList n ↔ n = v) ∧ IsReadAs s v) ∨
      ¬Chars.IsRun s.toList ∧ (∀ n, ¬Chars.Denotes s.toList n) ∧ IsReadAsNone s := by
  by_cases hrun : Chars.IsRun s.toList
  · have hvalue : Text.decimal? s = some _ := Chars.decimal?_of_isRun hrun
    exact .inl ⟨hrun, _, fun _ => hrun.denotes_iff, isReadAs_of_value hvalue⟩
  · have hnone : Text.decimal? s = none := Chars.decimal?_of_not_isRun hrun
    exact .inr ⟨hrun, fun _ h => hrun h.isRun, isReadAsNone_of_no_value hnone⟩

example : Query.maxEntries? "018446744073709551616" = some 18446744073709551615 := by decide

end MvsGateway
