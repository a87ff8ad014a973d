import MvsGateway.Host.JobQueue

/-!
# Identifiers of jobs

A job has a number, and with it two identifiers: `JOB` with the number, in any
letter case, and a correlator that starts with the number. Either determines
the number, and no text is an identifier of the one kind for one job and of
the other kind for another.
-/

namespace MvsGateway.Host

/-! ## Names in a submitted text -/

theorem Jcl.not_blank_of_jobName? {jcl name : String} (h : Jcl.jobName? jcl = some name) {c : Char}
    (hc : c ∈ name.toList) : Chars.isBlank c = false := by
  obtain ⟨word, hfound, rfl⟩ := Option.map_eq_some_iff.1 h
  obtain ⟨statement, _, hname⟩ := List.exists_of_findSome?_eq_some hfound
  rw [String.toList_ofList] at hc
  obtain ⟨d, hd, rfl⟩ := List.mem_map.1 hc
  rw [Chars.isBlank_toUpper]
  unfold nameBefore? at hname
  split at hname
  · rename_i first second rest hwords
    split at hname
    · cases hname
      have hword : word ∈ Chars.words statement := hwords ▸ List.mem_cons_self
      exact (Chars.of_mem_splitBy (List.mem_filter.1 hword).1 hd).2
    · cases hname
  · cases hname

namespace Job

/-- The identifiers of the job are those of its number. -/
structure HasNumber (job : Job) (n : Nat) : Prop where
  jobid : job.jobid = idOf n
  correlator : ∃ jcl name, Jcl.jobName? jcl = some name ∧ job.correlator = correlatorOf n name

/-! ## Numbers in identifiers -/

/-- The digits of an identifier or a correlator. -/
def digits (width n : Nat) : List Char := Chars.padLeft '0' width (Chars.decimal n)

theorem toList_idOf (n : Nat) : (idOf n).toList = 'J' :: 'O' :: 'B' :: digits 5 n := by
  simp [idOf, Text.decimalPadded, digits]

theorem toList_correlatorOf (n : Nat) (name : String) : (correlatorOf n name).toList =
    'J' :: (digits 7 n ++ 'Z' :: 'O' :: 'S' :: '1' :: '.' :: Chars.padRight '.' 8 name.toList) := by
  simp [correlatorOf, Text.decimalPadded, digits, systemName]

theorem map_toLower_digits (width n : Nat) :
    (digits width n).map Char.toLower = digits width n := by
  have hself : (digits width n).map Char.toLower = (digits width n).map id :=
    List.map_congr_left fun c hc => Chars.toLower_of_isDigit (Chars.isDigit_of_mem_padded hc)
  rw [hself, List.map_id]

theorem number_of_sameLetters {m n : Nat} (h : Text.sameLetters (idOf m) (idOf n) = true) :
    m = n := by
  rw [Text.sameLetters, beq_iff_eq, toList_idOf, toList_idOf] at h
  simp only [List.map_cons, map_toLower_digits, List.cons.injEq, true_and] at h
  exact Chars.padded_injective h

/-- The digits of a correlator end at the system's name. -/
theorem number_of_correlator {m n : Nat} {a b : String} (h : correlatorOf m a = correlatorOf n b) :
    m = n := by
  have hchars := congrArg String.toList h
  rw [toList_correlatorOf, toList_correlatorOf, List.cons.injEq] at hchars
  -- The `Z` of the system's name is the first character that is no digit.
  have hdigits := congrArg (List.takeWhile Char.isDigit) hchars.2
  have hfront : ∀ (k : Nat) (rest : List Char),
      (digits 7 k ++ 'Z' :: rest).takeWhile Char.isDigit = digits 7 k := by
    intro k rest
    have hall : ∀ c ∈ digits 7 k, Char.isDigit c = true := fun c hc =>
      Chars.isDigit_of_mem_padded hc
    rw [List.takeWhile_append_of_pos hall]
    simp
  rw [hfront, hfront] at hdigits
  exact Chars.padded_injective hdigits

/-- Behind the `J` an identifier has a letter and a correlator a digit. -/
theorem not_sameLetters_correlatorOf (m n : Nat) (name : String) :
    Text.sameLetters (idOf m) (correlatorOf n name) = false := by
  rw [Bool.eq_false_iff]
  intro h
  rw [Text.sameLetters, beq_iff_eq, toList_idOf, toList_correlatorOf] at h
  cases hdigits : digits 7 n with
  | nil => exact Chars.padded_ne_nil (by omega) n hdigits
  | cons c r =>
    have hdigit : c.isDigit = true := Chars.isDigit_of_mem_padded (hdigits ▸ List.mem_cons_self)
    rw [hdigits] at h
    simp only [List.map_cons, List.cons_append, List.cons.injEq, true_and] at h
    rw [Chars.toLower_of_isDigit hdigit] at h
    rw [← h.1] at hdigit
    cases hdigit

/-! ## Answering -/

theorem sameLetters_comm (s t : String) : Text.sameLetters s t = Text.sameLetters t s := by
  unfold Text.sameLetters
  exact BEq.comm

theorem sameLetters_trans {s t r : String} (hst : Text.sameLetters s t = true)
    (htr : Text.sameLetters t r = true) : Text.sameLetters s r = true := by
  unfold Text.sameLetters at *
  rw [beq_iff_eq] at *
  exact hst.trans htr

/-- Only one number answers to a text. -/
theorem number_of_answersTo {a b : Job} {m n : Nat} {id : String} (ha : a.HasNumber m)
    (hb : b.HasNumber n) (hida : a.answersTo id = true) (hidb : b.answersTo id = true) : m = n := by
  obtain ⟨hja, _, na, _, hca⟩ := ha
  obtain ⟨hjb, _, nb, _, hcb⟩ := hb
  simp only [answersTo, Bool.or_eq_true, beq_iff_eq, hja, hca] at hida
  simp only [answersTo, Bool.or_eq_true, beq_iff_eq, hjb, hcb] at hidb
  -- No text is both an identifier and a correlator, so two of the four cases are void.
  have hapart : ∀ k l name, Text.sameLetters (idOf k) id = true → correlatorOf l name ≠ id := by
    rintro k l name hk rfl
    rw [not_sameLetters_correlatorOf] at hk
    cases hk
  rcases hida with hida | hida
  · rcases hidb with hidb | hidb
    · rw [sameLetters_comm] at hidb
      exact number_of_sameLetters (sameLetters_trans hida hidb)
    · exact absurd hidb (hapart m n nb hida)
  · rcases hidb with hidb | hidb
    · exact absurd hida (hapart n m na hidb)
    · exact number_of_correlator (hida.trans hidb.symm)

theorem answersTo_jobid (job : Job) : job.answersTo job.jobid = true := by
  simp [answersTo, Text.sameLetters]

theorem answersTo_correlator (job : Job) : job.answersTo job.correlator = true := by
  simp [answersTo]

theorem isBlank_of_mem_digits {width n : Nat} {c : Char} (h : c ∈ digits width n) :
    Chars.isBlank c = false :=
  Chars.isBlank_of_isAlphanum (by simp [Char.isAlphanum, Chars.isDigit_of_mem_padded h])

/-- An identifier has no white space to lose. -/
theorem trim_jobid {job : Job} {n : Nat} (h : job.HasNumber n) : Text.trim job.jobid = job.jobid := by
  apply Text.trim_eq_self
  intro c hc
  rw [h.jobid, toList_idOf] at hc
  simp only [List.mem_cons] at hc
  rcases hc with rfl | rfl | rfl | hc
  · decide
  · decide
  · decide
  · exact isBlank_of_mem_digits hc

/-- A correlator has no white space to lose. -/
theorem trim_correlator {job : Job} {n : Nat} (h : job.HasNumber n) :
    Text.trim job.correlator = job.correlator := by
  obtain ⟨_, jcl, name, hname, hcorrelator⟩ := h
  apply Text.trim_eq_self
  intro c hc
  rw [hcorrelator, toList_correlatorOf] at hc
  simp only [List.mem_cons, List.mem_append, Chars.padRight, List.mem_replicate] at hc
  rcases hc with rfl | hc | rfl | rfl | rfl | rfl | rfl | hc | ⟨_, rfl⟩
  · decide
  · exact isBlank_of_mem_digits hc
  · decide
  · decide
  · decide
  · decide
  · decide
  · exact Jcl.not_blank_of_jobName? hname hc
  · decide

end Job

end MvsGateway.Host
