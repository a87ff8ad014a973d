import MvsGateway.Host.JobQueue

/-!
# Statements of a job

A statement has a name, an operation and operands. The steps of a job are read
so, and white space right behind the slashes stands for no name there. The name
of the job is looked for without regard to that white space: it is the name of
a `JOB` statement, but also the operation of an unnamed statement whose first
operand is the word.
-/

namespace MvsGateway.Host

namespace Jcl

/-! ## Fields -/

structure Fields where
  name : Option (List Char)
  operation : List Char
  operands : List (List Char)
  deriving DecidableEq

/-- The fields of a statement, if it has an operation. -/
def fields? (statement : List Char) : Option Fields :=
  match (statement.head?.map Chars.isBlank).getD false, Chars.words statement with
  | true, operation :: operands => some ⟨none, operation, operands⟩
  | false, name :: operation :: operands => some ⟨some name, operation, operands⟩
  | _, _ => none

/-- The fields of the statements in order. -/
def readFields (jcl : String) : List Fields := (statements jcl).filterMap fields?

def upper (word : List Char) : String := String.ofList (word.map Char.toUpper)

namespace Fields

/-- What the job is named by: the name in a `JOB` statement, or the operation in
front of the word where that is the first operand and there is no name. -/
inductive NamesJob : Fields → List Char → Prop
  | named (name : List Char) (operands : List (List Char)) :
      NamesJob ⟨some name, job, operands⟩ name
  | unnamed (operation : List Char) (operands : List (List Char)) :
      NamesJob ⟨none, operation, job :: operands⟩ operation

/-- The name of a `JOB` statement. -/
def declared? (f : Fields) : Option (List Char) := if f.operation = job then f.name else none

/-- The name of a step, empty if there is none. -/
def step? (f : Fields) : Option (List Char) :=
  if f.operation = exec then some ((f.name.getD []).map Char.toUpper) else none

/-- The word that the statement names the job by. -/
def word? (f : Fields) : Option (List Char) :=
  match f.name with
  | some _ => f.declared?
  | none => if f.operands.head? = some job then some f.operation else none

variable {f : Fields} {w : List Char}

theorem word?_eq_some_iff : f.word? = some w ↔ f.NamesJob w := by
  constructor
  · intro h
    obtain ⟨_ | given, operation, operands⟩ := f
    · obtain ⟨hword, hsame⟩ := Option.ite_none_right_eq_some.1 h
      obtain ⟨rest, rfl⟩ := List.head?_eq_some_iff.1 hword
      cases hsame
      exact .unnamed operation rest
    · obtain ⟨hjob, hsame⟩ := Option.ite_none_right_eq_some.1 h
      cases hjob
      cases hsame
      exact .named _ operands
  · rintro ⟨⟩ <;> rfl

theorem word?_eq_none_iff : f.word? = none ↔ ∀ w, ¬f.NamesJob w := by
  simp only [← word?_eq_some_iff, Option.eq_none_iff_forall_ne_some, ne_eq]

theorem declared?_eq_none (h : f.word? = none) : f.declared? = none := by
  unfold word? at h
  split at h
  · exact h
  · rename_i hunnamed
    rw [declared?, hunnamed]
    split <;> rfl

theorem NamesJob.declared_or_unnamed (h : f.NamesJob w) :
    f.declared? = some w ∨ f.name = none ∧ f.operands.head? = some job ∧ w = f.operation := by
  rcases h with ⟨given, operands⟩ | ⟨operation, operands⟩
  · exact .inl rfl
  · exact .inr ⟨rfl, rfl, rfl⟩

/-- A step that names the job has no name of its own. -/
theorem NamesJob.step_iff (h : f.NamesJob w) : f.operation = exec ↔ f.name = none ∧ w = exec := by
  rcases h with ⟨name, operands⟩ | ⟨operation, operands⟩
  · refine iff_of_false ?_ nofun
    intro hsame
    cases hsame
  · exact ⟨fun hsame => ⟨rfl, hsame⟩, fun hsame => hsame.2⟩

end Fields

/-! ## Both scanners on fields -/

theorem step?_eq (statement : List Char) :
    step? statement = (fields? statement).bind Fields.step? := by
  unfold step? fields? nameBefore? Fields.step?
  cases (statement.head?.map Chars.isBlank).getD false
  · rcases Chars.words statement with _ | ⟨name, _ | ⟨operation, operands⟩⟩
    · rfl
    · rfl
    · by_cases hexec : operation = exec <;> simp [hexec]
  · rcases Chars.words statement with _ | ⟨operation, operands⟩
    · rfl
    · by_cases hexec : operation = exec <;> simp [hexec]

theorem nameBefore?_eq (statement : List Char) :
    nameBefore? job statement = (fields? statement).bind Fields.word? := by
  unfold fields? nameBefore? Fields.word? Fields.declared?
  cases (statement.head?.map Chars.isBlank).getD false
  · rcases Chars.words statement with _ | ⟨name, _ | ⟨operation, operands⟩⟩ <;> simp
  · rcases Chars.words statement with _ | ⟨operation, _ | ⟨operand, operands⟩⟩ <;> simp

theorem steps_eq (jcl : String) :
    steps jcl = ((readFields jcl).filterMap Fields.step?).map String.ofList := by
  rw [steps, readFields, List.filterMap_filterMap, funext step?_eq]

theorem jobName?_eq (jcl : String) :
    jobName? jcl = ((readFields jcl).findSome? Fields.word?).map upper := by
  have hfirst : (statements jcl).findSome? (nameBefore? job) =
      (readFields jcl).findSome? Fields.word? := by
    rw [← List.head?_filterMap, ← List.head?_filterMap, readFields, List.filterMap_filterMap,
      funext nameBefore?_eq]
  rw [jobName?, hfirst]
  rfl

/-! ## The first statement -/

/-- The first statement that names the job does so by this word. -/
def FirstNames (fields : List Fields) (w : List Char) : Prop :=
  ∃ before f after, fields = before ++ f :: after ∧ f.NamesJob w ∧
    ∀ g ∈ before, ∀ v, ¬g.NamesJob v

theorem jobName?_eq_some_iff {jcl name : String} :
    jobName? jcl = some name ↔ ∃ w, FirstNames (readFields jcl) w ∧ upper w = name := by
  simp only [jobName?_eq, Option.map_eq_some_iff, List.findSome?_eq_some_iff, FirstNames,
    Fields.word?_eq_some_iff, Fields.word?_eq_none_iff]

theorem jobName?_eq_none_iff {jcl : String} :
    jobName? jcl = none ↔ ∀ f ∈ readFields jcl, ∀ w, ¬f.NamesJob w := by
  simp only [jobName?_eq, Option.map_eq_none_iff, List.findSome?_eq_none_iff,
    Fields.word?_eq_none_iff]

/-- The name that the first `JOB` statement with one declares. -/
def declaredName? (jcl : String) : Option String :=
  ((readFields jcl).findSome? Fields.declared?).map upper

/-- The first statement that names the job is an unnamed one, and the job has its
operation for a name, whatever is declared later. -/
def IsNamedByOperation (jcl : String) : Prop :=
  ∃ before f after, readFields jcl = before ++ f :: after ∧ (∀ g ∈ before, ∀ v, ¬g.NamesJob v) ∧
    f.name = none ∧ f.operands.head? = some job ∧ jobName? jcl = some (upper f.operation)

theorem jobName?_eq_declaredName?_or (jcl : String) :
    jobName? jcl = declaredName? jcl ∨ IsNamedByOperation jcl := by
  cases hname : jobName? jcl with
  | none =>
    left
    rw [jobName?_eq, Option.map_eq_none_iff, List.findSome?_eq_none_iff] at hname
    symm
    rw [declaredName?, Option.map_eq_none_iff, List.findSome?_eq_none_iff]
    exact fun f hf => Fields.declared?_eq_none (hname f hf)
  | some name =>
    obtain ⟨w, ⟨before, f, after, hall, hnames, hbefore⟩, rfl⟩ := jobName?_eq_some_iff.1 hname
    rcases hnames.declared_or_unnamed with hdeclared | ⟨hunnamed, hword, rfl⟩
    · left
      symm
      rw [declaredName?, Option.map_eq_some_iff]
      refine ⟨w, List.findSome?_eq_some_iff.2 ⟨before, f, after, hall, hdeclared, ?_⟩, rfl⟩
      exact fun g hg => Fields.declared?_eq_none (Fields.word?_eq_none_iff.2 (hbefore g hg))
    · exact .inr ⟨before, f, after, hall, hbefore, hunnamed, hword, hname⟩

theorem submit_refused_iff (q : JobQueue) (time jcl owner : String) :
    q.submit time jcl owner = (.error (.invalid .noJobStatement), q) ↔
      ∀ f ∈ readFields jcl, ∀ w, ¬f.NamesJob w := by
  rw [← jobName?_eq_none_iff]
  unfold JobQueue.submit
  cases jobName? jcl with
  | none => exact iff_of_true rfl rfl
  | some name => exact iff_of_false nofun nofun

/-- The steps are those of the `EXEC` statements. The job is named by the first
statement that can name one, which is a `JOB` statement with a name, or an
unnamed statement with the word behind its operation. Where none of the latter
comes first, the name is the declared one. A text is refused if no statement
names the job, and the only step that names it is an unnamed one. -/
theorem job_is_named_by_first_statement (jcl : String) :
    steps jcl = ((readFields jcl).filterMap Fields.step?).map String.ofList ∧
    (∀ name, jobName? jcl = some name ↔ ∃ w, FirstNames (readFields jcl) w ∧ upper w = name) ∧
    (jobName? jcl = declaredName? jcl ∨ IsNamedByOperation jcl) ∧
    (∀ (q : JobQueue) time owner,
      q.submit time jcl owner = (.error (.invalid .noJobStatement), q) ↔
        ∀ f ∈ readFields jcl, ∀ w, ¬f.NamesJob w) ∧
    ∀ f ∈ readFields jcl, ∀ w, f.NamesJob w →
      (f.operation = exec ↔ f.name = none ∧ w = exec) :=
  ⟨steps_eq jcl, fun _ => jobName?_eq_some_iff, jobName?_eq_declaredName?_or jcl,
    fun q time owner => submit_refused_iff q time jcl owner, fun _ _ _ => Fields.NamesJob.step_iff⟩

/-- An unnamed step with the operand `JOB` gives the job its name, while the
text declares none. -/
theorem unnamed_step_names_job :
    readFields "// EXEC JOB" = [⟨none, exec, [job]⟩] ∧ steps "// EXEC JOB" = [""] ∧
      declaredName? "// EXEC JOB" = none ∧ jobName? "// EXEC JOB" = some "EXEC" ∧
      ∀ (q : JobQueue) time owner,
        q.submit time "// EXEC JOB" owner ≠ (.error (.invalid .noJobStatement), q) := by
  obtain ⟨hsteps, hname, _, hrefused, _⟩ := job_is_named_by_first_statement "// EXEC JOB"
  have hfields : readFields "// EXEC JOB" = [⟨none, exec, [job]⟩] := by decide
  have hnames : Fields.NamesJob ⟨none, exec, [job]⟩ exec := .unnamed exec []
  refine ⟨hfields, ?_, ?_, ?_, ?_⟩
  · rw [hsteps, hfields]
    rfl
  · rw [declaredName?, hfields]
    rfl
  · refine (hname "EXEC").2 ⟨exec, ⟨[], _, [], hfields, hnames, nofun⟩, by decide⟩
  · intro q time owner h
    refine (hrefused q time owner).1 h _ ?_ exec hnames
    rw [hfields]
    exact List.mem_cons_self

end Jcl

end MvsGateway.Host
