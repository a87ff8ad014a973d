import Mathlib.Data.List.Nodup
import MvsGateway.Proofs.JobQueue.Identifier
import MvsGateway.Proofs.Run

/-!
# The submissions of a run

A run is read without its queue: the submissions that are accepted, each with
its number in the run, its job, and the calls that come after it. A job is
live until a deletion names it. The queue holds the live jobs, in the order of
submission, and counts the submissions.
-/

namespace MvsGateway.Host

/-- The text that a call submits, if it submits one. -/
def Call.submits? : Call → Machine → Option String
  | .submit jcl, _ => some jcl
  | .submitDataSet dsn, s => (s.catalog.read dsn).toOption
  | .submitFile path, s => (s.files.read path).toOption
  | _, _ => none

/-- Whether a call deletes the job if that is there. -/
def Call.deletes (job : Job) : Call → Bool
  | .deleteJob id => job.answersTo (Text.trim id)
  | _ => false

/-- The job with a number that a text describes, if it describes one. -/
def Job.ofText? (time : String) (number : Nat) (jcl owner : String) : Option Job :=
  (Jcl.jobName? jcl).map fun jobname => Job.ofText time number jobname jcl owner

/-- The job with a number that an accepted submission makes. -/
def Call.job? (call : Call) (time : String) (number : Nat) (s : Machine) : Option Job :=
  (call.submits? s).bind fun jcl => Job.ofText? time number jcl s.user

/-- Whether one of the calls deletes the job if that is there. -/
def Job.isDeletedIn (job : Job) (history : List (String × Call)) : Bool :=
  history.any fun (_, call) => call.deletes job

structure Submission where
  number : Nat
  job : Job
  later : List (String × Call)

def Submission.isLive (a : Submission) : Bool := !a.job.isDeletedIn a.later

/-- The accepted submissions of a run, after `count` others. -/
def Machine.submissions (count : Nat) (s : Machine) : List (String × Call) → List Submission
  | [] => []
  | (time, call) :: later =>
    let next := (invoke time call s).2
    match call.job? time (count + 1) s with
    | some job => ⟨count + 1, job, later⟩ :: submissions (count + 1) next later
    | none => submissions count next later

/-! ## Numbered queues -/

/-- No job has a number beyond the last, and no two have one identifier. -/
structure JobQueue.IsNumbered (q : JobQueue) : Prop where
  number : ∀ job ∈ q.jobs, ∃ n ≤ q.lastNumber, job.HasNumber n
  distinct : (q.jobs.map Job.jobid).Nodup

namespace JobQueue

variable {q : JobQueue}

theorem isNumbered_empty : empty.IsNumbered := ⟨nofun, List.nodup_nil⟩

theorem IsNumbered.eq_of_answersTo (hq : q.IsNumbered) {a b : Job} {id : String} (ha : a ∈ q.jobs)
    (hb : b ∈ q.jobs) (hida : a.answersTo id = true) (hidb : b.answersTo id = true) : a = b := by
  obtain ⟨m, _, hm⟩ := hq.number a ha
  obtain ⟨n, _, hn⟩ := hq.number b hb
  have hnumber := Job.number_of_answersTo hm hn hida hidb
  refine List.inj_on_of_nodup_map hq.distinct ha hb ?_
  rw [hm.jobid, hn.jobid, hnumber]

/-- What answers to a name of a job is that job. -/
theorem IsNumbered.answersTo_iff (hq : q.IsNumbered) {job other : Job} {id : String}
    (hjob : job ∈ q.jobs) (hid : job.answersTo id = true) (hother : other ∈ q.jobs) :
    other.answersTo id = true ↔ other.jobid = job.jobid := by
  constructor
  · intro hanswers
    rw [hq.eq_of_answersTo hother hjob hanswers hid]
  · intro hsame
    rw [List.inj_on_of_nodup_map hq.distinct hother hjob hsame]
    exact hid

theorem IsNumbered.filter (hq : q.IsNumbered) (p : Job → Bool) :
    IsNumbered ⟨q.jobs.filter p, q.lastNumber⟩ where
  number job hjob := hq.number job (List.mem_filter.1 hjob).1
  distinct := hq.distinct.sublist (List.filter_sublist.map Job.jobid)

/-- A job with the next number is a new one. -/
theorem IsNumbered.append (hq : q.IsNumbered) {job : Job}
    (hjob : job.HasNumber (q.lastNumber + 1)) :
    IsNumbered ⟨q.jobs ++ [job], q.lastNumber + 1⟩ where
  number other hother := by
    rcases List.mem_append.1 hother with hold | hnew
    · obtain ⟨n, hn, hnumber⟩ := hq.number other hold
      exact ⟨n, Nat.le_succ_of_le hn, hnumber⟩
    · rw [List.mem_singleton.1 hnew]
      exact ⟨q.lastNumber + 1, Nat.le_refl _, hjob⟩
  distinct := by
    rw [List.map_append, List.nodup_append]
    refine ⟨hq.distinct, List.nodup_singleton _, ?_⟩
    intro id hid other hother hsame
    -- An old job of the same identifier would have the new number.
    obtain ⟨old, hold, rfl⟩ := List.mem_map.1 hid
    obtain ⟨n, hn, hnumber⟩ := hq.number old hold
    have hids : old.jobid = job.jobid := hsame.trans (List.mem_singleton.1 hother)
    have hanswers : old.answersTo job.jobid = true := hids ▸ old.answersTo_jobid
    have hnew := Job.number_of_answersTo hnumber hjob hanswers job.answersTo_jobid
    omega

/-! ## Looking up and deleting -/

theorem find_eq_ok_iff (hq : q.IsNumbered) {id : String} {job : Job} :
    q.find id = .ok job ↔ job ∈ q.jobs ∧ job.answersTo (Text.trim id) = true := by
  simp only [find]
  cases hfind : q.jobs.find? (·.answersTo (Text.trim id)) with
  | none =>
    rw [List.find?_eq_none] at hfind
    exact ⟨nofun, fun h => absurd h.2 (hfind job h.1)⟩
  | some found =>
    have hmem := List.mem_of_find?_eq_some hfind
    have hanswers := List.find?_some hfind
    constructor
    · intro h
      cases h
      exact ⟨hmem, hanswers⟩
    · rintro ⟨hjob, hid⟩
      rw [hq.eq_of_answersTo hjob hmem hid hanswers]

theorem find_eq_error {id : String} (h : ∀ job ∈ q.jobs, job.answersTo (Text.trim id) = false) :
    q.find id = .error (.notFound .job (Text.trim id)) := by
  have hnone : q.jobs.find? (·.answersTo (Text.trim id)) = none := by
    rw [List.find?_eq_none]
    intro job hjob
    rw [h job hjob]
    exact Bool.false_ne_true
  simp only [find, hnone]

/-- A purge leaves the jobs that do not answer to the identifier. -/
theorem purge_snd (hq : q.IsNumbered) (id : String) :
    (q.purge id).2 = ⟨q.jobs.filter fun job => !job.answersTo (Text.trim id), q.lastNumber⟩ := by
  unfold purge
  by_cases hsome : ∃ job ∈ q.jobs, job.answersTo (Text.trim id) = true
  · obtain ⟨job, hjob, hid⟩ := hsome
    rw [(find_eq_ok_iff hq).2 ⟨hjob, hid⟩]
    simp only [JobQueue.mk.injEq, and_true]
    -- The purge itself goes by the identifier of the job that it has found.
    apply List.filter_congr
    intro other hother
    have hiff := hq.answersTo_iff hjob hid hother
    rw [Bool.eq_iff_iff]
    simp [← hiff]
  · have hnone : ∀ job ∈ q.jobs, job.answersTo (Text.trim id) = false := by
      intro job hjob
      rw [Bool.eq_false_iff]
      intro hid
      exact hsome ⟨job, hjob, hid⟩
    rw [find_eq_error hnone]
    have hall : q.jobs.filter (fun job => !job.answersTo (Text.trim id)) = q.jobs := by
      rw [List.filter_eq_self]
      intro job hjob
      rw [hnone job hjob]
      rfl
    rw [hall]

/-- A text that describes a job adds it under the next number. -/
theorem submit_eq (q : JobQueue) (time jcl owner : String) :
    q.submit time jcl owner =
      match Job.ofText? time (q.lastNumber + 1) jcl owner with
      | none => (.error (.invalid .noJobStatement), q)
      | some job => (.ok job.jobid, ⟨q.jobs ++ [job], q.lastNumber + 1⟩) := by
  unfold submit Job.ofText?
  cases Jcl.jobName? jcl <;> rfl

end JobQueue

/-- The job is the one with the number that the user submits its text for: it
has the name that the text gives, and belongs to the user. -/
structure Job.IsOf (job : Job) (user : String) (number : Nat) : Prop where
  jobid : job.jobid = idOf number
  jobname : Jcl.jobName? job.jcl = some job.jobname
  owner : job.owner = Text.upper user
  correlator : job.correlator = correlatorOf number job.jobname

theorem Job.isOf_of_ofText? {time jcl user : String} {number : Nat} {job : Job}
    (h : Job.ofText? time number jcl user = some job) : job.IsOf user number ∧ job.jcl = jcl := by
  obtain ⟨jobname, hname, rfl⟩ := Option.map_eq_some_iff.1 h
  exact ⟨⟨rfl, hname, rfl, rfl⟩, rfl⟩

theorem Job.IsOf.hasNumber {job : Job} {user : String} {number : Nat} (h : job.IsOf user number) :
    job.HasNumber number :=
  ⟨h.jobid, job.jcl, job.jobname, h.jobname, h.correlator⟩

theorem Call.hasNumber_of_job? {call : Call} {time : String} {number : Nat} {s : Machine}
    {job : Job} (h : call.job? time number s = some job) : job.HasNumber number := by
  obtain ⟨jcl, _, hjob⟩ := Option.bind_eq_some_iff.1 h
  exact (Job.isOf_of_ofText? hjob).1.hasNumber

/-! ## One call -/

namespace Machine

variable {time : String} {call : Call} {s : Machine} {job : Job}

theorem submitText_of_some {jcl : Except Error String} {text : String} (htext : jcl = .ok text)
    (hjob : Job.ofText? time (s.jobs.lastNumber + 1) text s.user = some job) :
    s.submitText time jcl = (.ok (.jobId job.jobid),
      { s with jobs := ⟨s.jobs.jobs ++ [job], s.jobs.lastNumber + 1⟩ }) := by
  subst htext
  simp only [submitText, onJobs, JobQueue.submit_eq, hjob]
  rfl

theorem submitText_of_none {jcl : Except Error String}
    (hnone : (jcl.toOption.bind fun text =>
      Job.ofText? time (s.jobs.lastNumber + 1) text s.user) = none) :
    ∃ e, s.submitText time jcl = (.error e, s) := by
  cases jcl with
  | error e => exact ⟨e, rfl⟩
  | ok text =>
    have hjob : Job.ofText? time (s.jobs.lastNumber + 1) text s.user = none := hnone
    refine ⟨.invalid .noJobStatement, ?_⟩
    simp only [submitText, onJobs, JobQueue.submit_eq, hjob]
    rfl

/-- An accepted submission answers with the identifier of its job. -/
theorem invoke_of_job? (h : call.job? time (s.jobs.lastNumber + 1) s = some job) :
    invoke time call s = (.ok (.jobId job.jobid),
      { s with jobs := ⟨s.jobs.jobs ++ [job], s.jobs.lastNumber + 1⟩ }) := by
  obtain ⟨text, htext, hjob⟩ := Option.bind_eq_some_iff.1 h
  have hread : ∀ {r : Except Error String}, r.toOption = some text → r = .ok text := by
    intro r hr
    cases r with
    | error e => cases hr
    | ok held => rw [Option.some.inj hr]
  cases call with
  | submit jcl =>
    cases htext
    exact submitText_of_some rfl hjob
  | submitDataSet dsn => exact submitText_of_some (hread htext) hjob
  | submitFile path => exact submitText_of_some (hread htext) hjob
  | _ => cases htext

theorem filter_of_not_deletes (q : JobQueue) {call : Call} (h : ∀ job, call.deletes job = false) :
    (⟨q.jobs.filter fun job => !call.deletes job, q.lastNumber⟩ : JobQueue) = q := by
  have hall : q.jobs.filter (fun job => !call.deletes job) = q.jobs := by
    rw [List.filter_eq_self]
    intro job _
    rw [h job]
    rfl
  rw [hall]

/-- Any other call removes the jobs that it deletes, and no call but a
submission answers with an identifier. -/
theorem invoke_of_no_job (hq : s.jobs.IsNumbered)
    (h : call.job? time (s.jobs.lastNumber + 1) s = none) :
    (invoke time call s).2.jobs =
        ⟨s.jobs.jobs.filter fun job => !call.deletes job, s.jobs.lastNumber⟩ ∧
      ∀ id, (invoke time call s).1 ≠ .ok (.jobId id) := by
  have hrefused : ∀ jcl : Except Error String, jcl.toOption = call.submits? s →
      (s.submitText time jcl).2.jobs = s.jobs ∧
        ∀ id, (s.submitText time jcl).1 ≠ .ok (.jobId id) := by
    intro jcl hjcl
    rw [Call.job?, ← hjcl] at h
    obtain ⟨e, hr⟩ := submitText_of_none h
    rw [hr]
    exact ⟨rfl, nofun⟩
  -- A deletion purges; the filter of every other call keeps all jobs.
  cases call with
  | submit jcl =>
    rw [filter_of_not_deletes s.jobs fun _ => rfl]
    exact hrefused (.ok jcl) rfl
  | submitDataSet dsn =>
    rw [filter_of_not_deletes s.jobs fun _ => rfl]
    exact hrefused _ rfl
  | submitFile path =>
    rw [filter_of_not_deletes s.jobs fun _ => rfl]
    exact hrefused _ rfl
  | deleteJob id =>
    refine ⟨?_, ?_⟩
    · rw [invoke, onJobs_jobs, JobQueue.purge_snd hq]
      rfl
    · intro other
      simp [invoke]
  | _ =>
    rw [filter_of_not_deletes s.jobs fun _ => rfl]
    simp [invoke]

theorem isNumbered_invoke (hq : s.jobs.IsNumbered) (time : String) (call : Call) :
    (invoke time call s).2.jobs.IsNumbered := by
  cases hjob : call.job? time (s.jobs.lastNumber + 1) s with
  | some job =>
    rw [invoke_of_job? hjob]
    exact hq.append (Call.hasNumber_of_job? hjob)
  | none =>
    rw [(invoke_of_no_job hq hjob).1]
    exact hq.filter _

/-! ## A run -/

/-- The identifiers that a run answers with. -/
def issued (s : Machine) : List (String × Call) → List String
  | [] => []
  | (time, call) :: later =>
    let (answer, next) := invoke time call s
    match answer with
    | .ok (.jobId id) => id :: issued next later
    | _ => issued next later

theorem issued_cons (s : Machine) (time : String) (call : Call) (later : List (String × Call)) :
    s.issued ((time, call) :: later) =
      match (invoke time call s).1 with
      | .ok (.jobId id) => id :: (invoke time call s).2.issued later
      | _ => (invoke time call s).2.issued later := rfl

theorem submissions_cons (count : Nat) (s : Machine) (time : String) (call : Call)
    (later : List (String × Call)) :
    s.submissions count ((time, call) :: later) =
      match call.job? time (count + 1) s with
      | some job => ⟨count + 1, job, later⟩ :: (invoke time call s).2.submissions (count + 1) later
      | none => (invoke time call s).2.submissions count later := rfl

theorem isDeletedIn_cons (job : Job) (time : String) (call : Call)
    (later : List (String × Call)) :
    job.isDeletedIn ((time, call) :: later) = (call.deletes job || job.isDeletedIn later) := rfl

theorem not_deletes_of_job? {number : Nat} (h : call.job? time number s = some job) (other : Job) :
    call.deletes other = false := by
  cases call with
  | deleteJob id => cases h
  | _ => rfl

/-- The queue of a run: what was there and what the run has submitted, as far
as it is live. -/
theorem after_jobs (hq : s.jobs.IsNumbered) (history : List (String × Call)) :
    (s.after history).jobs =
      ⟨s.jobs.jobs.filter (fun job => !job.isDeletedIn history) ++
        ((s.submissions s.jobs.lastNumber history).filter Submission.isLive).map Submission.job,
        s.jobs.lastNumber + (s.submissions s.jobs.lastNumber history).length⟩ := by
  -- Along the run every queue is numbered, which the step for a deletion needs.
  induction history generalizing s with
  | nil => simp [submissions, Job.isDeletedIn]
  | cons step later ih =>
    obtain ⟨time, call⟩ := step
    rw [after_cons, ih (isNumbered_invoke hq time call), submissions_cons]
    cases hjob : call.job? time (s.jobs.lastNumber + 1) s with
    | some job =>
      -- From here on the new job is one of those that were there.
      have hkeeps := not_deletes_of_job? hjob
      simp only [invoke_of_job? hjob, isDeletedIn_cons, hkeeps, Bool.false_or, List.filter_append,
        List.filter_cons, List.filter_nil, Submission.isLive, List.length_cons]
      rw [JobQueue.mk.injEq]
      refine ⟨?_, by omega⟩
      by_cases hdeleted : job.isDeletedIn later = true
      · simp [hdeleted]
      · simp [hdeleted]
    | none =>
      obtain ⟨hjobs, _⟩ := invoke_of_no_job hq hjob
      simp only [hjobs, isDeletedIn_cons, List.filter_filter, Bool.not_or, Bool.and_comm]

theorem isNumbered_after (hq : s.jobs.IsNumbered) (history : List (String × Call)) :
    (s.after history).jobs.IsNumbered :=
  after_keeps (P := fun s => s.jobs.IsNumbered) (fun time call _ h => isNumbered_invoke h time call)
    hq history

/-- The numbers are given one after the other. -/
theorem submissions_number (count : Nat) (s : Machine) (history : List (String × Call)) :
    (s.submissions count history).map Submission.number =
      List.range' (count + 1) (s.submissions count history).length := by
  induction history generalizing count s with
  | nil => rfl
  | cons step later ih =>
    obtain ⟨time, call⟩ := step
    rw [submissions_cons]
    cases call.job? time (count + 1) s with
    | none => exact ih count _
    | some job =>
      rw [List.map_cons, List.length_cons, List.range'_succ, ih (count + 1)]

theorem nodup_numbers (count : Nat) (s : Machine) (history : List (String × Call)) :
    ((s.submissions count history).map Submission.number).Nodup := by
  rw [submissions_number]
  exact List.nodup_range' 1

/-- The job of a submission is made for the user of the machine. -/
theorem isOf_of_mem_submissions {count : Nat} {history : List (String × Call)}
    {a : Submission} (h : a ∈ s.submissions count history) : a.job.IsOf s.user a.number := by
  induction history generalizing count s with
  | nil => cases h
  | cons step later ih =>
    obtain ⟨time, call⟩ := step
    have huser := invoke_user time call s
    rw [submissions_cons] at h
    cases hjob : call.job? time (count + 1) s with
    | none =>
      rw [hjob] at h
      exact huser ▸ ih h
    | some job =>
      rw [hjob] at h
      rcases List.mem_cons.1 h with rfl | h
      · obtain ⟨jcl, _, hdescribed⟩ := Option.bind_eq_some_iff.1 hjob
        exact (Job.isOf_of_ofText? hdescribed).1
      · exact huser ▸ ih h

theorem hasNumber_of_mem_submissions {count : Nat} {history : List (String × Call)}
    {a : Submission} (h : a ∈ s.submissions count history) : a.job.HasNumber a.number :=
  (isOf_of_mem_submissions h).hasNumber

/-- The submissions of a run that goes on are those of its first part, which
now have more calls after them, and then those of the rest. -/
theorem submissions_append (count : Nat) (s : Machine) (before rest : List (String × Call)) :
    s.submissions count (before ++ rest) =
      (s.submissions count before).map (fun a => { a with later := a.later ++ rest }) ++
        (s.after before).submissions (count + (s.submissions count before).length) rest := by
  -- An accepted submission moves one from the length into the count.
  induction before generalizing count s with
  | nil => rfl
  | cons step later ih =>
    obtain ⟨time, call⟩ := step
    rw [List.cons_append, submissions_cons, submissions_cons, after_cons]
    cases call.job? time (count + 1) s with
    | none => exact ih count _
    | some job =>
      rw [ih, List.map_cons, List.length_cons, List.cons_append, Nat.add_assoc, Nat.add_comm 1]

/-- A run answers its submissions with their identifiers. -/
theorem issued_eq (hq : s.jobs.IsNumbered) (history : List (String × Call)) :
    s.issued history =
      (s.submissions s.jobs.lastNumber history).map fun a => a.job.jobid := by
  induction history generalizing s with
  | nil => rfl
  | cons step later ih =>
    obtain ⟨time, call⟩ := step
    have hnext := ih (isNumbered_invoke hq time call)
    rw [issued_cons, submissions_cons]
    cases hjob : call.job? time (s.jobs.lastNumber + 1) s with
    | some job =>
      rw [invoke_of_job? hjob] at hnext ⊢
      simp only [List.map_cons, hnext]
    | none =>
      obtain ⟨hjobs, hno⟩ := invoke_of_no_job hq hjob
      rw [hjobs] at hnext
      split
      · rename_i id hid
        exact absurd hid (hno id)
      · exact hnext

end Machine

end MvsGateway.Host
