import Mathlib.Data.List.Forall2
import MvsGateway.Proofs.JobQueue.Submission

/-!
# Jobs over whole runs

A submission that is accepted answers with an identifier that no other has,
before or after, deleted or not. Under it, and under the correlator, all
look-ups find the job of that submission until a deletion names it, and none
finds a job from then on.
-/

namespace MvsGateway.Host

/-- By its identifier in any letter case, or by its correlator, and with white
space around either. -/
def Job.IsNamedBy (job : Job) (id : String) : Prop :=
  Text.sameLetters job.jobid (Text.trim id) = true ∨ Text.trim id = job.correlator

theorem Job.isNamedBy_iff {job : Job} {id : String} :
    job.IsNamedBy id ↔ job.answersTo (Text.trim id) = true := by
  rw [IsNamedBy, answersTo, Bool.or_eq_true, beq_iff_eq, eq_comm (a := Text.trim id)]

theorem Job.isNamedBy_jobid {job : Job} {n : Nat} (h : job.HasNumber n) :
    job.IsNamedBy job.jobid := by
  rw [isNamedBy_iff, trim_jobid h]
  exact answersTo_jobid job

theorem Job.isNamedBy_correlator {job : Job} {n : Nat} (h : job.HasNumber n) :
    job.IsNamedBy job.correlator :=
  .inr (trim_correlator h)

/-- What the host reports is what the job has. -/
structure JobEntry.Shows (entry : JobEntry) (job : Job) : Prop where
  jobname : entry.jobname = some job.jobname
  jobid : entry.jobid = some job.jobid
  owner : entry.owner = some job.owner
  status : entry.status = some "OUTPUT"
  fullStatus : entry.fullStatus = some "OUTPUT"
  retcode : entry.retcode = some job.retcode
  correlator : entry.correlator = some job.correlator

theorem Job.entry_shows (job : Job) : job.entry.Shows job := ⟨rfl, rfl, rfl, rfl, rfl, rfl, rfl⟩

namespace JobQueue

/-! ## Look-ups -/

/-- Each look-up answers with what the job has. -/
structure Finds (q : JobQueue) (id : String) (job : Job) : Prop where
  status : ∃ entry, q.status id = .ok entry ∧ entry.Shows job
  jcl : q.jcl id = .ok job.jcl
  spoolFiles : q.spoolFiles id = .ok (job.spool.map job.spoolEntry)

/-- No look-up finds a job. -/
structure Misses (q : JobQueue) (id : String) : Prop where
  status : q.status id = .error (.notFound .job (Text.trim id))
  jcl : q.jcl id = .error (.notFound .job (Text.trim id))
  spoolFiles : q.spoolFiles id = .error (.notFound .job (Text.trim id))
  readSpool : ∀ key, q.readSpool id key = .error (.notFound .job (Text.trim id))

/-- Each look-up answers as it does in the other queue. -/
structure Agrees (q other : JobQueue) (id : String) : Prop where
  status : q.status id = other.status id
  jcl : q.jcl id = other.jcl id
  spoolFiles : q.spoolFiles id = other.spoolFiles id
  readSpool : ∀ key, q.readSpool id key = other.readSpool id key

variable {q other : JobQueue} {id : String} {job : Job}

theorem finds_of_find (h : q.find id = .ok job) : q.Finds id job where
  status := by
    refine ⟨job.entry, ?_, job.entry_shows⟩
    rw [JobQueue.status, h]
    rfl
  jcl := by rw [JobQueue.jcl, h]; rfl
  spoolFiles := by rw [JobQueue.spoolFiles, h]; rfl

theorem misses_of_find (h : q.find id = .error (.notFound .job (Text.trim id))) :
    q.Misses id where
  status := by rw [JobQueue.status, h]; rfl
  jcl := by rw [JobQueue.jcl, h]; rfl
  spoolFiles := by rw [JobQueue.spoolFiles, h]; rfl
  readSpool key := by rw [JobQueue.readSpool, h]; rfl

theorem agrees_of_find (h : q.find id = other.find id) : q.Agrees other id where
  status := by rw [JobQueue.status, JobQueue.status, h]
  jcl := by rw [JobQueue.jcl, JobQueue.jcl, h]
  spoolFiles := by rw [JobQueue.spoolFiles, JobQueue.spoolFiles, h]
  readSpool key := by rw [JobQueue.readSpool, JobQueue.readSpool, h]

/-- The keys that are listed are those that can be read. -/
theorem readSpool_succeeds_iff (q : JobQueue) (id : String) (key : Nat) :
    (∃ text, q.readSpool id key = .ok text) ↔
      ∃ entries, q.spoolFiles id = .ok entries ∧ ∃ e ∈ entries, e.key = some key := by
  unfold readSpool spoolFiles
  cases q.find id with
  | error e => simp [bind, Except.bind]
  | ok job =>
    simp only [bind, Except.bind]
    cases hfile : job.spool.find? (·.key == key) with
    | some file =>
      have hmem := List.mem_of_find?_eq_some hfile
      have hkey : file.key = key := by simpa using List.find?_some hfile
      constructor
      · intro _
        refine ⟨_, rfl, job.spoolEntry file, List.mem_map_of_mem hmem, ?_⟩
        rw [Job.spoolEntry, hkey]
      · intro _
        exact ⟨file.records, rfl⟩
    | none =>
      rw [List.find?_eq_none] at hfile
      constructor
      · rintro ⟨text, h⟩
        cases h
      · rintro ⟨entries, h, e, he, hkey⟩
        cases h
        obtain ⟨file, hmem, rfl⟩ := List.mem_map.1 he
        have hsame : file.key = key := Option.some.inj hkey
        exact absurd (by simp [hsame]) (hfile file hmem)

/-- Every job passes the filter that is an asterisk alone. -/
theorem listByOwner_all (q : JobQueue) :
    List.Forall₂ JobEntry.Shows (q.listByOwner "*") q.jobs := by
  have hall : q.jobs.filter (ownedBy (Text.upper (Text.trim "*"))) = q.jobs := by
    rw [List.filter_eq_self]
    intro job _
    rfl
  rw [listByOwner, hall, List.forall₂_map_left_iff, List.forall₂_same]
  exact fun job _ => job.entry_shows

/-! ## Deletions -/

/-- The one job that the identifier names is taken out, and every identifier
that names another job finds what it found. -/
def Removes (q next : JobQueue) (id : String) : Prop :=
  ∃ job front back, q.jobs = front ++ job :: back ∧ job.IsNamedBy id ∧
    next = ⟨front ++ back, q.lastNumber⟩ ∧ (∀ name, job.IsNamedBy name → next.Misses name) ∧
    ∀ name, ¬job.IsNamedBy name → next.Agrees q name

/-- Of the jobs around a job, none answers to its names. -/
theorem IsNumbered.not_answersTo (hq : q.IsNumbered) {front back : List Job}
    (hjobs : q.jobs = front ++ job :: back) (hid : job.answersTo id = true) :
    ∀ other ∈ front ++ back, other.answersTo id = false := by
  intro other hother
  have hin : other ∈ q.jobs := by
    rw [hjobs, List.mem_append, List.mem_cons]
    rcases List.mem_append.1 hother with hfront | hback
    · exact .inl hfront
    · exact .inr (.inr hback)
  have hjob : job ∈ q.jobs := by
    rw [hjobs]
    exact List.mem_append_right _ List.mem_cons_self
  have hdistinct := hq.distinct
  rw [hjobs, List.map_append, List.map_cons, List.nodup_middle, ← List.map_append,
    List.nodup_cons] at hdistinct
  rw [Bool.eq_false_iff]
  intro hanswers
  have hsame := (hq.answersTo_iff hjob hid hin).1 hanswers
  exact hdistinct.1 (hsame ▸ List.mem_map_of_mem hother)

theorem find_of_purge {next : JobQueue} (h : q.purge id = (.ok (), next)) :
    ∃ job, q.find id = .ok job := by
  unfold purge at h
  cases hfind : q.find id with
  | error e =>
    rw [hfind] at h
    cases h
  | ok job => exact ⟨job, rfl⟩

theorem removes_of_purge {next : JobQueue} (hq : q.IsNumbered)
    (h : q.purge id = (.ok (), next)) : q.Removes next id := by
  obtain ⟨job, hfind⟩ := find_of_purge h
  obtain ⟨hjob, hid⟩ := (find_eq_ok_iff hq).1 hfind
  obtain ⟨front, back, hjobs⟩ := List.append_of_mem hjob
  have hrest : q.jobs.filter (fun other => !other.answersTo (Text.trim id)) = front ++ back := by
    have hall : (front ++ back).filter (fun other => !other.answersTo (Text.trim id)) =
        front ++ back := by
      rw [List.filter_eq_self]
      intro other hother
      rw [hq.not_answersTo hjobs hid other hother]
      rfl
    rw [hjobs, List.filter_append, List.filter_cons_of_neg (by simp [hid]), ← List.filter_append,
      hall]
  have hnext : next = ⟨front ++ back, q.lastNumber⟩ := by
    rw [← hrest, ← purge_snd hq id, h]
  subst hnext
  refine ⟨job, front, back, hjobs, Job.isNamedBy_iff.2 hid, rfl, ?_, ?_⟩
  · intro name hname
    apply misses_of_find
    exact find_eq_error (hq.not_answersTo hjobs (Job.isNamedBy_iff.1 hname))
  · intro name hname
    have hnot : job.answersTo (Text.trim name) = false := by
      rw [Bool.eq_false_iff]
      exact fun hanswers => hname (Job.isNamedBy_iff.2 hanswers)
    apply agrees_of_find
    simp only [find, hjobs, List.find?_append, List.find?_cons, hnot]

end JobQueue

/-! ## A run -/

namespace Machine

variable {s : Machine}

/-- A call that is refused leaves the queue as it is. -/
theorem jobs_of_error (hq : s.jobs.IsNumbered) {time : String} {call : Call} {e : Error}
    (h : (invoke time call s).1 = .error e) : (invoke time call s).2.jobs = s.jobs := by
  cases hjob : call.job? time (s.jobs.lastNumber + 1) s with
  | some job =>
    rw [invoke_of_job? hjob] at h
    cases h
  | none =>
    -- Of the calls that submit nothing only a deletion writes to the queue.
    have hjobs := (invoke_of_no_job hq hjob).1
    cases call with
    | deleteJob id =>
      rw [invoke, onJobs_fst, answer_eq_error_iff] at h
      rw [invoke, onJobs_jobs]
      unfold JobQueue.purge at h ⊢
      cases hfind : s.jobs.find id with
      | error e => rfl
      | ok job =>
        rw [hfind] at h
        cases h
    | _ => exact hjobs.trans (filter_of_not_deletes s.jobs fun _ => rfl)

/-- What a machine knows of the submissions of the run that led to it, all of
which are the user's. -/
structure KnowsJobs (s : Machine) (user : String) (submissions : List Submission) : Prop where
  made : ∀ a ∈ submissions, a.job.IsOf user a.number
  ids_distinct : (submissions.map fun a => a.job.jobid).Nodup
  correlators_distinct : (submissions.map fun a => a.job.correlator).Nodup
  kinds_apart : ∀ a ∈ submissions, ∀ b ∈ submissions,
    Text.sameLetters a.job.jobid b.job.correlator = false
  by_correlator : ∀ a ∈ submissions, a.job.IsNamedBy a.job.correlator
  found : ∀ a ∈ submissions, a.isLive = true → ∀ id, a.job.IsNamedBy id → s.jobs.Finds id a.job
  gone : ∀ a ∈ submissions, a.isLive = false → ∀ id, a.job.IsNamedBy id → s.jobs.Misses id
  spool : ∀ id key, (∃ text, s.jobs.readSpool id key = .ok text) ↔
    ∃ entries, s.jobs.spoolFiles id = .ok entries ∧ ∃ e ∈ entries, e.key = some key
  listed : List.Forall₂ JobEntry.Shows (s.jobs.listByOwner "*")
    ((submissions.filter Submission.isLive).map Submission.job)
  jobs : s.jobs.jobs = (submissions.filter Submission.isLive).map Submission.job
  lastNumber : s.jobs.lastNumber = submissions.length
  deleted : ∀ time id output next, invoke time (.deleteJob id) s = (.ok output, next) →
    s.jobs.Removes next.jobs id
  refused : ∀ time call e, (invoke time call s).1 = .error e →
    (invoke time call s).2.jobs = s.jobs

/-- Two submissions of a run whose jobs answer to one text are the same. -/
theorem eq_of_answersTo {count : Nat} {history : List (String × Call)} {a b : Submission}
    (ha : a ∈ s.submissions count history) (hb : b ∈ s.submissions count history) {id : String}
    (hida : a.job.answersTo id = true) (hidb : b.job.answersTo id = true) : a = b := by
  refine List.inj_on_of_nodup_map (nodup_numbers count s history) ha hb ?_
  exact Job.number_of_answersTo (hasNumber_of_mem_submissions ha) (hasNumber_of_mem_submissions hb)
    hida hidb

/-- Texts that the jobs answer to are different for different submissions. -/
theorem nodup_of_answersTo {f : Job → String} (hf : ∀ job : Job, job.answersTo (f job) = true)
    (count : Nat) (s : Machine) (history : List (String × Call)) :
    ((s.submissions count history).map fun a => f a.job).Nodup := by
  have hsubmissions := (nodup_numbers count s history).of_map
  refine List.Nodup.map_on ?_ hsubmissions
  intro a ha b hb hsame
  exact eq_of_answersTo ha hb (hf a.job) (hsame ▸ hf b.job)

theorem knowsJobs (user : String) (history : List (String × Call)) :
    ((initial user).after history).KnowsJobs user ((initial user).submissions 0 history) := by
  have hstart : (initial user).jobs.IsNumbered := JobQueue.isNumbered_empty
  have hq := isNumbered_after hstart history
  have hqueue := after_jobs hstart history
  generalize (initial user).after history = s at hq hqueue ⊢
  have hjobs : s.jobs.jobs = (((initial user).submissions 0 history).filter
      Submission.isLive).map Submission.job := congrArg JobQueue.jobs hqueue
  have hlast : s.jobs.lastNumber = ((initial user).submissions 0 history).length :=
    (congrArg JobQueue.lastNumber hqueue).trans (Nat.zero_add _)
  constructor
  case made =>
    intro a ha
    have hof := isOf_of_mem_submissions ha
    exact { hof with owner := hof.owner.trans (Text.upper_upper user) }
  case ids_distinct => exact nodup_of_answersTo Job.answersTo_jobid 0 (initial user) history
  case correlators_distinct =>
    exact nodup_of_answersTo Job.answersTo_correlator 0 (initial user) history
  case kinds_apart =>
    intro a ha b hb
    obtain ⟨_, jcl, name, _, hcorrelator⟩ := hasNumber_of_mem_submissions hb
    rw [(hasNumber_of_mem_submissions ha).jobid, hcorrelator]
    exact Job.not_sameLetters_correlatorOf a.number b.number name
  case by_correlator =>
    intro a ha
    exact Job.isNamedBy_correlator (hasNumber_of_mem_submissions ha)
  case found =>
    intro a ha hlive id hid
    apply JobQueue.finds_of_find
    rw [JobQueue.find_eq_ok_iff hq, hjobs]
    exact ⟨List.mem_map_of_mem (List.mem_filter.2 ⟨ha, hlive⟩), Job.isNamedBy_iff.1 hid⟩
  case gone =>
    -- A job of the queue that answers to the name would be that of `a`, which is not live.
    intro a ha hdead id hid
    apply JobQueue.misses_of_find
    apply JobQueue.find_eq_error
    intro job hjob
    rw [hjobs] at hjob
    obtain ⟨b, hb, rfl⟩ := List.mem_map.1 hjob
    obtain ⟨hmem, hlive⟩ := List.mem_filter.1 hb
    rw [Bool.eq_false_iff]
    intro hanswers
    rw [eq_of_answersTo hmem ha hanswers (Job.isNamedBy_iff.1 hid), hdead] at hlive
    cases hlive
  case spool => exact s.jobs.readSpool_succeeds_iff
  case listed =>
    rw [← hjobs]
    exact s.jobs.listByOwner_all
  case jobs => exact hjobs
  case lastNumber => exact hlast
  case deleted =>
    intro time id output next h
    rw [invoke, onJobs] at h
    obtain ⟨hanswer, rfl⟩ := Prod.mk.inj h
    obtain ⟨_, hpurge, _⟩ := answer_eq_ok_iff.1 hanswer
    exact JobQueue.removes_of_purge hq (Prod.ext hpurge rfl)
  case refused =>
    intro time call e h
    exact jobs_of_error hq h

/-- The call at each place of a run that answers with an identifier is a
submission of the run: that of the job with the identifier, of the text that
the call submits. -/
theorem submission_of_answer (user : String) {before later : List (String × Call)}
    {time : String} {call : Call} {id : String}
    (h : (invoke time call ((initial user).after before)).1 = .ok (.jobId id)) :
    ∃ jcl, call.submits? ((initial user).after before) = some jcl ∧
      ∃ a ∈ (initial user).submissions 0 (before ++ (time, call) :: later),
        a.later = later ∧ a.job.jobid = id ∧ a.job.jcl = jcl := by
  have hstart : (initial user).jobs.IsNumbered := JobQueue.isNumbered_empty
  have hq := isNumbered_after hstart before
  have hlast := (knowsJobs user before).lastNumber
  -- The call is the first one of the second part of the run.
  rw [submissions_append]
  generalize (initial user).after before = s at hq hlast h ⊢
  cases hjob : call.job? time (s.jobs.lastNumber + 1) s with
  | none => exact absurd h ((invoke_of_no_job hq hjob).2 id)
  | some job =>
    rw [invoke_of_job? hjob] at h
    cases h
    obtain ⟨jcl, hsubmits, hdescribed⟩ := Option.bind_eq_some_iff.1 hjob
    refine ⟨jcl, hsubmits, ⟨s.jobs.lastNumber + 1, job, later⟩, ?_, rfl, rfl,
      (Job.isOf_of_ofText? hdescribed).2⟩
    refine List.mem_append_right _ ?_
    rw [Nat.zero_add, ← hlast, submissions_cons, hjob]
    exact List.mem_cons_self

/-- Over any run of calls, identifiers are given once and for all, and name
their jobs as long as these are there. -/
theorem jobs_are_identified (user : String) (history : List (String × Call)) :
    ((initial user).issued history).Nodup ∧
      (initial user).issued history =
        ((initial user).submissions 0 history).map (fun a => a.job.jobid) ∧
      ((initial user).after history).KnowsJobs user ((initial user).submissions 0 history) ∧
      ∀ before time call later id, history = before ++ (time, call) :: later →
        (invoke time call ((initial user).after before)).1 = .ok (.jobId id) →
        ∃ jcl, call.submits? ((initial user).after before) = some jcl ∧
          ∃ a ∈ (initial user).submissions 0 history,
            a.later = later ∧ a.job.jobid = id ∧ a.job.jcl = jcl := by
  have hknows := knowsJobs user history
  have hissued : (initial user).issued history =
      ((initial user).submissions 0 history).map (fun a => a.job.jobid) :=
    issued_eq JobQueue.isNumbered_empty history
  refine ⟨?_, hissued, hknows, ?_⟩
  · rw [hissued]
    exact hknows.ids_distinct
  · rintro before time call later id rfl hanswer
    exact submission_of_answer user hanswer

/-- Two jobs, the first of which is deleted under its identifier in small
letters. -/
def twoSubmissions : List (String × Call) :=
  [("", .submit "//A JOB"), ("", .submit "//B JOB"), ("", .deleteJob "job00001")]

theorem two_submissions_are_identified :
    (invoke "" (.submit "//A JOB") (initial "U")).1 = .ok (.jobId "JOB00001") ∧
      (∃ a ∈ (initial "U").submissions 0 twoSubmissions, a.job.jobid = "JOB00001" ∧
        a.job.jcl = "//A JOB" ∧ ((initial "U").after twoSubmissions).jobs.Misses "job00001") ∧
      ∃ entry, ((initial "U").after twoSubmissions).jobs.status "JOB00002" = .ok entry ∧
        entry.jobid = some "JOB00002" ∧ entry.jobname = some "B" ∧ entry.owner = some "U" := by
  obtain ⟨_, _, hknows, hsubmission⟩ := jobs_are_identified "U" twoSubmissions
  obtain ⟨jcl, hjcl, a, ha, hlater, hid, htext⟩ :=
    hsubmission [] "" (.submit "//A JOB") _ "JOB00001" rfl rfl
  cases hjcl
  have hnamed : a.job.IsNamedBy "job00001" := by
    refine .inl ?_
    rw [hid]
    rfl
  have hdead : a.isLive = false := by
    rw [Submission.isLive, hlater]
    simp only [Job.isDeletedIn, List.any_cons, Call.deletes, Job.isNamedBy_iff.1 hnamed]
    rfl
  refine ⟨rfl, ⟨a, ha, hid, htext, hknows.gone a ha hdead "job00001" hnamed⟩, ?_⟩
  obtain ⟨jcl, hjcl, b, hb, hlater, hidb, htext⟩ :=
    hsubmission [("", .submit "//A JOB")] "" (.submit "//B JOB") _ "JOB00002" rfl rfl
  cases hjcl
  have hother : b.job.answersTo (Text.trim "job00001") = false := by
    rw [Bool.eq_false_iff]
    intro hanswers
    have hsame : b = a := eq_of_answersTo hb ha hanswers (Job.isNamedBy_iff.1 hnamed)
    rw [hsame, hid] at hidb
    exact absurd hidb (by decide)
  have hlive : b.isLive = true := by
    rw [Submission.isLive, hlater]
    simp only [Job.isDeletedIn, List.any_cons, Call.deletes, hother]
    rfl
  have hnamedb : b.job.IsNamedBy "JOB00002" := by
    refine .inl ?_
    rw [hidb]
    rfl
  obtain ⟨entry, hstatus, hshows⟩ := (hknows.found b hb hlive "JOB00002" hnamedb).status
  have hmade := hknows.made b hb
  have hname : some "B" = some b.job.jobname := by
    rw [← hmade.jobname, htext]
    rfl
  exact ⟨entry, hstatus, hshows.jobid.trans (congrArg some hidb), hshows.jobname.trans hname.symm,
    hshows.owner.trans (congrArg some hmade.owner)⟩

end Machine

end MvsGateway.Host
