import MvsGateway.Proofs.Envelope
import MvsGateway.Proofs.JobQueue.Identity
import MvsGateway.Proofs.Request.JobPath

/-!
# What the address of a job denotes

The host knows a job by its identifier or its correlator. An address that has
a name in front of an identifier hands over the identifier alone, so that it
denotes the job with this identifier under every name. What a name can do is
to add segments of its own, and then the path is refused. A job whose own name
has a slash in it is such a case: jobs get their names from the submitted text
as they stand there.
-/

namespace MvsGateway

open Host (Job Machine)

/-! ## Replies -/

namespace Reply

/-- The reply reports success and what the host knows of the job. -/
structure ShowsJob (reply : Reply) (job : Job) : Prop where
  status : reply.status = 200
  jobname : reply.body.get? "jobname" = some (.string job.jobname)
  jobid : reply.body.get? "jobid" = some (.string job.jobid)
  owner : reply.body.get? "owner" = some (.string job.owner)
  queue : reply.body.get? "status" = some (.string Job.status)
  retcode : reply.body.get? "retcode" = some (.string job.retcode)
  correlator : reply.body.get? "job-correlator" = some (.string job.correlator)

theorem showsJob_entry (r : Request) (job : Job) :
    (ok (jobItemFields job.entry ++ gapField r)).ShowsJob job := by
  have hfield (name : String) (hname : name ≠ "warnings") :
      (ok (jobItemFields job.entry ++ gapField r)).body.get? name =
        (Json.Fields.ofList (jobItemFields job.entry)).get? name := by
    rw [body_ok, Json.Fields.get?_ofList_append, gapField, get?_warningField hname, Option.none_or]
  constructor
  · rfl
  all_goals
    rw [hfield _ (by decide)]
    rfl

/-- The reply reports success and collects the spool files of the job. -/
structure ListsSpool (reply : Reply) (r : Request) (job : Job) : Prop where
  status : reply.status = 200
  files : reply.Collects r (job.spool.map fun file => spoolFileItem (job.spoolEntry file))
    (some "no spool files found")

/-- Who owns a job is told of the job itself, and not of its spool files. -/
theorem get?_owner_jobFields (ref : JobRef) :
    (Json.Fields.ofList (jobFields ref)).get? "owner" = none := by
  apply Json.Fields.get?_ofList_eq_none
  unfold jobFields
  split
  all_goals simp

theorem get?_owner_spoolFiles (r : Request) (all : List Json) (notice : Option String)
    (ref : JobRef) : (ok (collection r all notice ++ jobFields ref)).body.get? "owner" = none := by
  rw [body_ok, Json.Fields.get?_ofList_append, get?_owner_jobFields, collection_eq,
    Json.Fields.get?_ofList_append, get?_warningField (by decide)]
  rfl

theorem get?_owner_of_spoolFile {second : Int} {options : Options} {ref : JobRef} {key : FileKey}
    {output : Host.Output} {reply : Reply}
    (h : build second { verb := .read, target := .spoolFile ref key, options } output = .ok reply) :
    reply.body.get? "owner" = none := by
  rw [build_eq_ok_iff] at h
  cases output with
  | text content =>
    cases h
    show (ok (jobFields ref ++ spoolFileFields key ++ contentFields options content)).body.get? _ = _
    rw [body_ok, Json.Fields.get?_ofList_append, Json.Fields.get?_ofList_append,
      get?_contentFields (by decide) (by decide), get?_owner_jobFields, Option.none_or,
      Option.or_none]
    cases key <;> rfl
  | _ => cases h

end Reply

/-! ## Requests -/

namespace Endpoint

variable {raw : String} {ref : JobRef} {cause : PathError}

theorem getJobRequest_of_job (h : Target.ofJobPath raw = .ok (.job ref)) (q : Query) :
    ∃ r, getJobRequest raw q = .ok r ∧ r.verb = .read ∧ r.target = .job ref := by
  rw [getJobRequest, readPath, h]
  exact ⟨_, rfl, Request.gapIf_verb .., Request.gapIf_target ..⟩

theorem getJobRequest_of_files (h : Target.ofJobPath raw = .ok (.spoolFiles ref)) (q : Query) :
    getJobRequest raw q =
      .ok { verb := .list, target := .spoolFiles ref, options := q.options } := by
  rw [getJobRequest, readPath, h]
  rfl

theorem getJobRequest_of_file {key : FileKey}
    (h : Target.ofJobPath raw = .ok (.spoolFile ref key)) (q : Query) :
    getJobRequest raw q =
      .ok { verb := .read, target := .spoolFile ref key, options := q.options } := by
  rw [getJobRequest, readPath, h]
  rfl

theorem getJobRequest_of_error (h : Target.ofJobPath raw = .error cause) (q : Query) :
    getJobRequest raw q = .error (.path cause) := by
  rw [getJobRequest, readPath, h]
  rfl

theorem deleteJobRequest_of_job (h : Target.ofJobPath raw = .ok (.job ref)) :
    deleteJobRequest raw = .ok { verb := .delete, target := .job ref } := by
  rw [deleteJobRequest, readPath, h]
  rfl

theorem deleteJobRequest_of_error (h : Target.ofJobPath raw = .error cause) :
    deleteJobRequest raw = .error (.path cause) := by
  rw [deleteJobRequest, readPath, h]
  rfl

end Endpoint

/-! ## The queue -/

namespace Host

/-- The path is one of a job, and what it hands over names this one. -/
def Job.IsAddressedBy (job : Job) (raw : String) : Prop :=
  ∃ ref, Target.ofJobPath raw = .ok (.job ref) ∧ job.IsNamedBy ref.hostId

namespace JobQueue

variable {q : JobQueue} {job : Job} {id : String}

theorem find_of_isNamedBy (hq : q.IsNumbered) (hjob : job ∈ q.jobs) (hid : job.IsNamedBy id) :
    q.find id = .ok job :=
  (find_eq_ok_iff hq).2 ⟨hjob, Job.isNamedBy_iff.1 hid⟩

theorem purge_of_isNamedBy (hq : q.IsNumbered) (hjob : job ∈ q.jobs) (hid : job.IsNamedBy id) :
    q.purge id = (.ok (), ⟨q.jobs.erase job, q.lastNumber⟩) := by
  have hjobs : q.jobs.Nodup := hq.distinct.of_map
  have hrest : q.jobs.filter (·.jobid != job.jobid) = q.jobs.erase job := by
    rw [hjobs.erase_eq_filter]
    apply List.filter_congr
    intro other hother
    rw [Bool.eq_iff_iff, bne_iff_ne, bne_iff_ne]
    exact not_congr ⟨List.inj_on_of_nodup_map hq.distinct hother hjob, congrArg Job.jobid⟩
  rw [purge, find_of_isNamedBy hq hjob hid]
  simp only [hrest]

/-- Identifiers and correlators of jobs with their own names. -/
def IsDescribed (q : JobQueue) : Prop :=
  ∀ job ∈ q.jobs, ∃ n, job.jobid = Job.idOf n ∧ job.correlator = Job.correlatorOf n job.jobname

end JobQueue

theorem Job.isJobSegment_of_head {s : String} (hwhole : '/' ∉ s.toList)
    (hlead : s.toList.head? = some 'J') : Target.IsJobSegment s where
  whole := hwhole
  counts := by
    rintro rfl
    cases hlead
  noFiles := by
    rintro rfl
    exact absurd hlead (by decide)
  noRecords := by
    rintro rfl
    exact absurd hlead (by decide)

theorem Job.slash_not_mem_digits (width n : Nat) : '/' ∉ digits width n := by
  intro h
  have hdigit := Chars.isDigit_of_mem_padded h
  exact absurd hdigit (by decide)

theorem Job.isJobSegment_idOf (n : Nat) : Target.IsJobSegment (idOf n) := by
  apply isJobSegment_of_head
  · rw [toList_idOf]
    simp [slash_not_mem_digits]
  · rw [toList_idOf]
    rfl

theorem Job.isJobSegment_correlatorOf (n : Nat) {name : String} (h : '/' ∉ name.toList) :
    Target.IsJobSegment (correlatorOf n name) := by
  apply isJobSegment_of_head
  · rw [toList_correlatorOf]
    simp [slash_not_mem_digits, Chars.padRight, h]
  · rw [toList_correlatorOf]
    rfl

namespace Machine

theorem isDescribed_after (user : String) (history : List (String × Call)) :
    ((initial user).after history).jobs.IsDescribed := by
  intro job hjob
  rw [(knowsJobs user history).jobs] at hjob
  obtain ⟨a, ha, rfl⟩ := List.mem_map.1 hjob
  have hof := (knowsJobs user history).made a (List.mem_filter.1 ha).1
  exact ⟨a.number, hof.jobid, hof.correlator⟩

/-! ## Answers to a path -/

/-- The answer to a GET of the path of a job, and the machine after it. -/
def getJob (time : String) (second : Int) (raw : String) (q : Query) (s : Machine) :
    Except RequestError Reply × Machine :=
  MvsGateway.run (backend time) second (Endpoint.getJob.accept raw q []) s

/-- The answer to a DELETE of the path of a job, and the machine after it. -/
def deleteJob (time : String) (second : Int) (raw : String) (q : Query) (s : Machine) :
    Except RequestError Reply × Machine :=
  MvsGateway.run (backend time) second (Endpoint.deleteJob.accept raw q []) s

variable {s : Machine} {job : Job} {raw : String} {ref : JobRef}

theorem getJob_eq (time : String) (second : Int) (raw : String) (q : Query) (s : Machine) :
    s.getJob time second raw q =
      MvsGateway.run (backend time) second (Endpoint.getJobRequest raw q) s := rfl

theorem deleteJob_eq (time : String) (second : Int) (raw : String) (q : Query) (s : Machine) :
    s.deleteJob time second raw q =
      MvsGateway.run (backend time) second (Endpoint.deleteJobRequest raw) s := rfl

theorem plan_of_readJob {r : Request} (hverb : r.verb = .read) (htarget : r.target = .job ref) :
    r.plan = .ok (.jobStatus ref.hostId) := by
  rw [Request.plan, hverb]
  show r.planRead = _
  rw [Request.planRead, htarget]

theorem plan_of_readSpool (ref : JobRef) (key : FileKey) (options : Options) :
    ∃ call, Request.plan { verb := .read, target := .spoolFile ref key, options } = .ok call := by
  cases key <;> exact ⟨_, rfl⟩

theorem getJob_of_job (hpath : Target.ofJobPath raw = .ok (.job ref))
    (hfind : s.jobs.find ref.hostId = .ok job) (time : String) (second : Int) (q : Query) :
    ∃ r, s.getJob time second raw q =
      (.ok (.ok (Reply.jobItemFields job.entry ++ Reply.gapField r)), s) := by
  obtain ⟨r, haccept, hverb, htarget⟩ := Endpoint.getJobRequest_of_job hpath q
  have hplan := plan_of_readJob hverb htarget
  have hinvoke : (backend time).invoke (.jobStatus ref.hostId) s = (.ok (.job job.entry), s) := by
    rw [backend_invoke, invoke, JobQueue.status, hfind]
    rfl
  refine ⟨r, ?_⟩
  rw [getJob_eq, haccept]
  refine Request.reply_of_invoke hplan hinvoke ?_
  rw [Reply.build_eq_ok_iff, Reply.of?, hverb]
  show Reply.read? second r _ = _
  unfold Reply.read?
  rw [htarget]

theorem getJob_of_files (hpath : Target.ofJobPath raw = .ok (.spoolFiles ref))
    (hfind : s.jobs.find ref.hostId = .ok job) (time : String) (second : Int) (q : Query) :
    s.getJob time second raw q =
      (.ok (.ok (Reply.collection { verb := .list, target := .spoolFiles ref, options := q.options }
          (job.spool.map fun file => Reply.spoolFileItem (job.spoolEntry file))
          (some "no spool files found") ++ Reply.jobFields ref)), s) := by
  have hinvoke : (backend time).invoke (.listSpoolFiles ref.hostId) s =
      (.ok (.spoolFiles (job.spool.map job.spoolEntry)), s) := by
    rw [backend_invoke, invoke, JobQueue.spoolFiles, hfind]
    rfl
  rw [getJob_eq, Endpoint.getJobRequest_of_files hpath]
  refine Request.reply_of_invoke rfl hinvoke ?_
  have hitems : (job.spool.map job.spoolEntry).map Reply.spoolFileItem =
      job.spool.map fun file => Reply.spoolFileItem (job.spoolEntry file) := List.map_map
  rw [Reply.build_eq_ok_iff, ← hitems]
  rfl

theorem deleteJob_of_job (hpath : Target.ofJobPath raw = .ok (.job ref)) (time : String)
    (second : Int) (q : Query) :
    (s.deleteJob time second raw q).2.jobs = (s.jobs.purge ref.hostId).2 := by
  rw [deleteJob_eq, Endpoint.deleteJobRequest_of_job hpath]
  have hplan : ({ verb := .delete, target := .job ref } : Request).plan =
      .ok (.deleteJob ref.hostId) := rfl
  show (Request.reply (backend time) second _ s).2.jobs = _
  rw [Request.reply_snd _ second s hplan]
  rfl

theorem getJob_of_error {cause : PathError} (hpath : Target.ofJobPath raw = .error cause)
    (time : String) (second : Int) (q : Query) :
    s.getJob time second raw q = (.error (.path cause), s) := by
  rw [getJob_eq, Endpoint.getJobRequest_of_error hpath]
  rfl

theorem deleteJob_of_error {cause : PathError} (hpath : Target.ofJobPath raw = .error cause)
    (time : String) (second : Int) (q : Query) :
    s.deleteJob time second raw q = (.error (.path cause), s) := by
  rw [deleteJob_eq, Endpoint.deleteJobRequest_of_error hpath]
  rfl

/-- No path but one of the job itself shows it. -/
theorem isAddressedBy_of_showsJob (hq : s.jobs.IsNumbered) (hjob : job ∈ s.jobs.jobs)
    {time : String} {second : Int} {q : Query} {reply : Reply}
    (h : (s.getJob time second raw q).1 = .ok reply) (hshows : reply.ShowsJob job) :
    job.IsAddressedBy raw := by
  have hpair : MvsGateway.run (backend time) second (Endpoint.getJobRequest raw q) s =
      (.ok reply, (s.getJob time second raw q).2) := by
    rw [← h]
    rfl
  obtain ⟨r, haccept, hreply⟩ := run_eq_ok hpair
  have hpath : Target.ofJobPath raw = .ok r.target := (Endpoint.getJobRequest_eq_ok haccept).1
  have hends := Target.isJob_of_path hpath
  have howner := hshows.owner
  cases htarget : r.target with
  | job ref =>
    rw [htarget] at hpath
    obtain ⟨_, hread, hverb, _⟩ := Endpoint.getJobRequest_of_job hpath q
    rw [haccept] at hread
    cases hread
    have hplan := plan_of_readJob hverb htarget
    obtain ⟨output, hinvoke, _⟩ := Request.reply_eq_ok hplan hreply
    obtain ⟨entry, hstatus, _⟩ := answer_eq_ok_iff.1 (congrArg Prod.fst hinvoke)
    obtain ⟨other, hfind, _⟩ := eq_ok_of_bind hstatus
    -- The job that is found reports an identifier of its own.
    obtain ⟨r, hanswer⟩ := getJob_of_job hpath hfind time second q
    rw [hanswer] at h
    cases h
    have hid := (Reply.showsJob_entry r other).jobid.symm.trans hshows.jobid
    obtain ⟨hother, hnamed⟩ := (JobQueue.find_eq_ok_iff hq).1 hfind
    rw [List.inj_on_of_nodup_map hq.distinct hother hjob
      (Json.string.inj (Option.some.inj hid))] at hnamed
    exact ⟨ref, hpath, Job.isNamedBy_iff.2 hnamed⟩
  | spoolFiles ref =>
    rw [htarget] at hpath
    rw [Endpoint.getJobRequest_of_files hpath] at haccept
    cases haccept
    obtain ⟨output, hinvoke, hbuild⟩ := Request.reply_eq_ok rfl hreply
    obtain ⟨entries, _, rfl⟩ := answer_eq_ok_iff.1 (congrArg Prod.fst hinvoke)
    cases hbuild
    rw [Reply.get?_owner_spoolFiles] at howner
    cases howner
  | spoolFile ref key =>
    rw [htarget] at hpath
    rw [Endpoint.getJobRequest_of_file hpath] at haccept
    cases haccept
    obtain ⟨_, hplan⟩ := plan_of_readSpool ref key q.options
    obtain ⟨output, _, hbuild⟩ := Request.reply_eq_ok hplan hreply
    rw [Reply.get?_owner_of_spoolFile hbuild] at howner
    cases howner
  | _ =>
    rw [htarget] at hends
    cases hends

theorem showsJob_iff (hq : s.jobs.IsNumbered) (hjob : job ∈ s.jobs.jobs) (time : String)
    (second : Int) (q : Query) :
    (∃ reply, (s.getJob time second raw q).1 = .ok reply ∧ reply.ShowsJob job) ↔
      job.IsAddressedBy raw := by
  constructor
  · rintro ⟨reply, hreply, hshows⟩
    exact isAddressedBy_of_showsJob hq hjob hreply hshows
  · rintro ⟨ref, hpath, hnamed⟩
    have hfind := JobQueue.find_of_isNamedBy hq hjob hnamed
    obtain ⟨r, hanswer⟩ := getJob_of_job hpath hfind time second q
    rw [hanswer]
    exact ⟨_, rfl, Reply.showsJob_entry r job⟩

theorem deletesJob_iff (hq : s.jobs.IsNumbered) (hjob : job ∈ s.jobs.jobs) (time : String)
    (second : Int) (q : Query) :
    job ∉ (s.deleteJob time second raw q).2.jobs.jobs ↔ job.IsAddressedBy raw := by
  constructor
  · intro hgone
    rcases hpath : Target.ofJobPath raw with cause | target
    · rw [deleteJob_of_error hpath] at hgone
      exact absurd hjob hgone
    · cases target with
      | job ref =>
        refine ⟨ref, hpath, Classical.byContradiction fun hnamed => hgone ?_⟩
        rw [deleteJob_of_job hpath, JobQueue.purge_snd hq, List.mem_filter]
        rw [Job.isNamedBy_iff] at hnamed
        exact ⟨hjob, by simpa using hnamed⟩
      | _ =>
        have hrefused : Endpoint.deleteJobRequest raw = .error (.invalid .spoolDeletion) := by
          rw [Endpoint.deleteJobRequest, Endpoint.readPath, hpath]
          rfl
        have hsame : (s.deleteJob time second raw q).2 = s := by
          rw [deleteJob_eq, hrefused]
          rfl
        rw [hsame] at hgone
        exact absurd hjob hgone
  · rintro ⟨ref, hpath, hnamed⟩
    rw [deleteJob_of_job hpath, JobQueue.purge_of_isNamedBy hq hjob hnamed]
    exact hq.distinct.of_map.not_mem_erase

/-! ## Addresses of a job -/

/-- The path stands for the job: a GET of it shows the job, a GET of its files
lists those of the job, and a DELETE takes out the job and nothing else. -/
structure ServesJob (s : Machine) (raw : String) (job : Job) : Prop where
  shown : ∀ time second q, ∃ reply,
    s.getJob time second raw q = (.ok reply, s) ∧ reply.ShowsJob job
  listed : ∀ time second q, ∃ reply r,
    s.getJob time second (raw ++ "/files") q = (.ok reply, s) ∧ r.options = q.options ∧
      reply.ListsSpool r job
  deleted : ∀ time second q, ∃ reply, s.deleteJob time second raw q =
    (.ok reply, { s with jobs := ⟨s.jobs.jobs.erase job, s.jobs.lastNumber⟩ }) ∧ reply.status = 200

/-- The path stands for nothing: requests for it are refused as such, and
change nothing. -/
structure RefusesJobPath (s : Machine) (raw : String) : Prop where
  shown : ∀ time second q, ∃ cause, s.getJob time second raw q = (.error (.path cause), s)
  listed : ∀ time second q, ∃ cause,
    s.getJob time second (raw ++ "/files") q = (.error (.path cause), s)
  deleted : ∀ time second q, ∃ cause, s.deleteJob time second raw q = (.error (.path cause), s)

theorem servesJob (hq : s.jobs.IsNumbered) (hjob : job ∈ s.jobs.jobs)
    (hnamed : job.IsNamedBy ref.hostId) (hpath : Target.ofJobPath raw = .ok (.job ref))
    (hfiles : Target.ofJobPath (raw ++ "/files") = .ok (.spoolFiles ref)) :
    s.ServesJob raw job where
  shown time second q := by
    obtain ⟨r, hanswer⟩ := getJob_of_job hpath (JobQueue.find_of_isNamedBy hq hjob hnamed) time
      second q
    exact ⟨_, hanswer, Reply.showsJob_entry r job⟩
  listed time second q := by
    refine ⟨_, { verb := .list, target := .spoolFiles ref, options := q.options },
      getJob_of_files hfiles (JobQueue.find_of_isNamedBy hq hjob hnamed) time second q, rfl, ?_⟩
    exact ⟨rfl, Reply.collects_collection _ _ _ (Reply.isPlain_jobFields ref)⟩
  deleted time second q := by
    have hinvoke : (backend time).invoke (.deleteJob ref.hostId) s =
        (.ok .done, { s with jobs := ⟨s.jobs.jobs.erase job, s.jobs.lastNumber⟩ }) := by
      rw [backend_invoke, invoke, JobQueue.purge_of_isNamedBy hq hjob hnamed]
      rfl
    refine ⟨Reply.ok (Reply.jobFields ref ++ [Reply.success,
      Reply.message ("Job " ++ ref.hostId ++ " deleted successfully")]), ?_, rfl⟩
    rw [deleteJob_eq, Endpoint.deleteJobRequest_of_job hpath]
    refine Request.reply_of_invoke rfl hinvoke ?_
    rw [Reply.build_eq_ok_iff]
    rfl

theorem refusesJobPath {cause filesCause : PathError} (hpath : Target.ofJobPath raw = .error cause)
    (hfiles : Target.ofJobPath (raw ++ "/files") = .error filesCause) : s.RefusesJobPath raw where
  shown time second q := ⟨cause, getJob_of_error hpath time second q⟩
  listed time second q := ⟨filesCause, getJob_of_error hfiles time second q⟩
  deleted time second q := ⟨cause, deleteJob_of_error hpath time second q⟩

/-- What stands for a job, and what does not. Under a name that is not its own
an identifier still stands for the job, unless the name adds segments; a job
whose own name does so is left open there. -/
structure KnowsAddresses (s : Machine) (job : Job) : Prop where
  shown_iff : ∀ raw time second q,
    (∃ reply, (s.getJob time second raw q).1 = .ok reply ∧ reply.ShowsJob job) ↔
      job.IsAddressedBy raw
  deleted_iff : ∀ raw time second q,
    job ∉ (s.deleteJob time second raw q).2.jobs.jobs ↔ job.IsAddressedBy raw
  own : '/' ∉ job.jobname.toList →
    s.ServesJob (job.jobname ++ "/" ++ job.jobid) job ∧ s.ServesJob job.correlator job
  any_name : ∀ name, '/' ∉ Target.withoutLead name → s.ServesJob (name ++ "/" ++ job.jobid) job
  other_segments : ∀ name, Text.sameLetters name job.jobname = false →
    '/' ∈ Target.withoutLead name → s.RefusesJobPath (name ++ "/" ++ job.jobid)

/-- After any run of calls, for every job of the queue. -/
theorem job_addresses (user : String) (history : List (String × Call)) {job : Job}
    (hjob : job ∈ ((initial user).after history).jobs.jobs) :
    ((initial user).after history).KnowsAddresses job := by
  have hstart : (initial user).jobs.IsNumbered := JobQueue.isNumbered_empty
  have hq := isNumbered_after hstart history
  have hdescribed := isDescribed_after user history
  generalize (initial user).after history = s at hjob hq hdescribed ⊢
  obtain ⟨n, hid, hcorrelator⟩ := hdescribed job hjob
  obtain ⟨number, _, hnumber⟩ := hq.number job hjob
  have hsegment : Target.IsJobSegment job.jobid := by
    rw [hid]
    exact Job.isJobSegment_idOf n
  have hany (name : String) (hname : '/' ∉ Target.withoutLead name) :
      s.ServesJob (name ++ "/" ++ job.jobid) job := by
    obtain ⟨ref, href, hpath, hfiles⟩ := hsegment.ofJobPath_behind_name hname
    refine servesJob hq hjob ?_ hpath hfiles
    rw [href]
    exact Job.isNamedBy_jobid hnumber
  constructor
  case shown_iff => exact fun raw time second q => showsJob_iff hq hjob time second q
  case deleted_iff => exact fun raw time second q => deletesJob_iff hq hjob time second q
  case own =>
    intro hplain
    constructor
    · apply hany
      exact fun hslash => hplain ((List.dropWhile_suffix _).subset hslash)
    · have hcorrelated : Target.IsJobSegment job.correlator := by
        rw [hcorrelator]
        exact Job.isJobSegment_correlatorOf n hplain
      obtain ⟨hpath, hfiles⟩ := hcorrelated.ofJobPath_alone
      refine servesJob hq hjob ?_ hpath hfiles
      exact Job.isNamedBy_correlator hnumber
  case any_name => exact hany
  case other_segments =>
    intro name _ hname
    obtain ⟨⟨_, hpath⟩, ⟨_, hfiles⟩⟩ := hsegment.ofJobPath_behind_segments hname
    exact refusesJobPath hpath hfiles

/-- A machine whose only call submits a job with the name. -/
def lone (name : String) : Machine :=
  (initial "U").after [("", .submit ("//" ++ name ++ " JOB"))]

/-- The job of such a machine. -/
def loneJob (name : String) : Job := .ofText "" 1 name ("//" ++ name ++ " JOB") "U"

/-- The job `A` under its name, its correlator and another name. -/
theorem addresses_of_lone_job :
    loneJob "A" ∈ (lone "A").jobs.jobs ∧ (lone "A").ServesJob "A/JOB00001" (loneJob "A") ∧
      (lone "A").ServesJob "J0000001ZOS1.A......." (loneJob "A") ∧
      (lone "A").ServesJob "B/JOB00001" (loneJob "A") ∧
      (lone "A").RefusesJobPath "B/C/JOB00001" := by
  have hjob : loneJob "A" ∈ (lone "A").jobs.jobs := List.mem_singleton.2 rfl
  have haddresses := job_addresses "U" [("", .submit "//A JOB")] hjob
  obtain ⟨hid, hcorrelator⟩ := haddresses.own (by decide)
  exact ⟨hjob, hid, hcorrelator, haddresses.any_name "B" (by decide),
    haddresses.other_segments "B/C" (by decide) (by decide)⟩

/-- Under a name that is not its own a job is shown and deleted. Under its own
it is not, if the name has a slash. -/
theorem names_are_not_compared :
    (loneJob "A" ∈ (lone "A").jobs.jobs ∧ Text.sameLetters "B" (loneJob "A").jobname = false ∧
      (∃ reply, ((lone "A").getJob "" 0 "B/JOB00001" []).1 = .ok reply ∧
        reply.ShowsJob (loneJob "A")) ∧
      loneJob "A" ∉ ((lone "A").deleteJob "" 0 "B/JOB00001" []).2.jobs.jobs) ∧
    loneJob "A/B" ∈ (lone "A/B").jobs.jobs ∧
      ∃ cause, ((lone "A/B").getJob "" 0
        ((loneJob "A/B").jobname ++ "/" ++ (loneJob "A/B").jobid) []).1 = .error (.path cause) := by
  have hstart : (initial "U").jobs.IsNumbered := JobQueue.isNumbered_empty
  have hq : (lone "A").jobs.IsNumbered := isNumbered_after hstart _
  have hjob : loneJob "A" ∈ (lone "A").jobs.jobs := List.mem_singleton.2 rfl
  have haddress : (loneJob "A").IsAddressedBy "B/JOB00001" :=
    ⟨.id (some "B") "JOB00001", rfl, .inl (by decide)⟩
  refine ⟨⟨hjob, by decide, ?_, ?_⟩, List.mem_singleton.2 rfl, .jobResource "A/B/JOB00001", ?_⟩
  · exact (showsJob_iff hq hjob "" 0 []).2 haddress
  · exact (deletesJob_iff hq hjob "" 0 []).2 haddress
  · rw [getJob_of_error]
    rfl

end Machine

end Host

end MvsGateway
