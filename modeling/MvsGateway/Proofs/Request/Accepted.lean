import MvsGateway.Proofs.Request.Servable

/-!
# Where an accepted request comes from

What an endpoint accepts, read backwards: the part of the path, the query or
the body that its target was made of, and the options that it notes because
the host cannot honor them.
-/

namespace MvsGateway

namespace Target

theorem isDataSet_of_path {raw : String} {t : Target} (h : ofDataSetPath raw = .ok t) :
    t.IsDataSet := by
  have hends := ofDataSetPath_ends raw
  rwa [h] at hends

theorem IsDataSet.path?_eq_none {t : Target} (h : t.IsDataSet) : t.path? = none := by
  cases t with
  | dataSet | member | onVolume => rfl
  | _ => cases h

theorem isJob_of_path {raw : String} {t : Target} (h : ofJobPath raw = .ok t) : t.IsJob := by
  have hends := ofJobPath_ends raw
  rwa [h] at hends

theorem IsJob.path?_eq_none {t : Target} (h : t.IsJob) : t.path? = none := by
  cases t with
  | job | spoolFiles | spoolFile => rfl
  | _ => cases h

theorem IsJob.dsn?_eq_none {t : Target} (h : t.IsJob) : t.dsn? = none := by
  cases t with
  | job | spoolFiles | spoolFile => rfl
  | _ => cases h

end Target

namespace Endpoint

/-- What the target and the payload of a request were made of. -/
inductive MadeOf (raw : String) (q : Query) (body : Body) : Endpoint → Target → Payload → Prop
  | level {level : String} (p : Payload) (h : q.nonEmpty? "dslevel" = some level) :
      MadeOf raw q body .listDataSets (.dataSetLevel level) p
  | dataSet {e : Endpoint} {t : Target} (p : Payload) (he : e ≠ .submitJob)
      (h : Target.ofDataSetPath raw = .ok t) : MadeOf raw q body e t p
  | directory {path : String} (p : Payload) (h : q.path = .ok path) :
      MadeOf raw q body .listFiles (.directory path) p
  | file {e : Endpoint} (p : Payload) (he : e ≠ .listFiles) :
      MadeOf raw q body e (Target.ofFilePath raw) p
  | owner (owner : String) (p : Payload) : MadeOf raw q body .listJobs (.jobOwner owner) p
  | job {e : Endpoint} {t : Target} (p : Payload) (h : Target.ofJobPath raw = .ok t) :
      MadeOf raw q body e t p
  | queue {source : JclSource} (h : jclSource body = .ok source) :
      MadeOf raw q body .submitJob .jobQueue (.jcl source)

variable {raw : String} {q : Query} {body : Body} {r : Request}

/-! ## Endpoint by endpoint -/

theorem listDataSetsRequest_eq_ok (h : listDataSetsRequest q = .ok r) :
    r.verb = .list ∧ r.options = q.options ∧
      ∃ level, q.nonEmpty? "dslevel" = some level ∧ r.target = .dataSetLevel level := by
  obtain ⟨level, hlevel, h⟩ := eq_ok_of_bind h
  rw [require_eq_ok_iff] at hlevel
  split at h
  · cases h
  · cases h
    refine ⟨?_, ?_, level, hlevel, ?_⟩
    · rw [Request.gapIf_verb, Request.gapIf_verb]
    · rw [Request.gapIf_options, Request.gapIf_options]
    · rw [Request.gapIf_target, Request.gapIf_target]

theorem listMembersRequest_eq_ok (h : listMembersRequest raw q = .ok r) :
    r.verb = .list ∧ Target.ofDataSetPath raw = .ok r.target ∧ r.target.memberName? = none := by
  obtain ⟨request, hrequest, h⟩ := eq_ok_of_bind h
  obtain ⟨hverb, htarget, _⟩ := dataSetRequest_eq_ok hrequest
  split at h
  · cases h
  · rename_i hmember
    cases h
    refine ⟨?_, ?_, ?_⟩
    · rw [Request.gapIf_verb, Request.gapIf_verb, hverb]
    · rw [Request.gapIf_target, Request.gapIf_target, htarget]
    · rw [Request.gapIf_target, Request.gapIf_target]
      simpa using hmember

theorem createDataSetRequest_eq_ok (h : createDataSetRequest raw q = .ok r) :
    r.verb = .create ∧ Target.ofDataSetPath raw = .ok r.target := by
  obtain ⟨request, hrequest, h⟩ := eq_ok_of_bind h
  obtain ⟨hverb, htarget, _⟩ := dataSetRequest_eq_ok hrequest
  split at h
  · cases h
    exact ⟨hverb, htarget⟩
  · obtain ⟨attributes, _, hr⟩ := eq_ok_of_bind h
    cases hr
    exact ⟨hverb, htarget⟩

theorem listFilesRequest_eq_ok (h : listFilesRequest q = .ok r) :
    r.verb = .list ∧ ∃ path, q.path = .ok path ∧ r.target = .directory path := by
  obtain ⟨path, hpath, hr⟩ := eq_ok_of_bind h
  cases hr
  refine ⟨?_, path, hpath, ?_⟩
  · rw [Request.gapIf_verb, Request.gapIf_verb]
  · rw [Request.gapIf_target, Request.gapIf_target]

/-- A change of a file notes no option, as it honors all that it takes. -/
theorem changeFileRequest_eq_ok {fields : Json.Fields}
    (h : changeFileRequest raw q fields = .ok r) :
    r.target = Target.ofFilePath raw ∧ r.gaps = [] := by
  unfold changeFileRequest at h
  simp only at h
  split at h
  · obtain ⟨text, _, h⟩ := eq_ok_of_bind h
    obtain ⟨mode, _, ⟨⟩⟩ := eq_ok_of_bind h
    exact ⟨rfl, rfl⟩
  · obtain ⟨owner, _, ⟨⟩⟩ := eq_ok_of_bind h
    exact ⟨rfl, rfl⟩
  · obtain ⟨tag, _, ⟨⟩⟩ := eq_ok_of_bind h
    exact ⟨rfl, rfl⟩
  · cases h

theorem createFileRequest_eq_ok (h : createFileRequest raw q body = .ok r) :
    r.target = Target.ofFilePath raw ∧ r.gaps = [] := by
  obtain ⟨fields, _, h⟩ := eq_ok_of_bind h
  obtain ⟨kind, _, h⟩ := eq_ok_of_bind h
  simp only at h
  split at h
  · obtain ⟨mode, _, ⟨⟩⟩ := eq_ok_of_bind h
    exact ⟨rfl, rfl⟩
  · cases h
    exact ⟨rfl, rfl⟩

/-- Only a request for the job itself notes an option. -/
theorem getJobRequest_eq_ok (h : getJobRequest raw q = .ok r) :
    Target.ofJobPath raw = .ok r.target ∧
      (r.gaps = [] ∨ r.verb = .read ∧ ∃ ref, r.target = .job ref) := by
  obtain ⟨target, htarget, hr⟩ := eq_ok_of_bind h
  rw [readPath_eq_ok_iff] at htarget
  cases target with
  | job ref =>
    cases hr
    refine ⟨?_, .inr ⟨Request.gapIf_verb .., ref, Request.gapIf_target ..⟩⟩
    rw [htarget, Request.gapIf_target]
  | _ =>
    cases hr
    exact ⟨htarget, .inl rfl⟩

theorem jclSource_eq_ok {source : JclSource} (h : jclSource body = .ok source) :
    (∃ fields dsn, body.object? = some fields ∧ Body.textField? fields "dsn" = some dsn ∧
        source = .dataSet dsn) ∨
      (∃ path, source = .file (Target.absolutePath path)) ∨ ∃ jcl, source = .inline jcl := by
  unfold jclSource at h
  split at h
  · rename_i fields hobject
    split at h
    · rename_i _ _ dsn hdsn
      cases h
      exact .inl ⟨fields, dsn, hobject, hdsn, rfl⟩
    · cases h
      exact .inr (.inl ⟨_, rfl⟩)
    · cases h
  · split at h
    · cases h
    · cases h
      exact .inr (.inr ⟨_, rfl⟩)

theorem submitJobRequest_eq_ok (h : submitJobRequest body = .ok r) :
    r.target = .jobQueue ∧ r.gaps = [] ∧
      ∃ source, jclSource body = .ok source ∧ r.payload = .jcl source := by
  obtain ⟨source, hsource, hr⟩ := eq_ok_of_bind h
  cases hr
  exact ⟨rfl, rfl, source, hsource, rfl⟩

theorem deleteJobRequest_eq_ok (h : deleteJobRequest raw = .ok r) :
    Target.ofJobPath raw = .ok r.target ∧ r.gaps = [] := by
  obtain ⟨target, htarget, h⟩ := eq_ok_of_bind h
  rw [readPath_eq_ok_iff] at htarget
  split at h
  · cases h
    exact ⟨htarget, rfl⟩
  · cases h

/-! ## All endpoints -/

theorem accept_madeOf {e : Endpoint} (h : e.accept raw q body = .ok r) :
    MadeOf raw q body e r.target r.payload := by
  cases e with
  | listDataSets =>
    obtain ⟨_, _, level, hlevel, htarget⟩ := listDataSetsRequest_eq_ok h
    rw [htarget]
    exact .level _ hlevel
  | listMembers =>
    obtain ⟨_, htarget, _⟩ := listMembersRequest_eq_ok h
    exact .dataSet _ nofun htarget
  | readDataSet | deleteDataSet =>
    obtain ⟨_, htarget, _⟩ := dataSetRequest_eq_ok h
    exact .dataSet _ nofun htarget
  | writeDataSet =>
    obtain ⟨_, htarget, _⟩ := writeDataSetRequest_eq_ok h
    exact .dataSet _ nofun htarget
  | createDataSet =>
    obtain ⟨_, htarget⟩ := createDataSetRequest_eq_ok h
    exact .dataSet _ nofun htarget
  | listFiles =>
    obtain ⟨_, path, hpath, htarget⟩ := listFilesRequest_eq_ok h
    rw [htarget]
    exact .directory _ hpath
  | readUnixFile =>
    cases h
    rw [readFileRequest, Request.gapIf_target]
    exact .file _ nofun
  | putFile =>
    have htarget : r.target = Target.ofFilePath raw := by
      rcases putFileRequest_cases h with h | ⟨fields, h⟩
      · exact (writeFileRequest_eq_ok h).2.1
      · exact (changeFileRequest_eq_ok h).1
    rw [htarget]
    exact .file _ nofun
  | createFile =>
    rw [(createFileRequest_eq_ok h).1]
    exact .file _ nofun
  | deleteFile =>
    cases h
    exact .file _ nofun
  | listJobs =>
    cases h
    rw [listJobsRequest, Request.gapIf_target]
    exact .owner _ _
  | getJob => exact .job _ (getJobRequest_eq_ok h).1
  | submitJob =>
    obtain ⟨htarget, _, source, hsource, hpayload⟩ := submitJobRequest_eq_ok h
    rw [htarget, hpayload]
    exact .queue hsource
  | deleteJob => exact .job _ (deleteJobRequest_eq_ok h).1

/-- A new job is made of a source that the body names. -/
theorem MadeOf.source_of_queue {e : Endpoint} {t : Target} {p : Payload}
    (h : MadeOf raw q body e t p) (hqueue : t = .jobQueue) :
    e = .submitJob ∧ ∃ source, jclSource body = .ok source ∧ p = .jcl source := by
  cases h with
  | queue hsource => exact ⟨rfl, _, hsource, rfl⟩
  | dataSet _ _ hpath =>
    have hnamed := Target.isDataSet_of_path hpath
    rw [hqueue] at hnamed
    cases hnamed
  | job _ hpath =>
    have hjob := Target.isJob_of_path hpath
    rw [hqueue] at hjob
    cases hjob
  | _ => cases hqueue

end Endpoint

end MvsGateway
