import MvsGateway.Request.Endpoint

/-!
# What endpoints accept

Each endpoint makes a request of a shape that some host call serves, or finds
a fault of the caller.
-/

namespace MvsGateway

/-- The computation ends in a value with `P`, or in an error with `E`. -/
def Ends {ε α : Type} (E : ε → Prop) (P : α → Prop) : Except ε α → Prop
  | .ok a => P a
  | .error e => E e

namespace Ends

variable {ε δ α β : Type} {E : ε → Prop} {F : δ → Prop} {P : α → Prop} {Q : β → Prop}

theorem imp {R : α → Prop} {x : Except ε α} (hx : Ends E P x) (h : ∀ a, P a → R a) :
    Ends E R x := by
  cases x with
  | error e => exact hx
  | ok a => exact h a hx

theorem bind {x : Except ε α} {f : α → Except ε β} (hx : Ends E P x)
    (hf : ∀ a, P a → Ends E Q (f a)) : Ends E Q (x >>= f) := by
  cases x with
  | error e => exact hx
  | ok a => exact hf a hx

theorem map {x : Except ε α} {f : α → β} (hx : Ends E P x) (hf : ∀ a, P a → Q (f a)) :
    Ends E Q (x.map f) := by
  cases x with
  | error e => exact hx
  | ok a => exact hf a hx

theorem mapError {x : Except ε α} {f : ε → δ} (hx : Ends E P x) (hf : ∀ e, E e → F (f e)) :
    Ends F P (x.mapError f) := by
  cases x with
  | error e => exact hf e hx
  | ok a => exact hx

end Ends

theorem eq_ok_of_bind {ε α β : Type} {x : Except ε α} {f : α → Except ε β} {b : β}
    (h : (x >>= f) = .ok b) : ∃ a, x = .ok a ∧ f a = .ok b := by
  cases x with
  | error e => cases h
  | ok a => exact ⟨a, rfl, h⟩

theorem eq_ok_of_toOption {ε α : Type} {x : Except ε α} {a : α} (h : x.toOption = some a) :
    x = .ok a := by
  cases x with
  | error e => cases h
  | ok b => exact congrArg Except.ok (Option.some.inj h)

/-! ## Targets -/

namespace Target

/-- The target is a data set or a member, on a volume or not. -/
def IsDataSet (t : Target) : Prop := t.dataSetName?.isSome

/-- The target is a job, its spool files, or one of them. -/
def IsJob (t : Target) : Prop := t.job?.isSome

theorem memberOf_ends (name inner whole : List Char) :
    Ends (fun _ => True) IsDataSet (memberOf name inner whole) := by
  unfold memberOf
  cases checkName name whole with
  | error e => trivial
  | ok =>
    cases inner with
    | nil => trivial
    | cons => rfl

theorem ofDataSetChars_ends (s : List Char) :
    Ends (fun _ => True) IsDataSet (ofDataSetChars s) := by
  unfold ofDataSetChars
  split
  · trivial
  split
  · -- A member behind a slash.
    split
    · trivial
    · apply memberOf_ends
  split
  · cases checkName s s with
    | error e => trivial
    | ok => rfl
  -- A member in parentheses.
  split
  · trivial
  split
  · trivial
  · apply memberOf_ends

theorem ofDataSetPath_ends (raw : String) :
    Ends (fun _ => True) IsDataSet (ofDataSetPath raw) := by
  unfold ofDataSetPath
  split
  · -- A volume is in front; what stands behind it is a data set on its own.
    simp only
    split
    · trivial
    split
    · trivial
    · exact (ofDataSetChars_ends _).map fun _ h => h
  · apply ofDataSetChars_ends

theorem ofJobPath_ends (raw : String) : Ends (fun _ => True) IsJob (ofJobPath raw) := by
  have hfile (ref : JobRef) (key : String) :
      Ends (fun _ => True) IsJob ((FileKey.ofText key).map (.spoolFile ref)) := by
    cases FileKey.ofText key with
    | error e => trivial
    | ok key => rfl
  unfold ofJobPath
  simp only
  split
  · trivial
  split
  · rfl
  · rfl
  · rfl
  · rfl
  · apply hfile
  · apply hfile
  · trivial

end Target

/-! ## Servable requests -/

/-- The shapes of a request that a host call serves. -/
inductive Servable : Verb → Target → Payload → Prop
  | listLevel (level : String) (p : Payload) : Servable .list (.dataSetLevel level) p
  | listMembers {t : Target} (p : Payload) (named : t.IsDataSet) (whole : t.memberName? = none) :
      Servable .list t p
  | listDirectory (path : String) (p : Payload) : Servable .list (.directory path) p
  | listJobs (owner : String) (p : Payload) : Servable .list (.jobOwner owner) p
  | listSpoolFiles (ref : JobRef) (p : Payload) : Servable .list (.spoolFiles ref) p
  | readDataSet {t : Target} (p : Payload) (named : t.IsDataSet) : Servable .read t p
  | readFile (path : String) (p : Payload) : Servable .read (.file path) p
  | readJob (ref : JobRef) (p : Payload) : Servable .read (.job ref) p
  | readSpoolFile (ref : JobRef) (key : FileKey) (p : Payload) :
      Servable .read (.spoolFile ref key) p
  | writeDataSet {t : Target} (data : String) (named : t.IsDataSet) :
      Servable .write t (.content data)
  | writeFile (path data : String) : Servable .write (.file path) (.content data)
  | createMember {t : Target} (p : Payload) (named : t.IsDataSet)
      (inside : t.memberName?.isSome) : Servable .create t p
  | createDataSet {t : Target} (attributes : Host.Attributes) (named : t.IsDataSet)
      (whole : t.memberName? = none) : Servable .create t (.allocation attributes)
  | createEntry (path : String) (kind : EntryKind) (mode : Mode) :
      Servable .create (.file path) (.entry kind mode)
  | deleteDataSet {t : Target} (p : Payload) (named : t.IsDataSet) : Servable .delete t p
  | deleteFile (path : String) (p : Payload) : Servable .delete (.file path) p
  | deleteJob (ref : JobRef) (p : Payload) : Servable .delete (.job ref) p
  | changeMode (path : String) (mode : Mode) : Servable .chmod (.file path) (.mode mode)
  | changeOwner (path owner : String) : Servable .chown (.file path) (.owner owner)
  | changeTag (path tag : String) : Servable .chtag (.file path) (.tag tag)
  | submit (source : JclSource) : Servable .submit .jobQueue (.jcl source)

namespace Request

def IsServable (r : Request) : Prop := Servable r.verb r.target r.payload

section Gaps

variable (r : Request) (given : Bool) (option : String)

@[simp] theorem gapIf_verb : (r.gapIf given option).verb = r.verb := by
  cases given <;> rfl

@[simp] theorem gapIf_target : (r.gapIf given option).target = r.target := by
  cases given <;> rfl

@[simp] theorem gapIf_options : (r.gapIf given option).options = r.options := by
  cases given <;> rfl

@[simp] theorem gapIf_payload : (r.gapIf given option).payload = r.payload := by
  cases given <;> rfl

theorem IsServable.gapIf {r : Request} (h : r.IsServable) (given : Bool) (option : String) :
    (r.gapIf given option).IsServable := by
  simpa [IsServable] using h

end Gaps

end Request

/-! ## Readers -/

/-- The errors that a request can have before it reaches the host. -/
def RequestError.IsCallers : RequestError → Prop
  | .invalid _ | .mode _ | .path _ => True
  | .host .. | .notFound _ => False

/-- A reader of a part of a request, which finds no fault but the caller's. -/
abbrev Reads {α : Type} (P : α → Prop) : Except RequestError α → Prop :=
  Ends RequestError.IsCallers P

theorem Body.recordsText_reads (records : Json) : Reads (fun _ => True) (recordsText records) := by
  unfold recordsText
  split
  · trivial
  · split <;> trivial
  · trivial

theorem Body.content_reads (body : Body) : Reads (fun _ => True) body.content := by
  have hnonEmpty (text : String) : Reads (fun _ => True)
      (if text == "" then .error (.invalid .emptyBody) else .ok text) := by
    split <;> trivial
  unfold content
  split
  · split
    · exact (recordsText_reads _).bind fun text _ => hnonEmpty text
    · exact hnonEmpty ""
  · exact hnonEmpty body.text

theorem Query.number?_reads (q : Query) (name : String) :
    Reads (fun _ => True) (q.number? name) := by
  unfold number?
  split
  · trivial
  split
  · trivial
  · split <;> trivial

theorem Query.attributes_reads (q : Query) : Reads (fun _ => True) q.attributes := by
  refine (q.number?_reads _).bind fun _ _ => ?_
  refine (q.number?_reads _).bind fun _ _ => ?_
  refine (q.number?_reads _).bind fun _ _ => ?_
  refine (q.number?_reads _).bind fun _ _ => ?_
  exact (q.number?_reads _).bind fun _ _ => trivial

theorem Query.path_reads (q : Query) : Reads (fun _ => True) q.path := by
  unfold path
  split <;> trivial

namespace Endpoint

theorem require_reads {α : Type} (fault : Fault) (a : Option α) :
    Reads (fun _ => True) (require fault a) := by
  cases a <;> trivial

theorem readPath_reads {P : Target → Prop} {parse : String → Except PathError Target}
    {raw : String} (h : Ends (fun _ => True) P (parse raw)) : Reads P (readPath parse raw) :=
  h.mapError fun _ _ => trivial

theorem readMode_reads (raw : String) : Reads (fun _ => True) (readMode raw) := by
  unfold readMode
  cases Mode.ofText raw <;> trivial

/-! ## Endpoints -/

theorem listDataSetsRequest_reads (q : Query) :
    Reads Request.IsServable (listDataSetsRequest q) := by
  refine (require_reads _ _).bind fun level _ => ?_
  split
  · trivial
  · have hlevel : Request.IsServable
        { verb := .list, target := .dataSetLevel level, options := q.options } :=
      .listLevel level .none
    exact (hlevel.gapIf _ _).gapIf _ _

/-- A request for a data set or a member, without a payload yet. -/
theorem dataSetRequest_reads (verb : Verb) (raw : String) (q : Query) :
    Reads (fun r => r.verb = verb ∧ r.target.IsDataSet) (dataSetRequest verb raw q) := by
  refine (readPath_reads (Target.ofDataSetPath_ends raw)).bind fun target hnamed => ?_
  refine ⟨Request.gapIf_verb .., ?_⟩
  rw [Request.gapIf_target]
  exact hnamed

theorem listMembersRequest_reads (raw : String) (q : Query) :
    Reads Request.IsServable (listMembersRequest raw q) := by
  refine (dataSetRequest_reads .list raw q).bind fun r ⟨hverb, hnamed⟩ => ?_
  cases hmember : r.target.memberName? with
  | some member => trivial
  | none =>
    have hr : r.IsServable := by
      rw [Request.IsServable, hverb]
      exact .listMembers _ hnamed hmember
    exact (hr.gapIf _ _).gapIf _ _

theorem writeDataSetRequest_reads (raw : String) (q : Query) (body : Body) :
    Reads Request.IsServable (writeDataSetRequest raw q body) := by
  refine (dataSetRequest_reads .write raw q).bind fun r ⟨hverb, hnamed⟩ => ?_
  refine (body.content_reads).bind fun content _ => ?_
  show Servable r.verb r.target (.content content)
  rw [hverb]
  exact .writeDataSet content hnamed

theorem createDataSetRequest_reads (raw : String) (q : Query) :
    Reads Request.IsServable (createDataSetRequest raw q) := by
  refine (dataSetRequest_reads .create raw q).bind fun r ⟨hverb, hnamed⟩ => ?_
  cases hmember : r.target.memberName? with
  | some member =>
    show Servable r.verb r.target r.payload
    rw [hverb]
    exact .createMember _ hnamed (by rw [hmember]; rfl)
  | none =>
    refine (q.attributes_reads).bind fun attributes _ => ?_
    show Servable r.verb r.target (.allocation attributes)
    rw [hverb]
    exact .createDataSet attributes hnamed hmember

theorem listFilesRequest_reads (q : Query) : Reads Request.IsServable (listFilesRequest q) := by
  refine (q.path_reads).bind fun path _ => ?_
  have hpath : Request.IsServable
      { verb := .list, target := .directory path, options := q.options } :=
    .listDirectory path .none
  exact (hpath.gapIf _ _).gapIf _ _

theorem readFileRequest_isServable (raw : String) (q : Query) :
    (readFileRequest raw q).IsServable := by
  have hfile : (fileRequest .read raw q).IsServable := .readFile _ .none
  exact hfile.gapIf _ _

theorem writeFileRequest_reads (raw : String) (q : Query) (body : Body) :
    Reads Request.IsServable (writeFileRequest raw q body) := by
  refine (body.content_reads).bind fun content _ => ?_
  show Servable ((fileRequest .write raw q).gapIf _ _).verb
    ((fileRequest .write raw q).gapIf _ _).target (.content content)
  rw [Request.gapIf_verb, Request.gapIf_target]
  exact .writeFile _ content

theorem changeFileRequest_reads (raw : String) (q : Query) (fields : Json.Fields) :
    Reads Request.IsServable (changeFileRequest raw q fields) := by
  unfold changeFileRequest
  simp only
  split
  · refine (require_reads _ _).bind fun text _ => ?_
    exact (readMode_reads text).bind fun mode _ => .changeMode _ mode
  · exact (require_reads _ _).bind fun owner _ => .changeOwner _ owner
  · exact (require_reads _ _).bind fun tag _ => .changeTag _ tag
  · trivial

theorem putFileRequest_reads (raw : String) (q : Query) (body : Body) :
    Reads Request.IsServable (putFileRequest raw q body) := by
  unfold putFileRequest
  split
  · split
    · apply changeFileRequest_reads
    · apply writeFileRequest_reads
  · apply writeFileRequest_reads

theorem createFileRequest_reads (raw : String) (q : Query) (body : Body) :
    Reads Request.IsServable (createFileRequest raw q body) := by
  refine (require_reads _ _).bind fun fields _ => ?_
  have hkind : Reads (fun _ => True) (entryKind fields) := by
    unfold entryKind
    split <;> trivial
  refine hkind.bind fun kind _ => ?_
  split
  · exact (readMode_reads _).bind fun mode _ => .createEntry _ kind mode
  · exact .createEntry _ kind _

theorem listJobsRequest_isServable (q : Query) : (listJobsRequest q).IsServable := by
  have hjobs (owner : String) : Request.IsServable
      { verb := .list, target := .jobOwner owner, options := q.options } :=
    .listJobs owner .none
  exact (hjobs _).gapIf _ _

theorem getJobRequest_reads (raw : String) (q : Query) :
    Reads Request.IsServable (getJobRequest raw q) := by
  refine (readPath_reads (Target.ofJobPath_ends raw)).bind fun target hjob => ?_
  cases target with
  | job ref =>
    have hjob : Request.IsServable { verb := .read, target := .job ref, options := q.options } :=
      .readJob ref .none
    exact hjob.gapIf _ _
  | spoolFiles ref => exact .listSpoolFiles ref .none
  | spoolFile ref key => exact .readSpoolFile ref key .none
  | _ => cases hjob

theorem submitJobRequest_reads (body : Body) :
    Reads Request.IsServable (submitJobRequest body) := by
  have hsource : Reads (fun _ => True) (jclSource body) := by
    -- The source is named by the fields of an object, or it is the body itself.
    unfold jclSource
    split
    · split <;> trivial
    · split <;> trivial
  exact hsource.bind fun source _ => .submit source

theorem deleteJobRequest_reads (raw : String) :
    Reads Request.IsServable (deleteJobRequest raw) := by
  refine (readPath_reads (Target.ofJobPath_ends raw)).bind fun target _ => ?_
  split
  · exact .deleteJob _ .none
  · trivial

/-- What an endpoint accepts is servable, and what it refuses is the caller's
fault. -/
theorem accept_reads (e : Endpoint) (raw : String) (q : Query) (body : Body) :
    Reads Request.IsServable (e.accept raw q body) := by
  cases e with
  | listDataSets => exact listDataSetsRequest_reads q
  | listMembers => exact listMembersRequest_reads raw q
  | readDataSet =>
    refine (dataSetRequest_reads .read raw q).imp fun r ⟨hverb, hnamed⟩ => ?_
    rw [Request.IsServable, hverb]
    exact .readDataSet _ hnamed
  | writeDataSet => exact writeDataSetRequest_reads raw q body
  | createDataSet => exact createDataSetRequest_reads raw q
  | deleteDataSet =>
    refine (dataSetRequest_reads .delete raw q).imp fun r ⟨hverb, hnamed⟩ => ?_
    rw [Request.IsServable, hverb]
    exact .deleteDataSet _ hnamed
  | listFiles => exact listFilesRequest_reads q
  | readUnixFile => exact readFileRequest_isServable raw q
  | putFile => exact putFileRequest_reads raw q body
  | createFile => exact createFileRequest_reads raw q body
  | deleteFile => exact .deleteFile _ .none
  | listJobs => exact listJobsRequest_isServable q
  | getJob => exact getJobRequest_reads raw q
  | submitJob => exact submitJobRequest_reads body
  | deleteJob => exact deleteJobRequest_reads raw

theorem isServable_of_accept {e : Endpoint} {raw : String} {q : Query} {body : Body} {r : Request}
    (h : e.accept raw q body = .ok r) : r.IsServable := by
  have hreads := accept_reads e raw q body
  rwa [h] at hreads

/-! ## Accepted requests for content -/

theorem readPath_eq_ok_iff {parse : String → Except PathError Target} {raw : String} {t : Target} :
    readPath parse raw = .ok t ↔ parse raw = .ok t := by
  unfold readPath
  cases parse raw with
  | error e => exact ⟨nofun, nofun⟩
  | ok a =>
    constructor
    · rintro ⟨⟩
      rfl
    · rintro ⟨⟩
      rfl

theorem require_eq_ok_iff {α : Type} {fault : Fault} {a : α} {x : Option α} :
    require fault x = .ok a ↔ x = some a := by
  cases x <;> simp [require]

variable {raw : String} {q : Query} {body : Body} {r : Request}

theorem dataSetRequest_eq_ok {verb : Verb} (h : dataSetRequest verb raw q = .ok r) :
    r.verb = verb ∧ Target.ofDataSetPath raw = .ok r.target ∧ r.options = q.options := by
  obtain ⟨target, htarget, hr⟩ := eq_ok_of_bind h
  cases hr
  refine ⟨Request.gapIf_verb .., ?_, Request.gapIf_options ..⟩
  rw [Request.gapIf_target]
  exact readPath_eq_ok_iff.1 htarget

theorem dataSetRequest_of_path {target : Target} (verb : Verb) (q : Query)
    (h : Target.ofDataSetPath raw = .ok target) : ∃ r, dataSetRequest verb raw q = .ok r := by
  refine ⟨Request.gapIf { verb, target, options := q.options }
    (q.present "volser" || target.volume?.isSome) "volser", ?_⟩
  rw [dataSetRequest, readPath, h]
  rfl

theorem writeDataSetRequest_eq_ok (h : writeDataSetRequest raw q body = .ok r) :
    r.verb = .write ∧ Target.ofDataSetPath raw = .ok r.target ∧ r.options = q.options ∧
      ∃ data, body.content = .ok data ∧ r.payload = .content data := by
  obtain ⟨request, hrequest, h⟩ := eq_ok_of_bind h
  obtain ⟨data, hdata, hr⟩ := eq_ok_of_bind h
  cases hr
  obtain ⟨hverb, htarget, hoptions⟩ := dataSetRequest_eq_ok hrequest
  exact ⟨hverb, htarget, hoptions, data, hdata, rfl⟩

theorem writeFileRequest_eq_ok (h : writeFileRequest raw q body = .ok r) :
    r.verb = .write ∧ r.target = Target.ofFilePath raw ∧ r.options = q.options ∧
      ∃ data, body.content = .ok data ∧ r.payload = .content data := by
  obtain ⟨data, hdata, hr⟩ := eq_ok_of_bind h
  cases hr
  exact ⟨Request.gapIf_verb .., Request.gapIf_target .., Request.gapIf_options .., data, hdata, rfl⟩

/-- A put on a path that names a data set depends on nothing but its content. -/
theorem writeDataSetRequest_of_content {target : Target}
    (htarget : Target.ofDataSetPath raw = .ok target) (q : Query) (body : Body) :
    (∀ data, body.content = .ok data → ∃ r, writeDataSetRequest raw q body = .ok r) ∧
      ∀ e, body.content = .error e → writeDataSetRequest raw q body = .error e := by
  obtain ⟨r, hr⟩ := dataSetRequest_of_path .write q htarget
  constructor
  · intro data hdata
    refine ⟨{ r with payload := .content data }, ?_⟩
    rw [writeDataSetRequest, hr, hdata]
    rfl
  · intro e he
    rw [writeDataSetRequest, hr, he]
    rfl

theorem writeFileRequest_of_content (raw : String) (q : Query) (body : Body) :
    (∀ data, body.content = .ok data → ∃ r, writeFileRequest raw q body = .ok r) ∧
      ∀ e, body.content = .error e → writeFileRequest raw q body = .error e := by
  constructor
  · intro data hdata
    rw [writeFileRequest, hdata]
    exact ⟨_, rfl⟩
  · intro e he
    rw [writeFileRequest, he]
    rfl

theorem changeFileRequest_changes {fields : Json.Fields}
    (h : changeFileRequest raw q fields = .ok r) : r.verb ∈ [.chmod, .chown, .chtag] := by
  unfold changeFileRequest at h
  simp only at h
  split at h
  · obtain ⟨text, _, h⟩ := eq_ok_of_bind h
    obtain ⟨mode, _, ⟨⟩⟩ := eq_ok_of_bind h
    exact .head _
  · obtain ⟨owner, _, ⟨⟩⟩ := eq_ok_of_bind h
    exact .tail _ (.head _)
  · obtain ⟨tag, _, ⟨⟩⟩ := eq_ok_of_bind h
    exact .tail _ (.tail _ (.head _))
  · cases h

theorem changeFileRequest_verb {fields : Json.Fields} (h : changeFileRequest raw q fields = .ok r) :
    r.verb ≠ .write := by
  have hverb := changeFileRequest_changes h
  intro hwrite
  rw [hwrite] at hverb
  simp at hverb

/-- A put of a file writes content, or it is a change that the body asks for. -/
theorem putFileRequest_cases (h : putFileRequest raw q body = .ok r) :
    writeFileRequest raw q body = .ok r ∨
      ∃ fields, changeFileRequest raw q fields = .ok r := by
  unfold putFileRequest at h
  split at h
  · split at h
    · exact .inr ⟨_, h⟩
    · exact .inl h
  · exact .inl h

theorem putFileRequest_write (h : putFileRequest raw q body = .ok r) (hverb : r.verb = .write) :
    writeFileRequest raw q body = .ok r := by
  rcases putFileRequest_cases h with hwrite | ⟨fields, hchange⟩
  · exact hwrite
  · exact absurd hverb (changeFileRequest_verb hchange)

theorem putFileRequest_of_no_request
    (h : ∀ fields, body.object? = some fields → fields.get? "request" = none) :
    putFileRequest raw q body = writeFileRequest raw q body := by
  unfold putFileRequest
  cases hobject : body.object? with
  | none => rfl
  | some fields =>
    simp only [h fields hobject]
    rfl

end Endpoint

end MvsGateway
