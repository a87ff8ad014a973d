import MvsGateway.Host.Machine

/-!
# Hosts by their services

A host as a record of services, one for each call, that answer with a value of
their own type. Its answer to a call is that value as an output, so that the
call fixes the shape of the output. The machine is such a host.
-/

namespace MvsGateway.Host

/-- The services of a host with states of type `σ`. -/
structure Services (σ : Type) where
  listDataSets (pattern : String) : σ → Except Error (List DataSetEntry) × σ
  listMembers (dsn : String) : σ → Except Error (List MemberEntry) × σ
  readDataSet (dsn encoding : String) : σ → Except Error String × σ
  /-- Answers with the new tag, like the write of a file. -/
  writeDataSet (dsn data encoding etag : String) : σ → Except Error String × σ
  createMember (dsn : String) : σ → Except Error Unit × σ
  createDataSet (dsn : String) (attributes : Attributes) : σ → Except Error Unit × σ
  deleteDataSet (dsn : String) : σ → Except Error Unit × σ
  listDirectory (path : String) : σ → Except Error String × σ
  readUnixFile (path encoding : String) : σ → Except Error String × σ
  writeUnixFile (path data encoding etag : String) : σ → Except Error String × σ
  createFile (path mode : String) : σ → Except Error Unit × σ
  createDirectory (path mode : String) : σ → Except Error Unit × σ
  deletePath (path : String) (recursive : Bool) : σ → Except Error Unit × σ
  changeMode (path mode : String) (recursive : Bool) : σ → Except Error Unit × σ
  changeOwner (path owner : String) (recursive : Bool) : σ → Except Error Unit × σ
  changeTag (path tag : String) (recursive : Bool) : σ → Except Error Unit × σ
  jobStatus (id : String) : σ → Except Error JobEntry × σ
  listJobs (owner : String) : σ → Except Error (List JobEntry) × σ
  listSpoolFiles (id : String) : σ → Except Error (List SpoolFileEntry) × σ
  readSpoolFile (id : String) (key : Nat) : σ → Except Error String × σ
  jobText (id : String) : σ → Except Error String × σ
  /-- Answers with the identifier of the new job, like the other submissions. -/
  submit (jcl : String) : σ → Except Error String × σ
  submitDataSet (dsn : String) : σ → Except Error String × σ
  submitFile (path : String) : σ → Except Error String × σ
  deleteJob (id : String) : σ → Except Error Unit × σ

namespace Services

variable {σ : Type}

/-- The value of a service as an output. -/
def answer {α : Type} (output : α → Output) (r : Except Error α × σ) : Answer × σ :=
  (r.1.map output, r.2)

/-- The answer to a call, and the host's state after it. -/
def invoke (b : Services σ) : Call → σ → Answer × σ
  | .listDataSets pattern, s => answer .dataSets (b.listDataSets pattern s)
  | .listMembers dsn, s => answer .members (b.listMembers dsn s)
  | .readDataSet dsn encoding, s => answer .text (b.readDataSet dsn encoding s)
  | .writeDataSet dsn data encoding etag, s =>
    answer .etag (b.writeDataSet dsn data encoding etag s)
  | .createMember dsn, s => answer (fun _ => .done) (b.createMember dsn s)
  | .createDataSet dsn attributes, s => answer (fun _ => .done) (b.createDataSet dsn attributes s)
  | .deleteDataSet dsn, s => answer (fun _ => .done) (b.deleteDataSet dsn s)
  | .listDirectory path, s => answer .text (b.listDirectory path s)
  | .readUnixFile path encoding, s => answer .text (b.readUnixFile path encoding s)
  | .writeUnixFile path data encoding etag, s =>
    answer .etag (b.writeUnixFile path data encoding etag s)
  | .createFile path mode, s => answer (fun _ => .done) (b.createFile path mode s)
  | .createDirectory path mode, s => answer (fun _ => .done) (b.createDirectory path mode s)
  | .deletePath path recursive, s => answer (fun _ => .done) (b.deletePath path recursive s)
  | .changeMode path mode recursive, s =>
    answer (fun _ => .done) (b.changeMode path mode recursive s)
  | .changeOwner path owner recursive, s =>
    answer (fun _ => .done) (b.changeOwner path owner recursive s)
  | .changeTag path tag recursive, s => answer (fun _ => .done) (b.changeTag path tag recursive s)
  | .jobStatus id, s => answer .job (b.jobStatus id s)
  | .listJobs owner, s => answer .jobs (b.listJobs owner s)
  | .listSpoolFiles id, s => answer .spoolFiles (b.listSpoolFiles id s)
  | .readSpoolFile id key, s => answer .text (b.readSpoolFile id key s)
  | .jobText id, s => answer .text (b.jobText id s)
  | .submit jcl, s => answer .jobId (b.submit jcl s)
  | .submitDataSet dsn, s => answer .jobId (b.submitDataSet dsn s)
  | .submitFile path, s => answer .jobId (b.submitFile path s)
  | .deleteJob id, s => answer (fun _ => .done) (b.deleteJob id s)

def backend (b : Services σ) : Backend σ := ⟨b.invoke⟩

/-! ## Notes -/

/-- The service, which now notes each use of it behind the state: the call that
it is there for, and its answer as an output. -/
def note {α : Type} (call : Call) (output : α → Output) (service : σ → Except Error α × σ)
    (s : σ × List (Call × Answer)) : Except Error α × (σ × List (Call × Answer)) :=
  let r := service s.1
  (r.1, (r.2, s.2 ++ [(call, r.1.map output)]))

/-- The services, each of which notes its uses. -/
def noting (b : Services σ) : Services (σ × List (Call × Answer)) where
  listDataSets pattern := note (.listDataSets pattern) .dataSets (b.listDataSets pattern)
  listMembers dsn := note (.listMembers dsn) .members (b.listMembers dsn)
  readDataSet dsn encoding := note (.readDataSet dsn encoding) .text (b.readDataSet dsn encoding)
  writeDataSet dsn data encoding etag :=
    note (.writeDataSet dsn data encoding etag) .etag (b.writeDataSet dsn data encoding etag)
  createMember dsn := note (.createMember dsn) (fun _ => .done) (b.createMember dsn)
  createDataSet dsn attributes :=
    note (.createDataSet dsn attributes) (fun _ => .done) (b.createDataSet dsn attributes)
  deleteDataSet dsn := note (.deleteDataSet dsn) (fun _ => .done) (b.deleteDataSet dsn)
  listDirectory path := note (.listDirectory path) .text (b.listDirectory path)
  readUnixFile path encoding :=
    note (.readUnixFile path encoding) .text (b.readUnixFile path encoding)
  writeUnixFile path data encoding etag :=
    note (.writeUnixFile path data encoding etag) .etag (b.writeUnixFile path data encoding etag)
  createFile path mode := note (.createFile path mode) (fun _ => .done) (b.createFile path mode)
  createDirectory path mode :=
    note (.createDirectory path mode) (fun _ => .done) (b.createDirectory path mode)
  deletePath path recursive :=
    note (.deletePath path recursive) (fun _ => .done) (b.deletePath path recursive)
  changeMode path mode recursive :=
    note (.changeMode path mode recursive) (fun _ => .done) (b.changeMode path mode recursive)
  changeOwner path owner recursive :=
    note (.changeOwner path owner recursive) (fun _ => .done) (b.changeOwner path owner recursive)
  changeTag path tag recursive :=
    note (.changeTag path tag recursive) (fun _ => .done) (b.changeTag path tag recursive)
  jobStatus id := note (.jobStatus id) .job (b.jobStatus id)
  listJobs owner := note (.listJobs owner) .jobs (b.listJobs owner)
  listSpoolFiles id := note (.listSpoolFiles id) .spoolFiles (b.listSpoolFiles id)
  readSpoolFile id key := note (.readSpoolFile id key) .text (b.readSpoolFile id key)
  jobText id := note (.jobText id) .text (b.jobText id)
  submit jcl := note (.submit jcl) .jobId (b.submit jcl)
  submitDataSet dsn := note (.submitDataSet dsn) .jobId (b.submitDataSet dsn)
  submitFile path := note (.submitFile path) .jobId (b.submitFile path)
  deleteJob id := note (.deleteJob id) (fun _ => .done) (b.deleteJob id)

end Services

/-! ## Shapes -/

inductive Shape
  | dataSets
  | members
  | text
  | etag
  | done
  | job
  | jobs
  | spoolFiles
  | jobId
  deriving DecidableEq, Repr

def Output.shape : Output → Shape
  | .dataSets _ => .dataSets
  | .members _ => .members
  | .text _ => .text
  | .etag _ => .etag
  | .done => .done
  | .job _ => .job
  | .jobs _ => .jobs
  | .spoolFiles _ => .spoolFiles
  | .jobId _ => .jobId

/-- The shape of the output that a call asks for. -/
def Call.shape : Call → Shape
  | .listDataSets _ => .dataSets
  | .listMembers _ => .members
  | .readDataSet .. | .listDirectory _ | .readUnixFile .. | .readSpoolFile .. | .jobText _ => .text
  | .writeDataSet .. | .writeUnixFile .. => .etag
  | .createMember _ | .createDataSet .. | .deleteDataSet _ | .createFile .. | .createDirectory ..
  | .deletePath .. | .changeMode .. | .changeOwner .. | .changeTag .. | .deleteJob _ => .done
  | .jobStatus _ => .job
  | .listJobs _ => .jobs
  | .listSpoolFiles _ => .spoolFiles
  | .submit _ | .submitDataSet _ | .submitFile _ => .jobId

def Call.Fits (call : Call) (output : Output) : Prop := output.shape = call.shape

namespace Output

variable {output : Output}

/-- An output of the shape of a text is a text, and so on. -/
theorem eq_text (h : output.shape = .text) : ∃ content, output = .text content := by
  cases output with
  | text content => exact ⟨content, rfl⟩
  | _ => cases h

theorem eq_etag (h : output.shape = .etag) : ∃ tag, output = .etag tag := by
  cases output with
  | etag tag => exact ⟨tag, rfl⟩
  | _ => cases h

theorem eq_done (h : output.shape = .done) : output = .done := by
  cases output with
  | done => rfl
  | _ => cases h

theorem eq_jobId (h : output.shape = .jobId) : ∃ id, output = .jobId id := by
  cases output with
  | jobId id => exact ⟨id, rfl⟩
  | _ => cases h

end Output

namespace Services

variable {σ : Type}

theorem answer_fits {α : Type} {output : α → Output} {call : Call}
    (h : ∀ a, call.Fits (output a)) (r : Except Error α × σ) {o : Output}
    (ho : (answer output r).1 = .ok o) : call.Fits o := by
  obtain ⟨r, s⟩ := r
  cases r with
  | error e => cases ho
  | ok a =>
    cases ho
    exact h a

/-- A host answers each call with an output that fits it. -/
theorem invoke_fits (b : Services σ) (call : Call) (s : σ) {o : Output}
    (ho : (b.invoke call s).1 = .ok o) : call.Fits o := by
  cases call <;> refine answer_fits ?_ _ ho <;> exact fun _ => rfl

end Services

/-! ## The machine -/

namespace Machine

/-- What a query answers, with the machine as it is. -/
def query {α : Type} (r : Except Error α) (s : Machine) : Except Error α × Machine := (r, s)

def changeCatalog {α : Type} (s : Machine) (r : Except Error α × Catalog) :
    Except Error α × Machine :=
  (r.1, { s with catalog := r.2 })

def changeFiles {α : Type} (s : Machine) (r : Except Error α × FileTree) :
    Except Error α × Machine :=
  (r.1, { s with files := r.2 })

def changeJobs {α : Type} (s : Machine) (r : Except Error α × JobQueue) :
    Except Error α × Machine :=
  (r.1, { s with jobs := r.2 })

/-- Submits a text that may have failed to be read. -/
def submitRead (time : String) (s : Machine) (jcl : Except Error String) :
    Except Error String × Machine :=
  match jcl with
  | .error e => (.error e, s)
  | .ok jcl => s.changeJobs (s.jobs.submit time jcl s.user)

/-- The services of the machine at a fixed time of day. -/
def services (time : String) : Services Machine where
  listDataSets pattern s := query (.ok (s.catalog.list pattern)) s
  listMembers dsn s := query (s.catalog.members dsn) s
  readDataSet dsn _ s := query (s.catalog.read dsn) s
  writeDataSet dsn data _ etag s := s.changeCatalog (s.catalog.write dsn data etag)
  createMember dsn s := s.changeCatalog (s.catalog.createMember dsn)
  createDataSet dsn attributes s := s.changeCatalog (s.catalog.create dsn attributes)
  deleteDataSet dsn s := s.changeCatalog (s.catalog.delete dsn)
  listDirectory path s := query (s.files.list path) s
  readUnixFile path _ s := query (s.files.read path) s
  writeUnixFile path data _ etag s := s.changeFiles (s.files.write path data etag s.user)
  createFile path mode s := s.changeFiles (s.files.createFile path mode s.user)
  createDirectory path mode s := s.changeFiles (s.files.createDirectory path mode s.user)
  deletePath path recursive s := s.changeFiles (s.files.delete path recursive)
  changeMode path mode recursive s := s.changeFiles (s.files.changeMode path mode recursive)
  changeOwner path owner recursive s := s.changeFiles (s.files.changeOwner path owner recursive)
  changeTag path tag recursive s := s.changeFiles (s.files.changeTag path tag recursive)
  jobStatus id s := query (s.jobs.status id) s
  listJobs owner s := query (.ok (s.jobs.listByOwner owner)) s
  listSpoolFiles id s := query (s.jobs.spoolFiles id) s
  readSpoolFile id key s := query (s.jobs.readSpool id key) s
  jobText id s := query (s.jobs.jcl id) s
  submit jcl s := s.submitRead time (.ok jcl)
  submitDataSet dsn s := s.submitRead time (s.catalog.read dsn)
  submitFile path s := s.submitRead time (s.files.read path)
  deleteJob id s := s.changeJobs (s.jobs.purge id)

section Parts

variable {α : Type} (s : Machine) (output : α → Output)

theorem answer_query (r : Except Error α) :
    Services.answer output (query r s) = (answer output r, s) := rfl

theorem answer_changeCatalog (r : Except Error α × Catalog) :
    Services.answer output (s.changeCatalog r) = s.onCatalog output r := rfl

theorem answer_changeFiles (r : Except Error α × FileTree) :
    Services.answer output (s.changeFiles r) = s.onFiles output r := rfl

theorem answer_changeJobs (r : Except Error α × JobQueue) :
    Services.answer output (s.changeJobs r) = s.onJobs output r := rfl

end Parts

theorem answer_submitRead (time : String) (s : Machine) (jcl : Except Error String) :
    Services.answer .jobId (s.submitRead time jcl) = s.submitText time jcl := by
  cases jcl with
  | error e => rfl
  | ok jcl => exact answer_changeJobs s .jobId (s.jobs.submit time jcl s.user)

theorem services_invoke (time : String) (call : Call) (s : Machine) :
    (services time).invoke call s = invoke time call s := by
  cases call <;>
    simp only [Services.invoke, services, invoke, answer_query, answer_changeCatalog,
      answer_changeFiles, answer_changeJobs, answer_submitRead] <;> rfl

/-- The machine answers every call through its services. -/
theorem services_backend (time : String) : (services time).backend = backend time := by
  rw [Services.backend, backend, funext fun call => funext (services_invoke time call)]

end Machine

end MvsGateway.Host
