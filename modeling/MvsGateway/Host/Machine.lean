import MvsGateway.Host.Catalog
import MvsGateway.Host.FileTree
import MvsGateway.Host.JobQueue

/-!
# A host in memory

A catalog, a file tree and a job queue that act on behalf of one user. A run
of calls is the fold of `invoke`.
-/

namespace MvsGateway.Host

structure Machine where
  user : String
  catalog : Catalog
  files : FileTree
  jobs : JobQueue
  deriving DecidableEq

namespace Machine

/-- The empty machine of a user, whose name counts in upper case. -/
def initial (user : String) : Machine :=
  let user := Text.upper user
  ⟨user, .empty, .initial user, .empty⟩

/-! ## Parts of a machine -/

def answer {α : Type} (output : α → Output) (r : Except Error α) : Answer := r.map output

def onCatalog {α : Type} (s : Machine) (output : α → Output) (r : Except Error α × Catalog) :
    Answer × Machine :=
  (answer output r.1, { s with catalog := r.2 })

def onFiles {α : Type} (s : Machine) (output : α → Output) (r : Except Error α × FileTree) :
    Answer × Machine :=
  (answer output r.1, { s with files := r.2 })

def onJobs {α : Type} (s : Machine) (output : α → Output) (r : Except Error α × JobQueue) :
    Answer × Machine :=
  (answer output r.1, { s with jobs := r.2 })

@[simp] theorem answer_eq_error_iff {α : Type} {output : α → Output} {r : Except Error α}
    {e : Error} : answer output r = .error e ↔ r = .error e := by
  cases r <;> simp [answer, Except.map]

@[simp] theorem answer_eq_ok_iff {α : Type} {output : α → Output} {r : Except Error α}
    {o : Output} : answer output r = .ok o ↔ ∃ a, r = .ok a ∧ output a = o := by
  cases r <;> simp [answer, Except.map]

@[simp] theorem onCatalog_fst {α : Type} (s : Machine) (output : α → Output)
    (r : Except Error α × Catalog) : (s.onCatalog output r).1 = answer output r.1 := rfl

@[simp] theorem onCatalog_snd {α : Type} (s : Machine) (output : α → Output)
    (r : Except Error α × Catalog) : (s.onCatalog output r).2 = { s with catalog := r.2 } := rfl

@[simp] theorem onFiles_fst {α : Type} (s : Machine) (output : α → Output)
    (r : Except Error α × FileTree) : (s.onFiles output r).1 = answer output r.1 := rfl

@[simp] theorem onFiles_snd {α : Type} (s : Machine) (output : α → Output)
    (r : Except Error α × FileTree) : (s.onFiles output r).2 = { s with files := r.2 } := rfl

/-- Where every refusal keeps the machine, no refusal changes it. -/
theorem not_refused_and_changed {α : Type} {output : α → Output} {r : Except Error α}
    {s next : Machine} (h : ∀ e, r = .error e → next = s) :
    ¬((∃ e, answer output r = .error e) ∧ next ≠ s) := by
  rintro ⟨⟨e, he⟩, hchanged⟩
  rw [answer_eq_error_iff] at he
  exact hchanged (h e he)

/-- Submits a text that may have failed to be read. -/
def submitText (time : String) (s : Machine) (jcl : Except Error String) : Answer × Machine :=
  match jcl with
  | .error e => (.error e, s)
  | .ok jcl => s.onJobs .jobId (s.jobs.submit time jcl s.user)

/-! ## Calls -/

/-- The answer to a call at a time of day, and the machine after it. -/
def invoke (time : String) : Call → Machine → Answer × Machine
  | .listDataSets pattern, s => (.ok (.dataSets (s.catalog.list pattern)), s)
  | .listMembers dsn, s => (answer .members (s.catalog.members dsn), s)
  | .readDataSet dsn _, s => (answer .text (s.catalog.read dsn), s)
  | .writeDataSet dsn data _ etag, s => s.onCatalog .etag (s.catalog.write dsn data etag)
  | .createMember dsn, s => s.onCatalog (fun _ => .done) (s.catalog.createMember dsn)
  | .createDataSet dsn attributes, s =>
    s.onCatalog (fun _ => .done) (s.catalog.create dsn attributes)
  | .deleteDataSet dsn, s => s.onCatalog (fun _ => .done) (s.catalog.delete dsn)
  | .listDirectory path, s => (answer .text (s.files.list path), s)
  | .readUnixFile path _, s => (answer .text (s.files.read path), s)
  | .writeUnixFile path data _ etag, s => s.onFiles .etag (s.files.write path data etag s.user)
  | .createFile path mode, s => s.onFiles (fun _ => .done) (s.files.createFile path mode s.user)
  | .createDirectory path mode, s =>
    s.onFiles (fun _ => .done) (s.files.createDirectory path mode s.user)
  | .deletePath path recursive, s => s.onFiles (fun _ => .done) (s.files.delete path recursive)
  | .changeMode path mode recursive, s =>
    s.onFiles (fun _ => .done) (s.files.changeMode path mode recursive)
  | .changeOwner path owner recursive, s =>
    s.onFiles (fun _ => .done) (s.files.changeOwner path owner recursive)
  | .changeTag path tag recursive, s =>
    s.onFiles (fun _ => .done) (s.files.changeTag path tag recursive)
  | .jobStatus id, s => (answer .job (s.jobs.status id), s)
  | .listJobs owner, s => (.ok (.jobs (s.jobs.listByOwner owner)), s)
  | .listSpoolFiles id, s => (answer .spoolFiles (s.jobs.spoolFiles id), s)
  | .readSpoolFile id key, s => (answer .text (s.jobs.readSpool id key), s)
  | .jobText id, s => (answer .text (s.jobs.jcl id), s)
  | .submit jcl, s => s.submitText time (.ok jcl)
  | .submitDataSet dsn, s => s.submitText time (s.catalog.read dsn)
  | .submitFile path, s => s.submitText time (s.files.read path)
  | .deleteJob id, s => s.onJobs (fun _ => .done) (s.jobs.purge id)

/-- The machine as a host, at a fixed time of day. -/
def backend (time : String) : Backend Machine := ⟨invoke time⟩

@[simp] theorem backend_invoke (time : String) (call : Call) (s : Machine) :
    (backend time).invoke call s = invoke time call s := rfl

/-- The machine after a run of calls. -/
def run (time : String) (calls : List Call) (s : Machine) : Machine :=
  calls.foldl (fun s call => (invoke time call s).2) s

/-- The machine after calls of any callers, each with its own time of day. -/
def after (s : Machine) (history : List (String × Call)) : Machine :=
  history.foldl (fun s (time, call) => (invoke time call s).2) s

end Machine

end MvsGateway.Host
