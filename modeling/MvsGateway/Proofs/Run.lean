import MvsGateway.Host.Machine

/-!
# Runs of a machine

A property of the machine that every call keeps holds after every run. A call
changes one part of the machine at most, and only by the changes that the part
has. So a property of one part is kept if those changes keep it.
-/

namespace MvsGateway.Host

/-- The changes of a catalog keep the property. -/
structure Catalog.Kept (P : Catalog → Prop) : Prop where
  write : ∀ c dsn data etag, P c → P (c.write dsn data etag).2
  create : ∀ c dsn attributes, P c → P (c.create dsn attributes).2
  createMember : ∀ c dsn, P c → P (c.createMember dsn).2
  delete : ∀ c dsn, P c → P (c.delete dsn).2

/-- The changes of a file tree keep the property. -/
structure FileTree.Kept (P : FileTree → Prop) : Prop where
  write : ∀ t path data etag owner, P t → P (t.write path data etag owner).2
  createFile : ∀ t path mode owner, P t → P (t.createFile path mode owner).2
  createDirectory : ∀ t path mode owner, P t → P (t.createDirectory path mode owner).2
  delete : ∀ t path recursive, P t → P (t.delete path recursive).2
  changeMode : ∀ t path mode recursive, P t → P (t.changeMode path mode recursive).2
  changeOwner : ∀ t path owner recursive, P t → P (t.changeOwner path owner recursive).2
  changeTag : ∀ t path tag recursive, P t → P (t.changeTag path tag recursive).2

namespace Machine

@[simp] theorem after_nil (s : Machine) : s.after [] = s := rfl

@[simp] theorem after_cons (s : Machine) (time : String) (call : Call)
    (history : List (String × Call)) :
    s.after ((time, call) :: history) = (invoke time call s).2.after history := rfl

@[simp] theorem onCatalog_catalog {α : Type} (s : Machine) (output : α → Output)
    (r : Except Error α × Catalog) : (s.onCatalog output r).2.catalog = r.2 := rfl

@[simp] theorem onCatalog_files {α : Type} (s : Machine) (output : α → Output)
    (r : Except Error α × Catalog) : (s.onCatalog output r).2.files = s.files := rfl

@[simp] theorem onFiles_catalog {α : Type} (s : Machine) (output : α → Output)
    (r : Except Error α × FileTree) : (s.onFiles output r).2.catalog = s.catalog := rfl

@[simp] theorem onFiles_files {α : Type} (s : Machine) (output : α → Output)
    (r : Except Error α × FileTree) : (s.onFiles output r).2.files = r.2 := rfl

@[simp] theorem onJobs_catalog {α : Type} (s : Machine) (output : α → Output)
    (r : Except Error α × JobQueue) : (s.onJobs output r).2.catalog = s.catalog := rfl

@[simp] theorem onJobs_files {α : Type} (s : Machine) (output : α → Output)
    (r : Except Error α × JobQueue) : (s.onJobs output r).2.files = s.files := rfl

@[simp] theorem onCatalog_user {α : Type} (s : Machine) (output : α → Output)
    (r : Except Error α × Catalog) : (s.onCatalog output r).2.user = s.user := rfl

@[simp] theorem onFiles_user {α : Type} (s : Machine) (output : α → Output)
    (r : Except Error α × FileTree) : (s.onFiles output r).2.user = s.user := rfl

@[simp] theorem onJobs_user {α : Type} (s : Machine) (output : α → Output)
    (r : Except Error α × JobQueue) : (s.onJobs output r).2.user = s.user := rfl

@[simp] theorem onCatalog_jobs {α : Type} (s : Machine) (output : α → Output)
    (r : Except Error α × Catalog) : (s.onCatalog output r).2.jobs = s.jobs := rfl

@[simp] theorem onFiles_jobs {α : Type} (s : Machine) (output : α → Output)
    (r : Except Error α × FileTree) : (s.onFiles output r).2.jobs = s.jobs := rfl

@[simp] theorem onJobs_jobs {α : Type} (s : Machine) (output : α → Output)
    (r : Except Error α × JobQueue) : (s.onJobs output r).2.jobs = r.2 := rfl

@[simp] theorem onJobs_fst {α : Type} (s : Machine) (output : α → Output)
    (r : Except Error α × JobQueue) : (s.onJobs output r).1 = answer output r.1 := rfl

/-- What every call keeps, a run keeps. -/
theorem after_keeps {P : Machine → Prop} (hstep : ∀ time call s, P s → P (invoke time call s).2)
    {s : Machine} (h : P s) (history : List (String × Call)) : P (s.after history) := by
  induction history generalizing s with
  | nil => exact h
  | cons step history ih =>
    obtain ⟨time, call⟩ := step
    exact ih (hstep time call s h)

@[simp] theorem submitText_catalog (time : String) (s : Machine) (jcl : Except Error String) :
    (s.submitText time jcl).2.catalog = s.catalog := by
  cases jcl <;> rfl

@[simp] theorem submitText_files (time : String) (s : Machine) (jcl : Except Error String) :
    (s.submitText time jcl).2.files = s.files := by
  cases jcl <;> rfl

@[simp] theorem submitText_user (time : String) (s : Machine) (jcl : Except Error String) :
    (s.submitText time jcl).2.user = s.user := by
  cases jcl <;> rfl

@[simp] theorem invoke_user (time : String) (call : Call) (s : Machine) :
    (invoke time call s).2.user = s.user := by
  cases call <;>
    simp only [invoke, onCatalog_user, onFiles_user, onJobs_user, submitText_user]

theorem invoke_keeps_catalog {P : Catalog → Prop} (hkept : Catalog.Kept P) (time : String)
    (call : Call) (s : Machine) (h : P s.catalog) : P (invoke time call s).2.catalog := by
  cases call with
  | writeDataSet dsn data _ etag =>
    rw [invoke, onCatalog_catalog]
    exact hkept.write s.catalog dsn data etag h
  | createMember dsn =>
    rw [invoke, onCatalog_catalog]
    exact hkept.createMember s.catalog dsn h
  | createDataSet dsn attributes =>
    rw [invoke, onCatalog_catalog]
    exact hkept.create s.catalog dsn attributes h
  | deleteDataSet dsn =>
    rw [invoke, onCatalog_catalog]
    exact hkept.delete s.catalog dsn h
  | _ => simpa only [invoke, onFiles_catalog, onJobs_catalog, submitText_catalog] using h

theorem invoke_keeps_files {P : FileTree → Prop} (hkept : FileTree.Kept P) (time : String)
    (call : Call) (s : Machine) (h : P s.files) : P (invoke time call s).2.files := by
  cases call with
  | writeUnixFile path data _ etag =>
    rw [invoke, onFiles_files]
    exact hkept.write s.files path data etag s.user h
  | createFile path mode =>
    rw [invoke, onFiles_files]
    exact hkept.createFile s.files path mode s.user h
  | createDirectory path mode =>
    rw [invoke, onFiles_files]
    exact hkept.createDirectory s.files path mode s.user h
  | deletePath path recursive =>
    rw [invoke, onFiles_files]
    exact hkept.delete s.files path recursive h
  | changeMode path mode recursive =>
    rw [invoke, onFiles_files]
    exact hkept.changeMode s.files path mode recursive h
  | changeOwner path owner recursive =>
    rw [invoke, onFiles_files]
    exact hkept.changeOwner s.files path owner recursive h
  | changeTag path tag recursive =>
    rw [invoke, onFiles_files]
    exact hkept.changeTag s.files path tag recursive h
  | _ => simpa only [invoke, onCatalog_files, onJobs_files, submitText_files] using h

theorem after_keeps_catalog {P : Catalog → Prop} (hkept : Catalog.Kept P) {s : Machine}
    (h : P s.catalog) (history : List (String × Call)) : P (s.after history).catalog :=
  after_keeps (P := fun s => P s.catalog) (invoke_keeps_catalog hkept) h history

theorem after_keeps_files {P : FileTree → Prop} (hkept : FileTree.Kept P) {s : Machine}
    (h : P s.files) (history : List (String × Call)) : P (s.after history).files :=
  after_keeps (P := fun s => P s.files) (invoke_keeps_files hkept) h history

end Machine

end MvsGateway.Host
