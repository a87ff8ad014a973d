import MvsGateway.Host.Call
import MvsGateway.Request.Endpoint

/-!
# Plans

A request is served by one host call. The plan of a request is that call, or
the reason why there is none. When the host refuses the call, the error names
what could not be done and to what.
-/

namespace MvsGateway

open Host (Call)

namespace Request

def unsupported (r : Request) : RequestError := .invalid (.unsupported r.verb r.target)

def dsn (r : Request) : Except RequestError String :=
  match r.target.dsn? with
  | some dsn => .ok dsn
  | none => .error r.unsupported

def content (r : Request) : Except RequestError String :=
  match r.payload with
  | .content data => .ok data
  | _ => .error (.invalid .emptyBody)

/-! ## Plans by verb -/

def planList (r : Request) : Except RequestError Call :=
  match r.target with
  | .dataSetLevel level => .ok (.listDataSets (Endpoint.levelPattern level))
  | .dataSet _ | .onVolume .. =>
    if r.target.memberName?.isSome then .error r.unsupported
    else do return .listMembers (← r.dsn)
  | .directory path => .ok (.listDirectory path)
  | .jobOwner owner => .ok (.listJobs owner)
  | .spoolFiles ref => .ok (.listSpoolFiles ref.hostId)
  | _ => .error r.unsupported

def planRead (r : Request) : Except RequestError Call :=
  let encoding := r.options.encoding.getD ""
  match r.target with
  | .file path => .ok (.readUnixFile path encoding)
  | .job ref => .ok (.jobStatus ref.hostId)
  | .spoolFile ref .jcl => .ok (.jobText ref.hostId)
  | .spoolFile ref (.number key) => .ok (.readSpoolFile ref.hostId key)
  | _ => do return .readDataSet (← r.dsn) encoding

def planWrite (r : Request) : Except RequestError Call :=
  let encoding := r.options.encoding.getD ""
  let etag := r.options.etag.getD ""
  match r.target with
  | .file path => do return .writeUnixFile path (← r.content) encoding etag
  | _ => do
    let dsn ← r.dsn
    return .writeDataSet dsn (← r.content) encoding etag

def planCreate (r : Request) : Except RequestError Call :=
  match r.target with
  | .file path =>
    match r.payload with
    | .entry .file mode => .ok (.createFile path mode.text)
    | .entry .directory mode => .ok (.createDirectory path mode.text)
    | _ => .error r.unsupported
  | _ =>
    if r.target.memberName?.isSome then do return .createMember (← r.dsn)
    else match r.payload with
      | .allocation attributes => do return .createDataSet (← r.dsn) attributes
      | _ => .error r.unsupported

def planDelete (r : Request) : Except RequestError Call :=
  match r.target with
  | .file path => .ok (.deletePath path r.options.recursive)
  | .job ref => .ok (.deleteJob ref.hostId)
  | _ => do return .deleteDataSet (← r.dsn)

/-- The change of mode, owner or tag that the verb and the payload agree on. -/
def planChange (r : Request) : Except RequestError Call :=
  match r.target, r.verb, r.payload with
  | .file path, .chmod, .mode mode => .ok (.changeMode path mode.text r.options.recursive)
  | .file path, .chown, .owner owner => .ok (.changeOwner path owner r.options.recursive)
  | .file path, .chtag, .tag tag => .ok (.changeTag path tag r.options.recursive)
  | _, _, _ => .error r.unsupported

def planSubmit (r : Request) : Except RequestError Call :=
  match r.target, r.payload with
  | .jobQueue, .jcl (.inline jcl) => .ok (.submit jcl)
  | .jobQueue, .jcl (.dataSet dsn) => .ok (.submitDataSet dsn)
  | .jobQueue, .jcl (.file path) => .ok (.submitFile path)
  | .jobQueue, _ => .error (.invalid .jclRequired)
  | _, _ => .error r.unsupported

/-- The host call that serves a request. -/
def plan (r : Request) : Except RequestError Call :=
  match r.verb with
  | .list => r.planList
  | .read => r.planRead
  | .write => r.planWrite
  | .create => r.planCreate
  | .delete => r.planDelete
  | .chmod | .chown | .chtag => r.planChange
  | .submit => r.planSubmit

/-! ## Refusals -/

/-- What could not be done. -/
def failureLead (r : Request) : Call → String
  | .listDataSets .. => "could not list data set"
  | .listMembers .. | .readDataSet .. => "could not read data set"
  | .writeDataSet .. => "could not write data set"
  | .createMember .. => "could not create member"
  | .createDataSet .. => "could not create data set"
  | .deleteDataSet .. =>
    if r.target.memberName?.isSome then "could not delete member" else "could not delete data set"
  | .listDirectory .. => "could not list USS files"
  | .readUnixFile .. => "could not view USS file"
  | .writeUnixFile .. => "could not write USS file"
  | .createFile .. => "could not create USS file"
  | .createDirectory .. => "could not create USS directory"
  | .deletePath .. => "could not delete USS item"
  | .changeMode .. => "could not change mode of USS item"
  | .changeOwner .. => "could not change owner of USS item"
  | .changeTag .. => "could not change tag of USS item"
  | .jobStatus .. => "could not get job status"
  | .listJobs .. => "could not list jobs"
  | .listSpoolFiles .. => "could not list spool files"
  | .readSpoolFile .. => "could not read spool file"
  | .jobText .. => "could not read job JCL"
  | .submit .. | .submitDataSet .. | .submitFile .. => "could not submit job"
  | .deleteJob .. => "could not delete job"

/-- What it could not be done to: the source of a job, or the target. -/
def failureTarget (r : Request) : String :=
  match r.target, r.payload with
  | .jobQueue, .jcl (.dataSet dsn) => dsn
  | .jobQueue, .jcl (.file path) => path
  | target, _ => target.text

/-- The error for a call that the host refused. -/
def hostError (r : Request) (call : Call) (e : Host.Error) : RequestError :=
  .host (r.failureLead call ++ ": '" ++ r.failureTarget ++ "' - " ++ e.message) e.message

end Request

end MvsGateway
