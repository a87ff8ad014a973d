import MvsGateway.Request.Body
import MvsGateway.Request.Query

/-!
# Endpoints

Each endpoint makes a request of the path behind its route, the query and the
body, or says what is wrong with them. No endpoint touches the host.
-/

namespace MvsGateway

inductive Endpoint
  | listDataSets
  | listMembers
  | readDataSet
  | writeDataSet
  | createDataSet
  | deleteDataSet
  | listFiles
  | readUnixFile
  | putFile
  | createFile
  | deleteFile
  | listJobs
  | getJob
  | submitJob
  | deleteJob
  deriving DecidableEq, Repr

namespace Endpoint

def readPath (parse : String → Except PathError Target) (raw : String) :
    Except RequestError Target :=
  (parse raw).mapError .path

def readMode (raw : String) : Except RequestError Mode := (Mode.ofText raw).mapError .mode

/-- The field, or the fault that it is missing. -/
def require {α : Type} (fault : Fault) : Option α → Except RequestError α
  | some a => .ok a
  | none => .error (.invalid fault)

/-! ## Data sets -/

/-- The longest level, in characters. -/
def maxLevel : Nat := 44

def listDataSetsRequest (q : Query) : Except RequestError Request := do
  let level ← require .levelRequired (q.nonEmpty? "dslevel")
  if level.toList.length > maxLevel then .error (.invalid .levelTooLong)
  else
    .ok (({ verb := .list, target := .dataSetLevel level, options := q.options : Request }.gapIf
      (q.present "volser") "volser").gapIf (q.present "start") "start")

/-- The pattern under which the host lists a level: the level and everything
below it. -/
def levelPattern (level : String) : String := level ++ ".**"

/-- A request for a data set, whose volume the host cannot honor. -/
def dataSetRequest (verb : Verb) (raw : String) (q : Query) : Except RequestError Request := do
  let target ← readPath Target.ofDataSetPath raw
  return { verb, target, options := q.options : Request }.gapIf
    (q.present "volser" || target.volume?.isSome) "volser"

def listMembersRequest (raw : String) (q : Query) : Except RequestError Request := do
  let request ← dataSetRequest .list raw q
  if request.target.memberName?.isSome then .error (.invalid .memberInListing)
  else
    .ok ((request.gapIf (q.present "start") "start").gapIf (q.present "pattern") "pattern")

def writeDataSetRequest (raw : String) (q : Query) (body : Body) :
    Except RequestError Request := do
  let request ← dataSetRequest .write raw q
  let content ← body.content
  return { request with payload := .content content }

/-- Allocates a data set, or creates the member that the path names. -/
def createDataSetRequest (raw : String) (q : Query) : Except RequestError Request := do
  let request ← dataSetRequest .create raw q
  if request.target.memberName?.isSome then .ok request
  else
    let attributes ← q.attributes
    .ok { request with payload := .allocation attributes }

/-! ## Files -/

def fileRequest (verb : Verb) (raw : String) (q : Query) : Request :=
  { verb, target := Target.ofFilePath raw, options := q.options }

def listFilesRequest (q : Query) : Except RequestError Request := do
  let path ← q.path
  return ({ verb := .list, target := .directory path, options := q.options : Request }.gapIf
    q.options.showHidden "all").gapIf q.options.longFormat "long"

def readFileRequest (raw : String) (q : Query) : Request :=
  (fileRequest .read raw q).gapIf (q.present "pipe-path") "pipe-path"

def writeFileRequest (raw : String) (q : Query) (body : Body) : Except RequestError Request := do
  let content ← body.content
  return { (fileRequest .write raw q).gapIf (q.present "pipe-path") "pipe-path" with
    payload := .content content }

/-- A change of mode, owner or tag, as the field `request` of the body says. -/
def changeFileRequest (raw : String) (q : Query) (fields : Json.Fields) :
    Except RequestError Request := do
  let options := { q.options with
    recursive := ((fields.get? "recursive").bind Json.asBool?).getD q.options.recursive }
  let change (verb : Verb) (payload : Payload) : Request :=
    { fileRequest verb raw q with options, payload }
  match ((fields.get? "request").bind Json.asString?).getD "" with
  | "chmod" =>
    let mode ← require .modeRequired (Body.textField? fields "mode")
    return change .chmod (.mode (← readMode mode))
  | "chown" =>
    let owner ← require .ownerRequired (Body.textField? fields "owner")
    return change .chown (.owner owner)
  | "chtag" =>
    let tag ← require .tagRequired
      ((Body.textField? fields "tag").or (Body.textField? fields "codeset"))
    return change .chtag (.tag tag)
  | other => .error (.invalid (.requestType other))

def putFileRequest (raw : String) (q : Query) (body : Body) : Except RequestError Request :=
  match body.object? with
  | some fields =>
    if (fields.get? "request").isSome then changeFileRequest raw q fields
    else writeFileRequest raw q body
  | none => writeFileRequest raw q body

def entryKind (fields : Json.Fields) : Except RequestError EntryKind :=
  match (fields.get? "type").bind Json.asString? with
  | some "file" => .ok .file
  | some "directory" | some "dir" => .ok .directory
  | _ => .error (.invalid .entryType)

def createFileRequest (raw : String) (q : Query) (body : Body) : Except RequestError Request := do
  let fields ← require .bodyNotObject body.object?
  let kind ← entryKind fields
  let mode ← match Body.textField? fields "mode" with
    | some text => readMode text
    | none => .ok kind.defaultMode
  return { fileRequest .create raw q with payload := .entry kind mode }

/-! ## Jobs -/

/-- The owner filter that every job passes. -/
def anyOwner : String := "*"

def listJobsRequest (q : Query) : Request :=
  { verb := .list, target := .jobOwner ((q.nonEmpty? "owner").getD anyOwner),
    options := q.options : Request }.gapIf (q.present "prefix") "prefix"

def getJobRequest (raw : String) (q : Query) : Except RequestError Request := do
  let target ← readPath Target.ofJobPath raw
  let request (verb : Verb) : Request := { verb, target, options := q.options }
  let stepData := ((q.get? "step-data").map (Text.sameLetters "y")).getD false
  return match target with
    | .job _ => (request .read).gapIf stepData "step-data"
    | .spoolFiles _ => request .list
    | _ => request .read

/-- The source of a job: a data set or a file that a JSON body names, or the
body itself. -/
def jclSource (body : Body) : Except RequestError JclSource :=
  match body.object? with
  | some fields =>
    match Body.textField? fields "dsn", Body.textField? fields "file" with
    | some dsn, _ => .ok (.dataSet dsn)
    | none, some path => .ok (.file (Target.absolutePath path))
    | none, none => .error (.invalid .jclRequired)
  | none =>
    if Text.isBlank body.text then .error (.invalid .jclRequired) else .ok (.inline body.text)

def submitJobRequest (body : Body) : Except RequestError Request := do
  let source ← jclSource body
  return { verb := .submit, target := .jobQueue, payload := .jcl source }

def deleteJobRequest (raw : String) : Except RequestError Request := do
  match ← readPath Target.ofJobPath raw with
  | .job ref => .ok { verb := .delete, target := .job ref }
  | _ => .error (.invalid .spoolDeletion)

/-! ## All endpoints -/

/-- The request that an endpoint makes of the path behind its route, the query
and the body. It passes over the parts it has no use for. -/
def accept (e : Endpoint) (raw : String) (q : Query) (body : Body) : Except RequestError Request :=
  match e with
  | .listDataSets => listDataSetsRequest q
  | .listMembers => listMembersRequest raw q
  | .readDataSet => dataSetRequest .read raw q
  | .writeDataSet => writeDataSetRequest raw q body
  | .createDataSet => createDataSetRequest raw q
  | .deleteDataSet => dataSetRequest .delete raw q
  | .listFiles => listFilesRequest q
  | .readUnixFile => .ok (readFileRequest raw q)
  | .putFile => putFileRequest raw q body
  | .createFile => createFileRequest raw q body
  | .deleteFile => .ok (fileRequest .delete raw q)
  | .listJobs => .ok (listJobsRequest q)
  | .getJob => getJobRequest raw q
  | .submitJob => submitJobRequest body
  | .deleteJob => deleteJobRequest raw

end Endpoint

end MvsGateway
