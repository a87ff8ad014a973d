import MvsGateway.Text

/-!
# Targets

What a request acts on: data sets and their members, files and directories,
jobs and their spool files. A target has one written form for messages.
-/

namespace MvsGateway

/-- A job by identifier, with its name or without, or by correlator. -/
inductive JobRef
  | id (jobname : Option String) (jobid : String)
  | correlator (correlator : String)
  deriving DecidableEq, Repr

namespace JobRef

/-- What the host knows the job by. -/
def hostId : JobRef → String
  | .id _ jobid => jobid
  | .correlator text => text

def text : JobRef → String
  | .id (some jobname) jobid => jobname ++ "/" ++ jobid
  | .id none jobid => jobid
  | .correlator text => text

end JobRef

/-- A spool file by number, or the text that was submitted. -/
inductive FileKey
  | jcl
  | number (n : Nat)
  deriving DecidableEq, Repr

def FileKey.text : FileKey → String
  | .jcl => "JCL"
  | .number n => Text.decimal n

inductive Target
  /-- The data sets at a level of the catalog. -/
  | dataSetLevel (level : String)
  | dataSet (name : String)
  | member (dataSet member : String)
  | onVolume (volume : String) (target : Target)
  | directory (path : String)
  | file (path : String)
  /-- The jobs of an owner. -/
  | jobOwner (owner : String)
  /-- The queue that takes new jobs. -/
  | jobQueue
  | job (job : JobRef)
  | spoolFiles (job : JobRef)
  | spoolFile (job : JobRef) (key : FileKey)
  deriving DecidableEq, Repr

namespace Target

/-- The data set without member and volume. -/
def dataSetName? : Target → Option String
  | .dataSet name => some name
  | .member name _ => some name
  | .onVolume _ target => target.dataSetName?
  | _ => none

def memberName? : Target → Option String
  | .member _ name => some name
  | .onVolume _ target => target.memberName?
  | _ => none

def volume? : Target → Option String
  | .onVolume volume _ => some volume
  | _ => none

/-- `NAME` or `NAME(MEMBER)`, as the host takes it. -/
def dsn? (t : Target) : Option String :=
  t.dataSetName?.map fun name =>
    match t.memberName? with
    | some inner => name ++ "(" ++ inner ++ ")"
    | none => name

def path? : Target → Option String
  | .file path => some path
  | .directory path => some path
  | _ => none

def job? : Target → Option JobRef
  | .job ref => some ref
  | .spoolFiles ref => some ref
  | .spoolFile ref _ => some ref
  | _ => none

/-- The written form. -/
def text (t : Target) : String :=
  match t with
  | .dataSetLevel level => level
  | .dataSet _ | .member .. | .onVolume .. => t.dsn?.getD ""
  | .directory path => path
  | .file path => path
  | .jobOwner owner => owner
  | .jobQueue => "JES"
  | .job ref => ref.text
  | .spoolFiles ref => ref.text
  | .spoolFile ref key => ref.text ++ "/" ++ key.text

end Target

end MvsGateway
