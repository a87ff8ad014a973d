import MvsGateway.Host.Error
import MvsGateway.Host.Record

/-!
# Host calls

The calls that a host answers, and the shapes of its answers. An empty
encoding or tag means that the caller gave none.
-/

namespace MvsGateway.Host

inductive Call
  | listDataSets (pattern : String)
  | listMembers (dsn : String)
  | readDataSet (dsn encoding : String)
  | writeDataSet (dsn data encoding etag : String)
  | createMember (dsn : String)
  | createDataSet (dsn : String) (attributes : Attributes)
  | deleteDataSet (dsn : String)
  | listDirectory (path : String)
  | readUnixFile (path encoding : String)
  | writeUnixFile (path data encoding etag : String)
  | createFile (path mode : String)
  | createDirectory (path mode : String)
  | deletePath (path : String) (recursive : Bool)
  | changeMode (path mode : String) (recursive : Bool)
  | changeOwner (path owner : String) (recursive : Bool)
  | changeTag (path tag : String) (recursive : Bool)
  | jobStatus (id : String)
  | listJobs (owner : String)
  | listSpoolFiles (id : String)
  | readSpoolFile (id : String) (key : Nat)
  | jobText (id : String)
  | submit (jcl : String)
  | submitDataSet (dsn : String)
  | submitFile (path : String)
  | deleteJob (id : String)
  deriving DecidableEq, Repr

inductive Output
  | dataSets (entries : List DataSetEntry)
  | members (entries : List MemberEntry)
  /-- Content, or the listing of a directory. -/
  | text (content : String)
  | etag (tag : String)
  | done
  | job (entry : JobEntry)
  | jobs (entries : List JobEntry)
  | spoolFiles (entries : List SpoolFileEntry)
  | jobId (id : String)
  deriving DecidableEq, Repr

/-- A host's answer: an output or the cause of its refusal. -/
abbrev Answer := Except Error Output

/-- A host with states of type `σ`. A call may change the state even if it is
refused, so the state afterwards stands beside the answer. -/
structure Backend (σ : Type) where
  invoke : Call → σ → Answer × σ

/-- The name under which a call is reported. -/
def Call.name : Call → String
  | .listDataSets .. => "list-datasets"
  | .listMembers .. => "list-members"
  | .readDataSet .. => "read-dataset"
  | .writeDataSet .. => "write-dataset"
  | .createMember .. => "create-member"
  | .createDataSet .. => "create-dataset"
  | .deleteDataSet .. => "delete-dataset"
  | .listDirectory .. => "list-uss-dir"
  | .readUnixFile .. => "read-uss-file"
  | .writeUnixFile .. => "write-uss-file"
  | .createFile .. => "create-uss-file"
  | .createDirectory .. => "create-uss-dir"
  | .deletePath .. => "delete-uss-item"
  | .changeMode .. => "chmod-uss-item"
  | .changeOwner .. => "chown-uss-item"
  | .changeTag .. => "chtag-uss-item"
  | .jobStatus .. => "get-job-status"
  | .listJobs .. => "list-jobs-by-owner"
  | .listSpoolFiles .. => "list-spool-files"
  | .readSpoolFile .. => "read-spool-file"
  | .jobText .. => "get-job-jcl"
  | .submit .. => "submit-job"
  | .submitDataSet .. => "submit-job-from-dataset"
  | .submitFile .. => "submit-job-from-uss-file"
  | .deleteJob .. => "delete-job"

end MvsGateway.Host
