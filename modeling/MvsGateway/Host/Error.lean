/-!
# Host failures

Why the host refuses a call. Each cause carries the names that its message
shows.
-/

namespace MvsGateway.Host

/-- What a call looked for. -/
inductive Kind
  | dataSet
  | member
  | path
  | job
  | spoolFile
  deriving DecidableEq, Repr

def Kind.text : Kind → String
  | .dataSet => "data set"
  | .member => "member"
  | .path => "path"
  | .job => "job"
  | .spoolFile => "spool file"

/-- Why a call does not apply to its target. -/
inductive Refusal
  | notPartitioned (name : String)
  | memberRequired (name : String)
  | memberInAllocation
  | notAMember (dsn : String)
  | dataSetName (name : String)
  | qualifier (text name : String)
  | isDirectory (path : String)
  | notDirectory (path : String)
  | mode (text : String)
  | deleteRoot
  | notEmpty (path : String)
  | blankOwner
  | noJobStatement
  deriving DecidableEq, Repr

def Refusal.message : Refusal → String
  | .notPartitioned name => "data set '" ++ name ++ "' is not partitioned"
  | .memberRequired name =>
    "data set '" ++ name ++ "' is partitioned; a member name is required"
  | .memberInAllocation => "cannot allocate a data set with a member name"
  | .notAMember dsn => "'" ++ dsn ++ "' does not name a member"
  | .dataSetName name => "invalid data set name '" ++ name ++ "'"
  | .qualifier text name =>
    "invalid qualifier '" ++ text ++ "' in data set name '" ++ name ++ "'"
  | .isDirectory path => "'" ++ path ++ "' is a directory"
  | .notDirectory path => "'" ++ path ++ "' is not a directory"
  | .mode text => "invalid permission mode '" ++ text ++ "'"
  | .deleteRoot => "cannot delete the root directory"
  | .notEmpty path => "directory not empty: " ++ path
  | .blankOwner => "owner cannot be empty"
  | .noJobStatement => "no valid JOB statement found in JCL"

inductive Error
  | notFound (kind : Kind) (name : String)
  | alreadyExists (kind : Kind) (name : String)
  /-- The caller expected content with another tag. -/
  | etagMismatch (name expected actual : String)
  | invalid (cause : Refusal)
  /-- A failure that the host reports in its own words. -/
  | failed (reason : String)
  deriving DecidableEq, Repr

def Error.message : Error → String
  | .notFound kind name => kind.text ++ " '" ++ name ++ "' not found"
  | .alreadyExists kind name => kind.text ++ " '" ++ name ++ "' already exists"
  | .etagMismatch name expected actual =>
    "etag mismatch for '" ++ name ++ "': expected " ++ expected ++ ", found " ++ actual
  | .invalid cause => cause.message
  | .failed reason => reason

end MvsGateway.Host
