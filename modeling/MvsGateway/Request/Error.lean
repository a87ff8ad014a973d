import MvsGateway.Request.Basic

/-!
# Request errors

Why a request fails, and what the caller is told. A request that is refused
before it reaches the host is the caller's fault; a refusal by the host is not.
-/

namespace MvsGateway

/-- What is missing or wrong in a request. -/
inductive Fault
  | emptyBody
  | recordsShape
  | recordsRange
  | levelRequired
  | levelTooLong
  | memberInListing
  | notANumber (option : String)
  | outOfRange (option : String)
  | pathRequired
  | modeRequired
  | ownerRequired
  | tagRequired
  | requestType (text : String)
  | bodyNotObject
  | entryType
  | jclRequired
  | spoolDeletion
  | unsupported (verb : Verb) (target : Target)
  /-- A fault in the words of whoever found it. -/
  | stated (message : String)
  deriving DecidableEq, Repr

def Fault.message : Fault → String
  | .emptyBody => "body cannot be empty"
  | .recordsShape => "records must be a string or an array of integers"
  | .recordsRange => "records array must contain integers 0-255"
  | .levelRequired => "dslevel parameter is required"
  | .levelTooLong => "data set pattern exceeds 44 character length limit"
  | .memberInListing => "member listing requires a data set name without a member"
  | .notANumber option => option ++ " must be a number"
  | .outOfRange option => option ++ " is out of range"
  | .pathRequired => "path parameter is required"
  | .modeRequired => "mode is required for chmod operation"
  | .ownerRequired => "owner is required for chown operation"
  | .tagRequired => "tag is required for chtag operation"
  | .requestType text => "unsupported request type '" ++ text ++ "'"
  | .bodyNotObject => "request body must be a JSON object"
  | .entryType => "type must be 'file' or 'directory'"
  | .jclRequired => "JCL content is required"
  | .spoolDeletion => "only jobs can be deleted; spool files are removed with their job"
  | .unsupported verb target => verb.text ++ " is not supported for '" ++ target.text ++ "'"
  | .stated message => message

inductive RequestError
  | invalid (fault : Fault)
  | mode (cause : ModeError)
  | path (cause : PathError)
  /-- The host refused the call; `details` is its own message. -/
  | host (message details : String)
  | notFound (message : String)
  deriving DecidableEq, Repr

def RequestError.message : RequestError → String
  | .invalid fault => fault.message
  | .mode cause => cause.message
  | .path cause => cause.message
  | .host message _ => message
  | .notFound message => message

end MvsGateway
