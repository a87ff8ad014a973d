import MvsGateway.Mode
import MvsGateway.Host.Record
import MvsGateway.Target.Reader

/-!
# Requests

A request says what to do with a target. It is valid by the time it is built:
its options are read and its body is decoded.
-/

namespace MvsGateway

inductive Verb
  | list
  | read
  | write
  | create
  | delete
  | chmod
  | chown
  | chtag
  | submit
  deriving DecidableEq, Repr

def Verb.text : Verb → String
  | .list => "list"
  | .read => "read"
  | .write => "write"
  | .create => "create"
  | .delete => "delete"
  | .chmod => "chmod"
  | .chown => "chown"
  | .chtag => "chtag"
  | .submit => "submit"

/-- The options that every endpoint takes. -/
structure Options where
  /-- How many items of a collection to keep. -/
  maxEntries : Option Nat := none
  /-- Whether the reply notes truncation and emptiness. -/
  warn : Bool := true
  csvFormat : Bool := false
  bytesFormat : Bool := false
  includeAttributes : Bool := false
  encoding : Option String := none
  /-- The tag that the caller expects the content to have. -/
  etag : Option String := none
  /-- Whether the reply to a write leaves out its message. -/
  etagOnly : Bool := false
  returnEtag : Bool := false
  recursive : Bool := false
  showHidden : Bool := false
  longFormat : Bool := false
  deriving DecidableEq, Repr

inductive EntryKind
  | file
  | directory
  deriving DecidableEq, Repr

def EntryKind.text : EntryKind → String
  | .file => "file"
  | .directory => "directory"

/-- The mode of an entry that is created without one. -/
def EntryKind.defaultMode : EntryKind → Mode
  | .file => Mode.file
  | .directory => Mode.directory

/-- Where the text of a submitted job comes from. -/
inductive JclSource
  | inline (jcl : String)
  | dataSet (dsn : String)
  | file (path : String)
  deriving DecidableEq, Repr

inductive Payload
  | none
  | content (data : String)
  | allocation (attributes : Host.Attributes)
  | entry (kind : EntryKind) (mode : Mode)
  | mode (mode : Mode)
  | owner (owner : String)
  | tag (tag : String)
  | jcl (source : JclSource)
  deriving DecidableEq, Repr

structure Request where
  verb : Verb
  target : Target
  options : Options := {}
  payload : Payload := .none
  /-- The accepted options that the host cannot honor. -/
  gaps : List String := []
  deriving DecidableEq, Repr

namespace Request

/-- Notes an option that the host cannot honor, if it is given. -/
def gapIf (r : Request) (given : Bool) (option : String) : Request :=
  if given then { r with gaps := r.gaps ++ [option] } else r

/-- What a reply says about an option that the host cannot honor. -/
def gapWarning (option : String) : String :=
  option ++ " parameter provided but not supported by current native function"

end Request

end MvsGateway
