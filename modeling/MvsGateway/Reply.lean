import MvsGateway.Host.ContentTag
import MvsGateway.Plan

/-!
# Replies

What the caller of a successful request gets: a collection of items, content,
or the confirmation of a change. Warnings stand last, and only if there are
any.
-/

namespace MvsGateway

open Host (Output)

/-- A status and the fields of a JSON object. -/
structure Reply where
  status : Nat
  body : Json.Fields

namespace Reply

def ok (fields : List (String × Json)) : Reply := ⟨200, Json.Fields.ofList fields⟩

def created (fields : List (String × Json)) : Reply := ⟨201, Json.Fields.ofList fields⟩

theorem body_ok (fields : List (String × Json)) : (ok fields).body = Json.Fields.ofList fields := rfl

/-! ## Parts of a body -/

/-- The first items up to the limit, and whether some are left out. -/
def truncate {α : Type} (items : List α) (limit : Option Nat) : List α × Bool :=
  match limit with
  | some limit => if items.length > limit then (items.take limit, true) else (items, false)
  | none => (items, false)

/-- The text as an array with the code point of each character. -/
def codePoints (text : String) : Json := .array (text.toList.map fun c => Json.ofNat c.toNat)

/-- The tag of a file that is read: a digest of its path, its length in
characters and the second it is read in. -/
def readTag (path content : String) (second : Int) : String :=
  Host.contentTag (path ++ ":" ++ Text.decimal content.toList.length ++ ":" ++
    (Json.Number.whole second).text)

/-- The warnings of a reply in order: the options that the host cannot honor,
and where warnings are wanted truncation and emptiness. -/
def warnings (r : Request) (truncated : Bool) (empty : Option String) : List String :=
  let gaps := r.gaps.map Request.gapWarning
  if r.options.warn then
    gaps ++ (if truncated then ["results truncated"] else []) ++ empty.toList
  else gaps

/-- The field for the warnings, if there are any. -/
def warningField (notes : List String) : List (String × Json) :=
  if notes.isEmpty then [] else [("warnings", .array (notes.map .string))]

/-- The warnings of a reply that is no collection. -/
def gapField (r : Request) : List (String × Json) := warningField (warnings r false none)

/-- The items that are kept, their number, and the warnings. -/
def collection (r : Request) (items : List Json) (emptyNotice : Option String) :
    List (String × Json) :=
  let (kept, truncated) := truncate items r.options.maxEntries
  let empty := if kept.isEmpty then emptyNotice else none
  [("returnedRows", Json.ofNat kept.length), ("items", .array kept)] ++
    warningField (warnings r truncated empty)

def contentFields (options : Options) (content : String) : List (String × Json) :=
  if options.bytesFormat then [("records", codePoints content), ("format", .string "bytes")]
  else [("records", .string content), ("format", .string "text")]

/-- The text of an optional field, empty in its absence. -/
def orEmpty (text : Option String) : Json := .string (text.getD "")

/-- The job as the request names it. -/
def jobFields : JobRef → List (String × Json)
  | .id (some jobname) jobid => [("jobname", .string jobname), ("jobid", .string jobid)]
  | .id none jobid => [("jobid", .string jobid)]
  | .correlator correlator => [("job-correlator", .string correlator)]

def dataSetField (target : Target) : List (String × Json) :=
  [("datasetName", orEmpty target.dataSetName?)]

/-- The data set, and the member if the target is one. -/
def dataSetFields (target : Target) : List (String × Json) :=
  dataSetField target ++ target.memberName?.toList.map fun name => ("memberName", .string name)

/-! ## Items -/

/-- A data set in a listing: its name alone, or with its attributes. -/
def dataSetItem (options : Options) (e : Host.DataSetEntry) : Json :=
  .object <| Json.Fields.ofList <|
    if options.csvFormat || options.includeAttributes then
      [("name", orEmpty e.name), ("dsorg", orEmpty e.dsorg), ("volser", orEmpty e.volser),
        ("recfm", orEmpty e.recfm), ("migr", .bool (e.migr.getD false))]
    else [("name", orEmpty e.name)]

def memberItem (e : Host.MemberEntry) : Json := .object [("name", orEmpty e.name)]

/-- The type of a job, which the start of its identifier shows. -/
def jobType (jobid : String) : String :=
  if Text.startsWith "STC" jobid then "STC"
  else if Text.startsWith "TSU" jobid then "TSU"
  else "JOB"

def jobItemFields (e : Host.JobEntry) : List (String × Json) :=
  [("jobname", orEmpty e.jobname), ("jobid", orEmpty e.jobid), ("owner", orEmpty e.owner),
    ("status", orEmpty e.status), ("type", .string (jobType (e.jobid.getD ""))),
    ("retcode", orEmpty e.retcode), ("job-correlator", orEmpty e.correlator),
    ("phase-name", orEmpty e.fullStatus)]

def jobItem (e : Host.JobEntry) : Json := .object (Json.Fields.ofList (jobItemFields e))

def spoolFileItem (e : Host.SpoolFileEntry) : Json :=
  .object <| Json.Fields.ofList [("jobid", orEmpty e.jobid), ("ddname", orEmpty e.ddname),
    ("dsname", orEmpty e.dsname), ("stepname", orEmpty e.stepname),
    ("procstep", orEmpty e.procstep), ("id", Json.ofNat (e.key.getD 0))]

/-- The item for a name in the listing of a directory. -/
def nameItem (name : List Char) : Json :=
  .object <| Json.Fields.ofList [("name", .string (String.ofList name)),
    ("type", .string "unknown")]

/-- The items of a listing: those of a JSON array, a JSON object as the only
one, or one for each line that is not blank. -/
def listingItems (listing : String) : List Json :=
  match Json.read? listing with
  | some (.array items) => items
  | some (.object fields) => [.object fields]
  | _ =>
    (((Chars.lines listing.toList).map Chars.trim).filter (!·.isEmpty)).map nameItem

/-! ## Replies by verb -/

/-- The tag that a write reports: the host's, or that of the content where the
host gives none. -/
def writtenTag (r : Request) (tag : String) : String :=
  match r.payload with
  | .content data => if tag == "" then Host.contentTag data else tag
  | _ => tag

/-- A message, unless the caller wants the tag alone. -/
def messageField (r : Request) (message : String) : List (String × Json) :=
  if r.options.etagOnly then [] else [("message", .string message)]

def success : String × Json := ("success", .bool true)

def message (text : String) : String × Json := ("message", .string text)

def list? (r : Request) (output : Output) : Option Reply :=
  match r.target, output with
  | .dataSetLevel _, .dataSets entries =>
    some <| ok <| collection r (entries.map (dataSetItem r.options))
      (some "no matching results found")
  | target, .members entries =>
    some <| ok <| collection r (entries.map memberItem) (some "no members found") ++
      dataSetField target
  | .directory path, .text listing =>
    some <| ok <| collection r (listingItems listing) none ++
      [("path", .string path),
        ("format", .string (if r.options.longFormat then "long" else "short")),
        ("showHidden", .bool r.options.showHidden)]
  | .jobOwner owner, .jobs entries =>
    some <| ok <| collection r (entries.map jobItem) (some "no jobs found") ++
      [("owner", .string owner)]
  | .spoolFiles ref, .spoolFiles entries =>
    some <| ok <| collection r (entries.map spoolFileItem) (some "no spool files found") ++
      jobFields ref
  | _, _ => none

/-- What a reply with a spool file says about the file. -/
def spoolFileFields : FileKey → List (String × Json)
  | .jcl => [("ddname", .string "JCL"), ("type", .string "JCL")]
  | .number key => [("id", Json.ofNat key)]

def read? (second : Int) (r : Request) (output : Output) : Option Reply :=
  match r.target, output with
  | .file path, .text content =>
    some <| ok <| [("filePath", .string path)] ++
      (if r.options.returnEtag then [("etag", .string (readTag path content second))] else []) ++
      contentFields r.options content ++ gapField r
  | .spoolFile ref key, .text content =>
    some <| ok <| jobFields ref ++ spoolFileFields key ++ contentFields r.options content
  | .job _, .job entry => some <| ok <| jobItemFields entry ++ gapField r
  | target, .text content =>
    some <| ok <| dataSetFields target ++
      (if r.options.returnEtag then [("etag", .string (Host.contentTag content))] else []) ++
      contentFields r.options content ++ gapField r
  | _, _ => none

def write? (r : Request) (output : Output) : Option Reply :=
  match r.target, output with
  | .file path, .etag tag =>
    some <| ok <| [success, ("filePath", .string path), ("etag", .string (writtenTag r tag))] ++
      messageField r "File written successfully" ++ gapField r
  | target, .etag tag =>
    some <| ok <| dataSetFields target ++ [("etag", .string (writtenTag r tag))] ++
      messageField r "Data set written successfully" ++ gapField r
  | _, _ => none

/-- What a reply says about an entry that is created. -/
def entryFields : Payload → List (String × Json)
  | .entry kind mode =>
    [("type", .string kind.text), ("mode", .string mode.text)] ++
      mode.symbolic?.toList.map fun slots => ("permissions", .string slots)
  | _ => []

def create? (r : Request) (output : Output) : Option Reply :=
  match r.target, output with
  | .file path, .done => some <| created <| [success, ("path", .string path)] ++ entryFields r.payload
  | target, .done =>
    some <| created <| dataSetFields target ++
      [message (if target.memberName?.isSome then "Member created successfully"
        else "Data set created successfully")] ++ gapField r
  | _, _ => none

def delete? (r : Request) (output : Output) : Option Reply :=
  match r.target, output with
  | .file path, .done =>
    some <| ok [success, ("path", .string path), ("recursive", .bool r.options.recursive)]
  | .job ref, .done =>
    some <| ok <| jobFields ref ++
      [success, message ("Job " ++ ref.hostId ++ " deleted successfully")]
  | target, .done =>
    some <| ok <| dataSetFields target ++
      [message (if target.memberName?.isSome then "Member deleted successfully"
        else "Data set deleted successfully")] ++ gapField r
  | _, _ => none

/-- What a reply says about a changed mode, owner or tag. -/
def changeFields : Payload → List (String × Json)
  | .mode mode => [("mode", .string mode.text)]
  | .owner owner => [("owner", .string owner)]
  | .tag tag => [("tag", .string tag)]
  | _ => []

def change? (r : Request) (output : Output) : Option Reply :=
  match r.target, output with
  | .file path, .done =>
    some <| ok <| [success, ("path", .string path), ("operation", .string r.verb.text),
      ("recursive", .bool r.options.recursive)] ++ changeFields r.payload
  | _, _ => none

def submit? (output : Output) : Option Reply :=
  match output with
  | .jobId id =>
    some <| created [("jobid", .string id), success, message "Job submitted successfully"]
  | _ => none

/-- The reply to a request, if the output has the shape that the request asks
for. -/
def of? (second : Int) (r : Request) (output : Output) : Option Reply :=
  match r.verb with
  | .list => list? r output
  | .read => read? second r output
  | .write => write? r output
  | .create => create? r output
  | .delete => delete? r output
  | .chmod | .chown | .chtag => change? r output
  | .submit => submit? output

/-- The error for an output of another shape. -/
def unexpected (r : Request) : RequestError :=
  .host ("unexpected native result for " ++ r.verb.text ++ " '" ++ r.target.text ++ "'")
    "native call returned a result of the wrong shape"

/-- The reply to a request at a second of Unix time. -/
def build (second : Int) (r : Request) (output : Output) : Except RequestError Reply :=
  match of? second r output with
  | some reply => .ok reply
  | none => .error (unexpected r)

end Reply

end MvsGateway
