import MvsGateway.Host.Record
import MvsGateway.Json.Reader

/-!
# Records as JSON

Each record is an object with one field for each of its own. Reading is
strict about the fields of the record: each at most once and of its type,
where `null` counts as absent. All other fields are passed over, whatever
well-formed text they hold.
-/

namespace MvsGateway.Host

open Json (Written Glyph)

/-! ## Reading fields -/

/-- The fields of an object with their names. -/
def namedFields? : List (List Glyph × Written) → Option (List (String × Written))
  | [] => some []
  | (name, value) :: rest => do
    let name ← Json.textOf? name
    return (String.ofList name, value) :: (← namedFields? rest)

/-- The one value of a field: `null` where the field is absent, and nothing
where it occurs twice. -/
def theField? (fields : List (String × Written)) (name : String) : Option Written :=
  match fields.filter (·.1 == name) with
  | [] => some .null
  | [(_, value)] => some value
  | _ => none

def readText? : Written → Option (Option String)
  | .null => some none
  | .text glyphs => (Json.textOf? glyphs).map fun s => some (String.ofList s)
  | _ => none

def readFlag? : Written → Option (Option Bool)
  | .null => some none
  | .bool b => some (some b)
  | _ => none

/-- A whole number below `2 ^ 32`. -/
def readCount? : Written → Option (Option Nat)
  | .null => some none
  | .numeral n =>
    match n.toNumber? with
    | some (.whole (.ofNat n)) => if n < UInt32.size then some (some n) else none
    | _ => none
  | _ => none

/-- Reads a record from the text of an object, given how to read its fields. -/
def readRecord? {α : Type} (build : (String → Option Written) → Option α) (text : String) :
    Option α :=
  match Written.read? text.toList with
  | some (.record fields) => (namedFields? fields).bind fun fields => build (theField? fields)
  | _ => none

/-! ## Records -/

namespace DataSetEntry

def read? : String → Option DataSetEntry :=
  readRecord? fun field => do
    return {
      name := ← (← field "name") |> readText?
      dsorg := ← (← field "dsorg") |> readText?
      volser := ← (← field "volser") |> readText?
      migr := ← (← field "migr") |> readFlag?
      recfm := ← (← field "recfm") |> readText? }

end DataSetEntry

namespace MemberEntry

def read? : String → Option MemberEntry :=
  readRecord? fun field => do return { name := ← (← field "name") |> readText? }

end MemberEntry

namespace JobEntry

def read? : String → Option JobEntry :=
  readRecord? fun field => do
    return {
      jobname := ← (← field "jobname") |> readText?
      jobid := ← (← field "jobid") |> readText?
      owner := ← (← field "owner") |> readText?
      status := ← (← field "status") |> readText?
      fullStatus := ← (← field "full_status") |> readText?
      retcode := ← (← field "retcode") |> readText?
      correlator := ← (← field "job_correlator") |> readText? }

end JobEntry

namespace SpoolFileEntry

def read? : String → Option SpoolFileEntry :=
  readRecord? fun field => do
    return {
      jobid := ← (← field "jobid") |> readText?
      ddname := ← (← field "ddname") |> readText?
      dsname := ← (← field "dsname") |> readText?
      stepname := ← (← field "stepname") |> readText?
      procstep := ← (← field "procstep") |> readText?
      key := ← (← field "key") |> readCount? }

end SpoolFileEntry

namespace Attributes

def read? : String → Option Attributes :=
  readRecord? fun field => do
    return {
      dsorg := ← (← field "dsorg") |> readText?
      recfm := ← (← field "recfm") |> readText?
      lrecl := ← (← field "lrecl") |> readCount?
      blksize := ← (← field "blksize") |> readCount?
      primary := ← (← field "primary") |> readCount?
      secondary := ← (← field "secondary") |> readCount?
      dirblk := ← (← field "dirblk") |> readCount?
      alcunit := ← (← field "alcunit") |> readText? }

end Attributes

/-! ## Writing -/

/-- The JSON of an optional value, `null` in its absence. -/
def orNull {α : Type} (write : α → Json) : Option α → Json
  | some a => write a
  | none => .null

def DataSetEntry.toJson (e : DataSetEntry) : Json :=
  .object <| Json.Fields.ofList [("name", orNull .string e.name), ("dsorg", orNull .string e.dsorg),
    ("volser", orNull .string e.volser), ("migr", orNull .bool e.migr),
    ("recfm", orNull .string e.recfm)]

def MemberEntry.toJson (e : MemberEntry) : Json := .object [("name", orNull .string e.name)]

def JobEntry.toJson (e : JobEntry) : Json :=
  .object <| Json.Fields.ofList [("jobname", orNull .string e.jobname),
    ("jobid", orNull .string e.jobid), ("owner", orNull .string e.owner),
    ("status", orNull .string e.status), ("full_status", orNull .string e.fullStatus),
    ("retcode", orNull .string e.retcode), ("job_correlator", orNull .string e.correlator)]

def SpoolFileEntry.toJson (e : SpoolFileEntry) : Json :=
  .object <| Json.Fields.ofList [("jobid", orNull .string e.jobid),
    ("ddname", orNull .string e.ddname), ("dsname", orNull .string e.dsname),
    ("stepname", orNull .string e.stepname), ("procstep", orNull .string e.procstep),
    ("key", orNull Json.ofNat e.key)]

def Attributes.toJson (a : Attributes) : Json :=
  .object <| Json.Fields.ofList [("dsorg", orNull .string a.dsorg),
    ("recfm", orNull .string a.recfm), ("lrecl", orNull Json.ofNat a.lrecl),
    ("blksize", orNull Json.ofNat a.blksize), ("primary", orNull Json.ofNat a.primary),
    ("secondary", orNull Json.ofNat a.secondary), ("dirblk", orNull Json.ofNat a.dirblk),
    ("alcunit", orNull .string a.alcunit)]

end MvsGateway.Host
